import LayeredProfiles.Proofs.Layers.Precedence
import LayeredProfiles.Proofs.Layers.Resolution
import LayeredProfiles.Proofs.Profile.Enrich

set_option autoImplicit false

/-!
# Where the parameters of a resolved fragment come from

Origins are found in one pass from the leaf on, in which the first fragment that names a parameter
gets the credit, whereas tables are merged from the base on, and pruned at the end. The two agree:
what a resolved fragment carries is what the origin of the parameter asks for.

## Main results

* `Origins.of?_ofChain` — the origin of a parameter is the first fragment that declares it.
* `Resolution.exists_origin_of_carries` — the origin asks for what the resolved fragment carries.
* `Layers.origin_declares` — the same for resolving a fragment, and for the failures of joining.
-/

namespace LayeredProfiles

namespace Origins

/-- Only what has no origin yet is credited to a fragment. -/
lemma of?_credit (origins : Origins) (key : Path) (f : Fragment) (name : String) :
    (origins.credit key f).of? name =
      (origins.of? name).or (if Layers.declares name f then some key else Option.none) := by
  have hfold : ∀ (names : List String) (byName : OrderedMap String Path),
      OrderedMap.get?
          (names.foldl (fun byName name => OrderedMap.insertIfNew byName name key) byName) name =
        (OrderedMap.get? byName name).or (if name ∈ names then some key else Option.none) := by
    intro names
    induction names with
    | nil => simp
    | cons first rest ih =>
      intro byName
      rw [List.foldl_cons, ih, OrderedMap.get?_insertIfNew, Option.or_assoc]
      by_cases hfirst : first = name
      · by_cases hrest : name ∈ rest <;> simp [hfirst, hrest]
      · simp [hfirst, Ne.symm hfirst]
  unfold Layers.declares
  simpa [credit, of?] using hfold (Layers.parameterNames (f.pids.getD [])) origins.byName

/-- Crediting fragments one by one, the first one that declares a parameter gets the credit. -/
lemma of?_foldl_credit (chain : Chain) (origins : Origins) (name : String) :
    (chain.foldl (fun origins link => origins.credit link.1 link.2) origins).of? name =
      (origins.of? name).or
        ((chain.find? fun link => Layers.declares name link.2).map Prod.fst) := by
  induction chain generalizing origins with
  | nil => simp
  | cons link rest ih =>
    rw [List.foldl_cons, ih, of?_credit, Option.or_assoc, List.find?_cons]
    cases Layers.declares name link.2 <;> simp

/-- The origin of a parameter is the fragment nearest the leaf that declares it. -/
lemma of?_ofChain (chain : Chain) (name : String) :
    (ofChain chain).of? name =
      (chain.find? fun link => Layers.declares name link.2).map Prod.fst :=
  of?_foldl_credit chain none name

end Origins

namespace Layers

/-- What a request carries its table declares. -/
lemma declares_of_carries {f : Fragment} {code name expression : String}
    (h : Carries (f.pids.getD []) code name expression) : declares name f = true := by
  obtain ⟨entry, hentry, -, hparameter⟩ := h
  have hname : name ∈ parameterNames (f.pids.getD []) :=
    List.mem_flatMap.2 ⟨entry, hentry, OrderedMap.mem_keys_iff.2 ⟨expression, hparameter⟩⟩
  simpa [declares] using hname

/-- Pruning adds nothing to a table. -/
lemma carries_of_prune {table : List PidEntry} {code name expression : String}
    (h : Carries (prune table) code name expression) : Carries table code name expression := by
  obtain ⟨entry, hentry, hcode, hparameter⟩ := h
  obtain ⟨whole, hwhole, rfl⟩ := List.mem_map.1 (List.mem_of_mem_filter hentry)
  exact ⟨whole, hwhole, hcode, List.mem_of_mem_filter hparameter⟩

/-- What a layer asks for it carries. -/
lemma carries_of_lastDeclared? {table : List PidEntry} {code name expression : String}
    (h : lastDeclared? table code name = some expression) :
    Carries table code name expression := by
  obtain ⟨entry, hentry, hcode, hget⟩ := exists_of_lastDeclared? h
  exact ⟨entry, hentry, hcode, (OrderedMap.get?_eq_some_iff entry.parameters_unique _ _).1 hget⟩

/-- Whatever a merged and pruned chain carries is carried by the first of its fragments that
declares the parameter. A lone fragment is merged with nothing. -/
lemma exists_declaring_of_carries {chain : List Fragment} {merged : Fragment} {table : List PidEntry}
    {code name expression : String} (hmerge : merge? chain = some merged)
    (htable : merged.pids = some table) (h : Carries (prune table) code name expression) :
    ∃ f, chain.find? (declares name) = some f ∧
      Carries (f.pids.getD []) code name expression := by
  match chain with
  | [] => cases hmerge
  | [leaf] =>
    obtain rfl : leaf = merged := Option.some.inj hmerge
    have hcarries : Carries (leaf.pids.getD []) code name expression := by
      rw [htable]
      exact carries_of_prune h
    exact ⟨leaf, by simp [declares_of_carries hcarries], hcarries⟩
  | leaf :: parent :: ancestors =>
    cases hmerge
    cases htable
    obtain ⟨layer, hlayer, hlast, -⟩ := (carries_prune_stack_iff _ _ _ _).1 h
    exact ⟨layer, hlayer, carries_of_lastDeclared? hlast⟩

end Layers

/-- **The origin of a parameter asks for what is carried**: every parameter that a resolved chain
carries is carried, under the same code and with the same expression, by the fragment that is its
origin, which is the first one of the chain that declares it. -/
lemma Resolution.exists_origin_of_carries {chain : Chain} {resolution : Resolution}
    {table : List PidEntry} {code name expression : String}
    (h : Resolution.ofChain? chain = some resolution) (htable : resolution.profile.pids = some table)
    (hcarries : Layers.Carries table code name expression) :
    ∃ (i : Nat) (origin : Path) (f : Fragment), chain[i]? = some (origin, f) ∧
      resolution.origins.of? name = some origin ∧
      Layers.Carries (f.pids.getD []) code name expression ∧
      ∀ j < i, ∀ link : Path × Fragment, chain[j]? = some link →
        Layers.declares name link.2 = false := by
  obtain ⟨merged, hmerge, rfl⟩ := Option.map_eq_some_iff.1 h
  obtain ⟨whole, hwhole, rfl⟩ := Option.map_eq_some_iff.1 htable
  obtain ⟨_, hfind, hf⟩ := Layers.exists_declaring_of_carries hmerge hwhole hcarries
  rw [Chain.fragments, List.find?_map, Option.map_eq_some_iff] at hfind
  obtain ⟨⟨origin, f⟩, hfind, rfl⟩ := hfind
  obtain ⟨-, i, hi, hlink, hnearer⟩ := List.find?_eq_some_iff_getElem.1 hfind
  refine ⟨i, origin, f, List.getElem?_eq_some_iff.2 ⟨hi, hlink⟩, ?_, hf, ?_⟩
  · have horigin := Origins.of?_ofChain chain name
    rw [show (fun link : Path × Fragment => Layers.declares name link.2) =
      Layers.declares name ∘ Prod.snd from rfl, hfind] at horigin
    exact horigin
  · intro j hj link hlinkj
    obtain ⟨hjlt, rfl⟩ := List.getElem?_eq_some_iff.1 hlinkj
    simpa using hnearer j hj

/-- The links of a chain are the fragments that the walk passes, under their keys. -/
lemma Chain.getElem?_of_collect {source : FragmentSource} {maxDepth : Nat} {key : Path}
    {leaf : Fragment} {chain : Chain} (h : collect source maxDepth key leaf = .ok chain) {i : Nat}
    {link : Path × Fragment} (hlink : chain[i]? = some link) :
    (Walk.mk source key leaf).key? i = some link.1 ∧
      (Walk.mk source key leaf).fragment? i = some link.2 := by
  obtain ⟨d, -, -, hlinks⟩ := ((Walk.mk source key leaf).collect_eq_ok_iff maxDepth chain).1 h
  have hi : i < d + 1 := by
    obtain ⟨hlt, -⟩ := List.getElem?_eq_some_iff.1 hlink
    have hlength := congrArg List.length hlinks
    rw [List.length_map, List.length_map, List.length_range] at hlength
    omega
  have hat := congrArg (fun links => links[i]?) hlinks
  simpa [hlink, hi, eq_comm] using hat

/-- A parameter that the library does not have is one of the table's, and is reported against its
origin, or against the leaf if it has none. -/
lemma ResolvedProfile.exists_of_unknownParameter {leaf fragment : Path} {merged : Fragment}
    {library : ParameterLibrary} {origins : Origins} {name : String}
    (h : ResolvedProfile.of leaf merged library origins =
      .error (.unknownParameter fragment name)) :
    fragment = (origins.of? name).getD leaf ∧ library.get? name = none ∧
      ∃ table code expression, merged.pids = some table ∧
        Layers.Carries table code name expression := by
  rcases of_eq_error_iff.1 h with ⟨-, hnone⟩ | ⟨table, unknown, htable, hfind, hfailure⟩
  · cases hnone
  · cases hfailure
    obtain ⟨hmissing, -⟩ := List.find?_eq_some_iff_append.1 hfind
    obtain ⟨entry, hentry, hname⟩ := List.mem_flatMap.1 (List.mem_of_find?_eq_some hfind)
    obtain ⟨expression, hparameter⟩ := OrderedMap.mem_keys_iff.1 hname
    exact ⟨rfl, by simpa [ParameterLibrary.contains] using hmissing, table, entry.code, expression,
      htable, entry, hentry, rfl, hparameter⟩

/-- Whatever parameter a resolved fragment carries, the fragment that is its origin carries it too,
and no fragment nearer the leaf declares it. -/
lemma Fragment.exists_origin_of_carries {source : FragmentSource} {maxDepth : Nat} {key : Path}
    {leaf : Fragment} {resolution : Resolution} {table : List PidEntry}
    {code name expression : String} (h : leaf.resolve source maxDepth key = .ok resolution)
    (htable : resolution.profile.pids = some table)
    (hcarries : Layers.Carries table code name expression) :
    ∃ i origin f, resolution.origins.of? name = some origin ∧
      resolution.chain[i]? = some origin ∧
      (Walk.mk source key leaf).key? i = some origin ∧
      (Walk.mk source key leaf).fragment? i = some f ∧
      Layers.Carries (f.pids.getD []) code name expression ∧
      ∀ j < i, ∀ nearer, (Walk.mk source key leaf).fragment? j = some nearer →
        Layers.declares name nearer = false := by
  obtain ⟨chain, hchain, hfound⟩ := resolve_eq_ok_iff.1 h
  obtain ⟨i, origin, f, hlink, horigin, hf, hnearer⟩ :=
    Resolution.exists_origin_of_carries hfound htable hcarries
  obtain ⟨hkey, hfragment⟩ := Chain.getElem?_of_collect hchain hlink
  have hkeys : resolution.chain = chain.keys := by
    obtain ⟨merged, -, rfl⟩ := Option.map_eq_some_iff.1 hfound
    rfl
  refine ⟨i, origin, f, horigin, ?_, hkey, hfragment, hf, fun j hj nearer hload => ?_⟩
  · rw [hkeys, Chain.keys, List.getElem?_map, hlink]
    rfl
  · have hlt : j < chain.length := by
      have := (List.getElem?_eq_some_iff.1 hlink).1
      omega
    have hlinkj : chain[j]? = some chain[j] := List.getElem?_eq_getElem hlt
    have hloadj := (Chain.getElem?_of_collect hchain hlinkj).2
    rw [hload, Option.some.injEq] at hloadj
    rw [hloadj]
    exact hnearer j hj _ hlinkj

/-- **The origin of a parameter declares it.** Whatever a fragment resolves to, be it alone or with
ancestors, every parameter that is carried has an origin; it is the key of a fragment of the chain,
and that fragment itself has the parameter under the same code with the same expression, whereas no
fragment nearer the leaf declares the parameter at all. If joining with a library then fails because
of an unknown parameter, the failure names the origin of the parameter, so a fragment that declares
it, and never the leaf for want of an origin.

**Proof sketch.** Merging lets the nearest declaring fragment decide (`carries_prune_stack_iff`),
and a lone fragment is merged with nothing; crediting from the leaf on finds the same fragment
(`of?_ofChain`). The links of the chain are those of the walk along the references
(`getElem?_of_collect`). An unknown parameter is one that the table carries. -/
theorem Layers.origin_declares (source : FragmentSource) (maxDepth : Nat) (key : Path)
    (leaf : Fragment) (resolution : Resolution)
    (h : leaf.resolve source maxDepth key = .ok resolution) :
    (∀ table, resolution.profile.pids = some table →
      ∀ code name expression, Carries table code name expression →
        ∃ i origin f, resolution.origins.of? name = some origin ∧
          resolution.chain[i]? = some origin ∧
          (Walk.mk source key leaf).key? i = some origin ∧
          (Walk.mk source key leaf).fragment? i = some f ∧
          Carries (f.pids.getD []) code name expression ∧
          ∀ j < i, ∀ nearer, (Walk.mk source key leaf).fragment? j = some nearer →
            declares name nearer = false) ∧
    (∀ against library fragment name,
      ResolvedProfile.of against resolution.profile library resolution.origins =
          .error (.unknownParameter fragment name) →
        resolution.origins.of? name = some fragment ∧ library.get? name = none ∧
        ∃ i f, resolution.chain[i]? = some fragment ∧
          (Walk.mk source key leaf).key? i = some fragment ∧
          (Walk.mk source key leaf).fragment? i = some f ∧ declares name f = true) := by
  refine ⟨fun table htable code name expression hcarries =>
    Fragment.exists_origin_of_carries h htable hcarries, ?_⟩
  intro against library fragment name hunknown
  obtain ⟨hreported, hmissing, table, code, expression, htable, hcarries⟩ :=
    ResolvedProfile.exists_of_unknownParameter hunknown
  obtain ⟨i, origin, f, hname, hlink, hkey, hfragment, hf, -⟩ :=
    Fragment.exists_origin_of_carries h htable hcarries
  rw [hname, Option.getD_some] at hreported
  subst hreported
  exact ⟨hname, hmissing, i, f, hlink, hkey, hfragment, declares_of_carries hf⟩

/-- A fragment that moves a parameter of its base to another request. -/
def sampleLayers : FragmentSource := .ofFragments
  [(⟨"base"⟩, { Fragment.empty with pids := some [.ofExpressions "A" [("X", "1"), ("Y", "2")]] }),
    (⟨"move"⟩, { Fragment.empty with
      parent := some "base", pids := some [.ofExpressions "B" [("X", "3")]] })]

/-- What a leaf resolves to that builds on that fragment and has no table of its own. -/
def sampleResolution : Resolution where
  chain := [⟨"leaf"⟩, ⟨"move"⟩, ⟨"base"⟩]
  profile := { Fragment.empty with
    parent := some "move"
    pids := some [.ofExpressions "A" [("Y", "2")], .ofExpressions "B" [("X", "3")]] }
  origins := ⟨[("X", ⟨"move"⟩), ("Y", ⟨"base"⟩)]⟩

/-- A parameter that the library does not have is reported against the fragment that moves it, not
against the leaf. -/
theorem Layers.origin_declares_moved :
    Fragment.resolve sampleLayers 16 ⟨"leaf"⟩ { Fragment.empty with parent := some "move" } =
        .ok sampleResolution ∧
      ResolvedProfile.of ⟨"leaf"⟩ sampleResolution.profile (.ofDefinitions [⟨"Y", none, []⟩])
        sampleResolution.origins = .error (.unknownParameter ⟨"move"⟩ "X") ∧
      sampleResolution.origins.of? "X" = some ⟨"move"⟩ ∧
      ∃ i : Nat, sampleResolution.chain[i]? = some ⟨"move"⟩ := by
  have hresolve : Fragment.resolve sampleLayers 16 ⟨"leaf"⟩
      { Fragment.empty with parent := some "move" } = .ok sampleResolution := by decide +kernel
  have hunknown : ResolvedProfile.of ⟨"leaf"⟩ sampleResolution.profile
      (.ofDefinitions [⟨"Y", none, []⟩]) sampleResolution.origins =
        .error (.unknownParameter ⟨"move"⟩ "X") := by decide +kernel
  obtain ⟨-, hreported⟩ := origin_declares _ _ _ _ _ hresolve
  obtain ⟨horigin, -, i, -, hlink, -⟩ := hreported _ _ _ _ hunknown
  exact ⟨hresolve, hunknown, horigin, i, hlink⟩

end LayeredProfiles
