import LayeredProfiles.Proofs.Document.Placement
import LayeredProfiles.Proofs.FileTree.Replacement
import LayeredProfiles.Proofs.Path.Order

set_option autoImplicit false

/-!
# The search for documents

Under the conventional patterns the search for a document finds the files that lie in an automation
section of a configuration section and have the ending of the document, and no others. A document of
supported parameters that is made beside the one of supported vehicles is such a file, so the next
search finds it.

## Main definitions

* `DocsConfig.SearchesByConvention` — the conventional patterns, below any directory.
* `Document.Holds` — whether there is a document under the given names.

## Main results

* `Document.exists_candidates` — what the search finds, and in which order.
* `Document.locate_iff_of_parse`, `Document.locateParameters_fails_iff` — when a document is
  located.
* `Document.Place.search_replaced` — a document that is missing can be made, and is found then.
* `Document.search_by_convention` — the whole search under the conventional patterns.
-/

namespace LayeredProfiles

/-- Documents are looked for, and made if need be, under the conventional names, be it below another
directory and with other bodies. -/
structure DocsConfig.SearchesByConvention (docs : DocsConfig) : Prop where
  /-- How the document of supported vehicles is found. -/
  vehicles : docs.vehiclesPattern = DocsConfig.default.vehiclesPattern
  /-- How the document of supported parameters is found. -/
  parameters : docs.parametersPattern = DocsConfig.default.parametersPattern
  /-- How it is named if it is made. -/
  fallback : docs.parametersFallback = DocsConfig.default.parametersFallback

namespace Document

/-- Below a directory there is a file under names that lead to a document by convention. -/
def Holds (tree : FileTree) (root : Path) (ending : String) (names : List String) : Prop :=
  Named ending names ∧
    ∃ base content, tree.resolve root = .ok base ∧ tree.at? (base ++ names) = some (.file content)

variable {tree after : FileTree} {root : Path} {base dir : Location} {text ending : String}
  {names others : List String}

/-! ## What is found -/

section Grounded

variable (hgrounded : tree.Grounded)

include hgrounded

/-- A document lies under names. -/
lemma Holds.isName (h : Holds tree root ending names) : ∀ name ∈ names, Path.IsName name := by
  obtain ⟨-, base, content, -, hthere⟩ := h
  exact isName_of_at? hgrounded hthere

/-- Where there is a document, there is the directory that is searched. -/
lemma Holds.isDirectory (h : Holds tree root ending names) : tree.isDirectory root = true := by
  obtain ⟨⟨a, b, c, rfl⟩, base, content, hresolve, hthere⟩ := h
  have hdirectory := hgrounded.directory_above (List.cons_ne_nil _ _) hthere
  simp [FileTree.isDirectory, FileTree.lookup?, hresolve, hdirectory]

variable (hparse : Pattern.parse text = .ok (.naming ending)) (hending : '/' ∉ ending.toList)

include hparse hending

/-- The search finds the documents and nothing else, one before the other. -/
lemma exists_candidates (root : Path) :
    ∃ found, candidates tree root text = .ok found ∧
      found.Pairwise (fun a b => a.compare b = .lt) ∧
      ∀ path, path ∈ found ↔ ∃ names, Holds tree root ending names ∧
        path = root.join (.ofNames names) := by
  cases hdirectory : tree.isDirectory root with
  | false =>
    refine ⟨[], ?_, List.Pairwise.nil, fun path => ⟨fun hmem => absurd hmem List.not_mem_nil, ?_⟩⟩
    · rw [candidates, hparse]
      dsimp only [bind, Except.bind]
      rw [hdirectory, if_neg Bool.false_ne_true]
    · rintro ⟨names, hholds, -⟩
      rw [hholds.isDirectory hgrounded] at hdirectory
      cases hdirectory
  | true =>
    obtain ⟨base, hresolve, hbase⟩ : ∃ base, tree.resolve root = .ok base ∧
        tree.at? base = some .directory := by
      unfold FileTree.isDirectory FileTree.lookup? at hdirectory
      split at hdirectory
      · next base hresolve => exact ⟨base, hresolve, by simpa using hdirectory⟩
      · cases hdirectory
    have hsearched : Searched tree root base text (.naming ending) :=
      ⟨hgrounded, hresolve, hbase, hparse⟩
    have hfile : ∀ file, file ∈ (tree.filesBelow base).filter
        (fun file => describes (.naming ending) file.1) ↔
        tree.at? (base ++ file.1) = some (.file file.2) ∧ Named ending file.1 := by
      intro file
      rw [List.mem_filter, hgrounded.mem_filesBelow_iff]
      exact and_congr_right fun hthere => hsearched.describes_iff hending hthere
    refine ⟨_, hsearched.candidates_eq, Path.pairwise_sort ?_, fun path => ?_⟩
    · -- files under different names have different components
      have hnodup := (List.filter_sublist (p := fun file : Location × Content =>
        describes (.naming ending) file.1)).map Prod.fst |>.nodup
          (FileTree.nodup_filesBelow hgrounded.toWellNamed base)
      rw [List.map_map]
      refine List.pairwise_map.2 ((List.pairwise_map.1 hnodup).imp_of_mem ?_)
      intro file other hmem hother hne hsame
      exact hne (Path.components_join_ofNames_inj (isName_of_at? hgrounded ((hfile file).1 hmem).1)
        (isName_of_at? hgrounded ((hfile other).1 hother).1) hsame)
    · rw [Path.sort, List.mem_mergeSort, List.mem_map]
      constructor
      · rintro ⟨file, hmem, rfl⟩
        obtain ⟨hthere, hnamed⟩ := (hfile file).1 hmem
        exact ⟨file.1, ⟨hnamed, base, file.2, hresolve, hthere⟩, rfl⟩
      · rintro ⟨names, ⟨hnamed, location, content, hlocation, hthere⟩, rfl⟩
        rw [hresolve] at hlocation
        cases hlocation
        exact ⟨(names, content), (hfile (names, content)).2 ⟨hthere, hnamed⟩, rfl⟩

/-- Nothing is found exactly if there is no document. -/
lemma candidates_eq_nil_iff_of_parse :
    candidates tree root text = .ok [] ↔ ∀ names, ¬ Holds tree root ending names := by
  obtain ⟨found, hfound, -, hmem⟩ := exists_candidates hgrounded hparse hending root
  rw [hfound, Except.ok.injEq]
  constructor
  · rintro rfl names hholds
    exact absurd ((hmem _).2 ⟨names, hholds, rfl⟩) List.not_mem_nil
  · intro hnone
    refine List.eq_nil_iff_forall_not_mem.2 fun path hpath => ?_
    obtain ⟨names, hholds, -⟩ := (hmem path).1 hpath
    exact hnone names hholds

/-- One path is found exactly if it is that of the only document. -/
lemma candidates_eq_singleton_iff_of_parse {path : Path} :
    candidates tree root text = .ok [path] ↔
      ∃ names, Holds tree root ending names ∧
        (∀ others, Holds tree root ending others → others = names) ∧
        path = root.join (.ofNames names) := by
  obtain ⟨found, hfound, hsorted, hmem⟩ := exists_candidates hgrounded hparse hending root
  rw [hfound, Except.ok.injEq]
  constructor
  · rintro rfl
    obtain ⟨names, hholds, rfl⟩ := (hmem path).1 (List.mem_singleton_self path)
    refine ⟨names, hholds, fun others hothers => ?_, rfl⟩
    have hsame := List.mem_singleton.1 ((hmem _).2 ⟨others, hothers, rfl⟩)
    exact Path.components_join_ofNames_inj (hothers.isName hgrounded) (hholds.isName hgrounded)
      (congrArg Path.components hsame)
  · rintro ⟨names, hholds, honly, rfl⟩
    refine eq_singleton_of_nodup (Path.nodup_of_pairwise hsorted) ((hmem _).2 ⟨names, hholds, rfl⟩) ?_
    intro other hother
    obtain ⟨others, hothers, rfl⟩ := (hmem other).1 hother
    rw [honly others hothers]

/-- A document is located exactly if there is only one. -/
lemma locate_iff_of_parse {path : Path} :
    locate tree root text = .ok path ↔
      ∃ names, Holds tree root ending names ∧
        (∀ others, Holds tree root ending others → others = names) ∧
        path = root.join (.ofNames names) :=
  locate_eq_ok_iff.trans (candidates_eq_singleton_iff_of_parse hgrounded hparse hending)

end Grounded

/-- The place of the document of supported parameters is in doubt exactly if there are several. -/
lemma locateParameters_fails_iff {docs : DocsConfig} (hgrounded : tree.Grounded)
    (hparse : Pattern.parse docs.parametersPattern = .ok (.naming ending))
    (hending : '/' ∉ ending.toList) (vehicles : Path) :
    (∃ failure, locateParameters tree docs vehicles = .error failure) ↔
      ∃ names others, Holds tree docs.root ending names ∧ Holds tree docs.root ending others ∧
        names ≠ others := by
  obtain ⟨found, hfound, hsorted, hmem⟩ := exists_candidates hgrounded hparse hending docs.root
  unfold locateParameters
  rw [hfound]
  dsimp only [bind, Except.bind]
  constructor
  · rintro ⟨failure, hfails⟩
    match found with
    | [] => cases hfails
    | [path] => cases hfails
    | first :: second :: more =>
      obtain ⟨names, hholds, rfl⟩ := (hmem first).1 (by simp)
      obtain ⟨others, hothers, rfl⟩ := (hmem second).1 (by simp)
      refine ⟨names, others, hholds, hothers, ?_⟩
      rintro rfl
      exact (List.nodup_cons.1 (Path.nodup_of_pairwise hsorted)).1 List.mem_cons_self
  · rintro ⟨names, others, hholds, hothers, hne⟩
    have hpath := (hmem _).2 ⟨names, hholds, rfl⟩
    have hother := (hmem _).2 ⟨others, hothers, rfl⟩
    match found with
    | [] => exact absurd hpath List.not_mem_nil
    | [path] =>
      -- a single path would be that of both
      have hsame := (List.mem_singleton.1 hpath).trans (List.mem_singleton.1 hother).symm
      exact absurd (Path.components_join_ofNames_inj (hholds.isName hgrounded)
        (hothers.isName hgrounded) (congrArg Path.components hsame)) hne
    | first :: second :: more => exact ⟨_, rfl⟩

/-! ## What is found once a document is written -/

/-- A temporary file is not named like a document. -/
lemma Named.ne_temporary (h : Named ending names) (hends : ¬ ending.toList <:+ ".tmp".toList)
    (htmp : ¬ ".tmp".toList <:+ ending.toList) (name : String) : names ≠ dir ++ [name ++ ".tmp"] := by
  obtain ⟨a, b, c, rfl⟩ := h
  intro hsame
  have hlast := congrArg List.getLast? hsame
  rw [List.getLast?_concat] at hlast
  exact append_ne_append hends htmp (Option.some.inj hlast)

section Written

variable {name : String} (h : Searched tree root base text (Pattern.naming ending))
  (hending : '/' ∉ ending.toList)

include h hending

/-- A document is found where it was while files of other names change. -/
lemma Place.candidates_spared {touched : List Location} (hplace : Place tree base ending dir name)
    {content : Content} (hthere : tree.at? (base ++ (dir ++ [name])) = some (.file content))
    (hchanged : FileTree.Rewritten tree after touched)
    (hspared : ∀ others, base ++ others ∈ touched → ¬ Named ending others) :
    candidates after root text = .ok [root.join (.ofNames (dir ++ [name]))] := by
  have hafter := hplace.rewritten hchanged fun others hmem hnamed =>
    absurd hnamed (hspared others hmem)
  have hkept : after.at? (base ++ (dir ++ [name])) = some (.file content) := by
    rw [hchanged.elsewhere _ fun hmem => hspared _ hmem hplace.named, hthere]
  exact hafter.candidates_eq (h.rewritten hchanged) hending hkept

/-- A document that is written to its place is found there. -/
lemma Place.candidates_written {content : Content} {touched : List Location}
    (hplace : Place tree base ending dir name) (hchanged : FileTree.Rewritten tree after touched)
    (hthere : after.at? (base ++ (dir ++ [name])) = some (.file content))
    (hspared : ∀ others, base ++ others ∈ touched → Named ending others → others = dir ++ [name]) :
    candidates after root text = .ok [root.join (.ofNames (dir ++ [name]))] :=
  (hplace.rewritten hchanged hspared).candidates_eq (h.rewritten hchanged) hending hthere

end Written

/-- A document has a place below the directory that is searched. -/
lemma Place.spot {name : String} {pattern : Pattern} (h : Searched tree root base text pattern)
    (hplace : Place tree base ending dir name) :
    tree.Spot (root.join (.ofNames (dir ++ [name]))) (base ++ dir) name :=
  FileTree.spot_join h.grounded (fun n hn => hplace.isName n (List.mem_append_left _ hn))
    (hplace.isName name (by simp)) (FileTree.reach_of_resolve h.resolve) hplace.directory

/-- What is named like a document of supported parameters is found as that and not as one of supported
vehicles. -/
lemma describes_of_named (hnames : ∀ name ∈ names, Path.IsName name)
    (hnamed : Named parametersEnding names) :
    describes (.naming parametersEnding) names = true ∧
      describes (.naming vehiclesEnding) names = false := by
  refine ⟨(Pattern.isFoundIn_naming_iff (by decide) hnames).2 hnamed, ?_⟩
  refine Bool.eq_false_iff.2 fun hfound => ?_
  have hother := (Pattern.isFoundIn_naming_iff (by decide) hnames).1 hfound
  exact hother.ne hnamed (by decide) (by decide) rfl

section Made

variable {name fallback : String} {parameters : String}

/-- A document that is missing can be made unless a directory is in the way. Then it is found, and so
is the other one, beside which it was made. -/
lemma Place.search_replaced
    (h : Searched tree root base text (.naming vehiclesEnding))
    (hsecond : Searched tree root base parameters (.naming parametersEnding))
    (hplace : Place tree base vehiclesEnding dir name)
    {document : Content} (hthere : tree.at? (base ++ (dir ++ [name])) = some (.file document))
    (hmade : Place tree base parametersEnding dir fallback)
    {path : Path} (hpath : path = root.join (.ofNames (dir ++ [fallback])))
    {content : String} {result : Except Failure Unit}
    (hrun : (FileOperation.replace path content).runOn tree = (result, after)) :
    (result = .ok () ↔ tree.isDirectory path = false ∧
      tree.isDirectory (FileOperation.temporary path) = false) ∧
    (result = .ok () →
      candidates after root parameters = .ok [path] ∧
      candidates after root text = .ok [root.join (.ofNames (dir ++ [name]))] ∧
      after.readText path = .ok content) := by
  have hspot : tree.Spot path (base ++ dir) fallback := hpath ▸ hmade.spot hsecond
  have hdirectory : ∀ {other : Path} {last : String}, tree.Spot other (base ++ dir) last →
      (tree.isDirectory other = false ↔ tree.at? (base ++ dir ++ [last]) ≠ some .directory) := by
    intro other last hother
    simp [FileTree.isDirectory, FileTree.lookup?, hother.resolve]
  rw [hdirectory hspot, hdirectory hspot.temporary]
  rw [hspot.runOn_replace, FileTree.scratch] at hrun
  split_ifs at hrun with hscratch hfile
  · cases hrun
    refine ⟨⟨fun hok => ?_, fun hfree => absurd hscratch hfree.2⟩, fun hok => ?_⟩ <;> cases hok
  · cases hrun
    refine ⟨⟨fun hok => ?_, fun hfree => absurd hfile hfree.1⟩, fun hok => ?_⟩ <;> cases hok
  · cases hrun
    have hchanged := FileTree.rewritten_replaced hspot hscratch hfile content
    have hwritten : (tree.replaced (base ++ dir) fallback content).at? (base ++ (dir ++ [fallback])) =
        some (.file (.text content)) := by
      rw [FileTree.at?_replaced, ← List.append_assoc, if_pos rfl]
    -- the two files that change are the document and its temporary file
    have htouched : ∀ others, base ++ others ∈
        [base ++ dir ++ [fallback], FileTree.scratch (base ++ dir) fallback] →
        others = dir ++ [fallback] ∨ others = dir ++ [fallback ++ ".tmp"] := by
      intro others hmem
      simpa [FileTree.scratch] using hmem
    refine ⟨⟨fun _ => ⟨hfile, hscratch⟩, fun _ => rfl⟩, fun _ => ⟨?_, ?_, ?_⟩⟩
    · rw [hpath]
      refine hmade.candidates_written hsecond (by decide) hchanged hwritten ?_
      intro others hmem hnamed
      exact (htouched others hmem).resolve_right
        (hnamed.ne_temporary (by decide) (by decide) fallback)
    · refine hplace.candidates_spared h (by decide) hthere hchanged fun others hmem hnamed => ?_
      rcases htouched others hmem with rfl | rfl
      · exact hnamed.ne hmade.named (by decide) (by decide) rfl
      · exact hnamed.ne_temporary (by decide) (by decide) fallback rfl
    · refine FileTree.readText_eq_ok_iff.2 ⟨_, (hchanged.spot hspot).resolve, ?_⟩
      rw [List.append_assoc]
      exact hwritten

end Made

/-- **The search under the conventional patterns.** In a tree of real files it finds, one before the
other, the files that lie in an automation section of a configuration section and have the ending of
the document. The document of supported vehicles is located exactly if there is one such file, and
the place of the document of supported parameters is in doubt exactly if there are several. Beside a
located document of supported vehicles the other one is made under a name that its pattern is found
in and that of the first one is not. It can be written there unless a directory is in the way, and
then it is all that the next search for it finds, while the first one is located as before.

**Proof sketch.** The patterns are found in the conventional names only
(`Pattern.isFoundIn_naming_iff`), and different names make different paths, so that the sorted
candidates are the documents (`exists_candidates`). Writing a document changes the file and its
temporary one, which is not named like a document (`Named.ne_temporary`). -/
theorem search_by_convention (hgrounded : tree.Grounded) {docs : DocsConfig}
    (hdocs : docs.SearchesByConvention) :
    (∀ search ∈ [(docs.vehiclesPattern, vehiclesEnding), (docs.parametersPattern, parametersEnding)],
      ∃ found, candidates tree docs.root search.1 = .ok found ∧
        found.Pairwise (fun a b => a.compare b = .lt) ∧
        ∀ path, path ∈ found ↔ ∃ names, Holds tree docs.root search.2 names ∧
          path = docs.root.join (.ofNames names)) ∧
    ((∃ path, locate tree docs.root docs.vehiclesPattern = .ok path) ↔
      ∃! names, Holds tree docs.root vehiclesEnding names) ∧
    (∀ vehicles, (∃ failure, locateParameters tree docs vehicles = .error failure) ↔
      ∃ names others, Holds tree docs.root parametersEnding names ∧
        Holds tree docs.root parametersEnding others ∧ names ≠ others) ∧
    ∀ vehicles, locate tree docs.root docs.vehiclesPattern = .ok vehicles →
      ∃ dir name, vehicles = docs.root.join (.ofNames (dir ++ [name])) ∧
        Holds tree docs.root vehiclesEnding (dir ++ [name]) ∧
        vehicles.withFileName docs.parametersFallback =
          docs.root.join (.ofNames (dir ++ [docs.parametersFallback])) ∧
        (Pattern.parse docs.parametersPattern).map
          (describes · (dir ++ [docs.parametersFallback])) = .ok true ∧
        (Pattern.parse docs.vehiclesPattern).map
          (describes · (dir ++ [docs.parametersFallback])) = .ok false ∧
        ((∀ names, ¬ Holds tree docs.root parametersEnding names) →
          ∀ fallback, fallback = vehicles.withFileName docs.parametersFallback →
          locateParameters tree docs vehicles = .ok fallback ∧
          ∀ content result after,
            (FileOperation.replace fallback content).runOn tree = (result, after) →
            (result = .ok () ↔ tree.isDirectory fallback = false ∧
              tree.isDirectory (FileOperation.temporary fallback) = false) ∧
            (result = .ok () →
              candidates after docs.root docs.parametersPattern = .ok [fallback] ∧
              locate after docs.root docs.vehiclesPattern = .ok vehicles ∧
              after.readText fallback = .ok content)) := by
  have hvehicles : Pattern.parse docs.vehiclesPattern = .ok (.naming vehiclesEnding) := by
    rw [hdocs.vehicles, Pattern.parse, Pattern.read?_vehiclesPattern]
  have hparameters : Pattern.parse docs.parametersPattern = .ok (.naming parametersEnding) := by
    rw [hdocs.parameters, Pattern.parse, Pattern.read?_parametersPattern]
  refine ⟨List.forall_mem_cons.2 ⟨?_, List.forall_mem_singleton.2 ?_⟩, ?_, fun vehicles => ?_,
    fun vehicles hlocated => ?_⟩
  · exact exists_candidates hgrounded hvehicles (by decide) docs.root
  · exact exists_candidates hgrounded hparameters (by decide) docs.root
  · constructor
    · rintro ⟨path, hlocated⟩
      obtain ⟨names, hholds, honly, -⟩ :=
        (locate_iff_of_parse hgrounded hvehicles (by decide)).1 hlocated
      exact ⟨names, hholds, honly⟩
    · rintro ⟨names, hholds, honly⟩
      exact ⟨_, (locate_iff_of_parse hgrounded hvehicles (by decide)).2
        ⟨names, hholds, honly, rfl⟩⟩
  · exact locateParameters_fails_iff hgrounded hparameters (by decide) vehicles
  · obtain ⟨base, pattern, hfirst⟩ := searched_of_locate hgrounded hlocated
    obtain rfl : pattern = .naming vehiclesEnding :=
      Except.ok.inj (hfirst.parse.symm.trans hvehicles)
    have hsecond : Searched tree docs.root base docs.parametersPattern (.naming parametersEnding) :=
      ⟨hgrounded, hfirst.resolve, hfirst.directory, hparameters⟩
    obtain ⟨dir, name, rfl, hplace, document, hthere⟩ :=
      place_of_candidates hfirst (by decide) (locate_eq_ok_iff.1 hlocated)
    have hname : Path.IsName docs.parametersFallback := by
      rw [hdocs.fallback]
      decide
    have hending : docs.parametersFallback = "3" ++ parametersEnding := by
      rw [hdocs.fallback]
      decide
    have hnamed : Named parametersEnding (dir ++ [docs.parametersFallback]) :=
      hending ▸ hplace.named.beside "3" parametersEnding
    have hnames : ∀ n ∈ dir ++ [docs.parametersFallback], Path.IsName n :=
      List.forall_mem_append.2 ⟨fun n hn => hplace.isName n (List.mem_append_left _ hn),
        List.forall_mem_singleton.2 hname⟩
    obtain ⟨hfound, hnotFound⟩ := describes_of_named hnames hnamed
    refine ⟨dir, name, rfl, ⟨hplace.named, base, document, hfirst.resolve, hthere⟩,
      hplace.withFileName hname, ?_, ?_, ?_⟩
    · rw [hparameters]
      exact congrArg Except.ok hfound
    · rw [hvehicles]
      exact congrArg Except.ok hnotFound
    · rintro hnone fallback rfl
      have hmissing := (candidates_eq_nil_iff_of_parse hgrounded hparameters (by decide)).2 hnone
      have hmade : Place tree base parametersEnding dir docs.parametersFallback :=
        hplace.fallback hsecond (by decide) hmissing hname ⟨"3", hending⟩
      refine ⟨locateParameters_eq_ok_iff.2 (.inr ⟨hmissing, rfl⟩), fun content result after hrun => ?_⟩
      rw [locate_eq_ok_iff]
      exact hplace.search_replaced hfirst hsecond hthere hmade (hplace.withFileName hname) hrun

/-- A documentation with one document of supported vehicles, and others that are elsewhere or named
otherwise. -/
def sampleManual : FileTree :=
  ⟨[(["d"], .directory), (["d", "2.x.Config"], .directory),
    (["d", "2.x.Config", ".Automate"], .directory),
    (["d", "2.x.Config", ".Automate", "1.Supported_Vehicles.md"], .file (.text "v")),
    (["d", "2.x.Config", ".Automate", "2.Supported_Vehicles_md"], .file (.text "w")),
    (["d", "2.x.Config", ".Automate", "n"], .directory),
    (["d", "2.x.Config", ".Automate", "n", "3.Supported_Vehicles.md"], .file (.text "n"))], []⟩

/-- The conventional search in this documentation. -/
def sampleDocs : DocsConfig :=
  { DocsConfig.default with root := ⟨"d"⟩ }

/-- One document is located, and the one that is made beside it is found. -/
theorem search_by_convention_sampleManual :
    sampleManual.Grounded ∧ sampleDocs.SearchesByConvention ∧
      (∃! names, Holds sampleManual sampleDocs.root vehiclesEnding names) ∧
      locate sampleManual sampleDocs.root sampleDocs.vehiclesPattern =
        .ok ⟨"d/2.x.Config/.Automate/1.Supported_Vehicles.md"⟩ ∧
      ∃ after, (FileOperation.replace ⟨"d/2.x.Config/.Automate/3.Supported_Parameters.md"⟩ "p").runOn
          sampleManual = (.ok (), after) ∧
        candidates after sampleDocs.root sampleDocs.parametersPattern =
          .ok [⟨"d/2.x.Config/.Automate/3.Supported_Parameters.md"⟩] := by
  have hgrounded : sampleManual.Grounded := by decide +kernel
  have hdocs : sampleDocs.SearchesByConvention := ⟨rfl, rfl, rfl⟩
  have hlocate : locate sampleManual sampleDocs.root sampleDocs.vehiclesPattern =
      .ok ⟨"d/2.x.Config/.Automate/1.Supported_Vehicles.md"⟩ := by decide +kernel
  have hnone : candidates sampleManual sampleDocs.root sampleDocs.parametersPattern = .ok [] := by
    decide +kernel
  have hparse : Pattern.parse sampleDocs.parametersPattern = .ok (.naming parametersEnding) := by
    rw [hdocs.parameters, Pattern.parse, Pattern.read?_parametersPattern]
  obtain ⟨-, hunique, -, hfallback⟩ := search_by_convention hgrounded hdocs
  obtain ⟨dir, name, -, -, -, -, -, hmade⟩ := hfallback _ hlocate
  obtain ⟨-, hwritten⟩ := hmade
    ((candidates_eq_nil_iff_of_parse hgrounded hparse (by decide)).1 hnone)
    ⟨"d/2.x.Config/.Automate/3.Supported_Parameters.md"⟩ (by decide +kernel)
  obtain ⟨hok, hfound⟩ := hwritten "p" _ _ rfl
  have hresult := hok.2 (by decide +kernel)
  exact ⟨hgrounded, hdocs, hunique.1 ⟨_, hlocate⟩, hlocate, _, Prod.ext hresult rfl,
    (hfound hresult).1⟩

end Document

end LayeredProfiles
