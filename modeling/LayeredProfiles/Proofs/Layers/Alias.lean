import LayeredProfiles.Proofs.Layers.Arrangement
import LayeredProfiles.Proofs.Layers.Composition
import LayeredProfiles.Proofs.Layers.Resolution

set_option autoImplicit false

/-!
# Fragments that only rename another one

A fragment may build on another one and have no table of its own. Its chain is that of the other
fragment with one more link in front, and since the link adds nothing, the two chains amount to the
same table. There is one exception. A fragment that builds on nothing is not merged at all, so it
keeps its table as it is written, whereas the table is merged as soon as something builds on it: then
requests of the same code become one.

## Main results

* `Chain.collect_cons` — the chain of a fragment that builds on one whose chain is known.
* `Layers.apply_nil_arrangement` — what a lone table becomes when it is merged.
* `Layers.alias_inherits` — what a fragment without a table of its own inherits.
* `Layers.alias_joins_requests` — it need not be what the other fragment resolves to.
-/

namespace LayeredProfiles

/-! ## One more link -/

namespace Walk

variable {source : FragmentSource} {key parent : Path} {leaf base : Fragment}

/-- The walk from a fragment goes on as the walk from the one that it builds on. -/
lemma fragment?_succ (hparent : leaf.parentKey? = some parent.normalized)
    (hbase : source parent.normalized = .ok base) (i : Nat) :
    (Walk.mk source key leaf).fragment? (i + 1) = (Walk.mk source parent base).fragment? i := by
  induction i with
  | zero => simp [fragment?, hparent, hbase, Except.toOption]
  | succ i ih => rw [fragment?, ih, fragment?]

/-- The keys that follow are those of the walk from the fragment that it builds on. -/
lemma key?_succ (hparent : leaf.parentKey? = some parent.normalized)
    (hbase : source parent.normalized = .ok base) (i : Nat) :
    (Walk.mk source key leaf).key? (i + 1) = (Walk.mk source parent base).key? i := by
  cases i with
  | zero => exact hparent
  | succ i => rw [key?, fragment?_succ hparent hbase, key?]

/-- Where the walk from a fragment arrives, so does the walk from one that builds on it, unless that
one has been passed. -/
lemma ArrivesAt.succ (hparent : leaf.parentKey? = some parent.normalized)
    (hbase : source parent.normalized = .ok base) {d : Nat}
    (h : (Walk.mk source parent base).ArrivesAt d)
    (hnew : ∀ i ≤ d, (Walk.mk source parent base).key? i ≠ some key.normalized) :
    (Walk.mk source key leaf).ArrivesAt (d + 1) := by
  obtain ⟨hclear, last, hlast, hend⟩ := h
  refine ⟨⟨fun i hi => ?_, fun i j hij hj => ?_⟩, last, ?_, hend⟩
  · cases i with
    | zero => rfl
    | succ i =>
      rw [fragment?_succ hparent hbase]
      exact hclear.loads i (by omega)
  · obtain ⟨j, rfl⟩ : ∃ k, j = k + 1 := ⟨j - 1, by omega⟩
    rw [key?_succ hparent hbase]
    cases i with
    | zero => exact (hnew j (by omega)).symm
    | succ i =>
      rw [key?_succ hparent hbase]
      exact hclear.distinct i j (by omega) (by omega)
  · rwa [fragment?_succ hparent hbase]

/-- A walk that arrives does not pass a fragment that leads back to where it started. -/
lemma ArrivesAt.key?_ne_of_source {d : Nat} (h : (Walk.mk source parent base).ArrivesAt d)
    (hbase : source parent.normalized = .ok base)
    (hparent : leaf.parentKey? = some parent.normalized)
    (hleaf : source key.normalized = .ok leaf) {i : Nat} (hi : i ≤ d) :
    (Walk.mk source parent base).key? i ≠ some key.normalized := by
  obtain ⟨hclear, last, hlast, hend⟩ := h
  intro hkey
  -- what the walk passes under the key is the fragment itself
  have hpassed : (Walk.mk source parent base).fragment? i = some leaf := by
    cases i with
    | zero =>
      have hsame : parent.normalized = key.normalized := Option.some.inj hkey
      rw [hsame, hleaf] at hbase
      exact congrArg some (Except.ok.inj hbase).symm
    | succ i =>
      change ((Walk.mk source parent base).key? (i + 1)).bind _ = some leaf
      rw [hkey]
      simp [hleaf, Except.toOption]
  have hnext : (Walk.mk source parent base).key? (i + 1) =
      (Walk.mk source parent base).key? 0 := by
    change ((Walk.mk source parent base).fragment? i).bind _ = _
    rw [hpassed]
    exact hparent
  rcases Nat.lt_or_eq_of_le hi with hlt | rfl
  · exact hclear.distinct 0 (i + 1) (by omega) (by omega) hnext.symm
  · rw [hlast, Option.some.injEq] at hpassed
    rw [← hpassed, Fragment.parentKey?, hend] at hparent
    cases hparent

end Walk

/-- **One more link**: the chain of a fragment that builds on one whose chain is known. The fragment
is kept under its key, or else its key is not in the chain yet. -/
lemma Chain.collect_cons {source : FragmentSource} {bound maxDepth : Nat} {key parent : Path}
    {leaf base : Fragment} {chain : Chain}
    (hchain : Chain.collect source bound parent base = .ok chain)
    (hbase : source parent.normalized = .ok base)
    (hparent : leaf.parentKey? = some parent.normalized) (hdepth : chain.length ≤ maxDepth)
    (hkey : source key.normalized = .ok leaf ∨ key.normalized ∉ chain.keys) :
    Chain.collect source maxDepth key leaf = .ok ((key.normalized, leaf) :: chain) := by
  obtain ⟨d, -, harrives, hlinks⟩ :=
    ((Walk.mk source parent base).collect_eq_ok_iff bound chain).1 hchain
  have hlength : chain.length = d + 1 := by
    simpa using congrArg List.length hlinks
  have hnew : ∀ i ≤ d, (Walk.mk source parent base).key? i ≠ some key.normalized := by
    intro i hi
    rcases hkey with hleaf | hfree
    · exact harrives.key?_ne_of_source hbase hparent hleaf hi
    · intro hsame
      have hmem : ((Walk.mk source parent base).key? i, (Walk.mk source parent base).fragment? i) ∈
          chain.map fun link => (some link.1, some link.2) :=
        hlinks ▸ List.mem_map_of_mem (List.mem_range.2 (by omega))
      obtain ⟨link, hlink, hsplit⟩ := List.mem_map.1 hmem
      have hfirst : link.1 = key.normalized :=
        Option.some.inj ((Prod.mk.inj hsplit).1.trans hsame)
      exact hfree (hfirst ▸ List.mem_map_of_mem hlink)
  refine ((Walk.mk source key leaf).collect_eq_ok_iff maxDepth _).2
    ⟨d + 1, by omega, harrives.succ hparent hbase hnew, ?_⟩
  rw [List.map_cons, hlinks, List.range_succ_eq_map (n := d + 1), List.map_cons, List.map_map]
  refine congrArg₂ _ rfl (List.map_congr_left fun i _ => ?_)
  rw [Function.comp_apply, Walk.key?_succ hparent hbase, Walk.fragment?_succ hparent hbase]

namespace Layers

/-! ## What the link adds -/

/-- **What a lone table becomes when it is merged**: the requests of a code become one, which stands
where the code occurs first and adds up what they have. -/
lemma apply_nil_arrangement (table : List PidEntry) :
    codes (apply [] table) = (codes table).eraseDups ∧
      ∀ entry ∈ apply [] table,
        entry = (ofCode entry.code table).foldl PidEntry.absorb (.blank entry.code) := by
  have hcodes : codes ([] : List PidEntry) = ([] : List String).eraseDups := rfl
  refine ⟨codes_foldl_place hcodes table, fun entry hentry => ?_⟩
  have hnodup : (codes (apply [] table)).Nodup := nodup_codes_apply table List.nodup_nil
  have hrequest := entryOf_of_mem hnodup hentry
  rw [entryOf_apply] at hrequest
  exact hrequest.symm

/-- A request of a new code is put in at the end. -/
lemma place_of_not_mem {table : List PidEntry} {entry : PidEntry} (h : entry.code ∉ codes table) :
    place table entry = table ++ [entry] := by
  induction table with
  | nil => rfl
  | cons first rest ih =>
    obtain ⟨hfirst, hrest⟩ : entry.code ≠ first.code ∧ entry.code ∉ codes rest := by
      simpa [codes] using h
    rw [place_cons, if_neg (Ne.symm hfirst), ih hrest, List.cons_append]

/-- Requests of new codes are put in at the end, one after the other. -/
lemma foldl_place_of_nodup {table entries : List PidEntry} (h : (codes (table ++ entries)).Nodup) :
    entries.foldl place table = table ++ entries := by
  induction entries generalizing table with
  | nil => exact (List.append_nil table).symm
  | cons entry rest ih =>
    have hfree : entry.code ∉ codes table := by
      unfold codes at h
      rw [List.map_append, List.map_cons, List.nodup_append] at h
      exact fun hmem => h.2.2 _ hmem _ List.mem_cons_self rfl
    rw [List.foldl_cons, place_of_not_mem hfree, ih (by simpa using h), List.append_assoc,
      List.singleton_append]

/-- A table that lists no code twice stays as it is when it is merged. -/
lemma apply_nil_of_nodup {table : List PidEntry} (h : (codes table).Nodup) :
    apply [] table = table :=
  foldl_place_of_nodup h

/-- What a chain amounts to that starts with a fragment without a table of its own is, but for that
fragment's other fields, what the rest leaves on top of each other. -/
lemma ofChain?_cons_of_none {leaf : Fragment} (h : leaf.pids = none) (key : Path)
    (link : Path × Fragment) (rest : Chain) :
    Resolution.ofChain? ((key, leaf) :: link :: rest) =
      some { chain := key :: Chain.keys (link :: rest)
             profile :=
              { leaf with pids := some (prune (stack (Chain.fragments (link :: rest)).reverse)) }
             origins := .ofChain (link :: rest) } := by
  have hstack : stack (leaf :: Chain.fragments (link :: rest)).reverse =
      stack (Chain.fragments (link :: rest)).reverse := by
    rw [stack_reverse_cons, h]
    exact apply_nil _
  have horigins : Origins.ofChain ((key, leaf) :: link :: rest) = .ofChain (link :: rest) := by
    have hcredit : Origins.none.credit key leaf = .none := by
      rw [Origins.credit, h]
      rfl
    rw [Origins.ofChain, List.foldl_cons, hcredit, Origins.ofChain]
  rw [← hstack, ← horigins]
  rfl

/-- **What a fragment without a table of its own inherits.** Suppose that a fragment resolves, that
another one builds on it and has no table, and that the depth bound admits its chain. The other
fragment is kept under its own key, or else its key is not in the chain. Then it resolves as well. Its
chain has one more link, and all but the table is its own. Its table and the origins of its parameters
are those of the fragment that it builds on, in the same order,

* if that one builds on another one in turn, or
* if that one lists no code twice.

In the remaining case, a fragment that builds on nothing, the one resolves to its table as it is
written, pruned. What the other inherits is merged before it is pruned: each code occurs once, where
it occurs first, and its request adds up what all requests of the code have, of which the last one
that is set up decides what is sent before.

**Proof sketch.** The walk along the references is the same after one step (`Walk.key?_succ`), so the
chain has one more link (`Chain.collect_cons`). A layer without a table adds nothing
(`ofChain?_cons_of_none`). A chain of two or more fragments was merged already; a lone table is merged
for the first time, which leaves it as it is if no code is repeated (`apply_nil_of_nodup`). -/
theorem alias_inherits {source : FragmentSource} {bound maxDepth : Nat} {key parent : Path}
    {leaf base : Fragment} {own : Resolution}
    (hown : base.resolve source bound parent = .ok own)
    (hbase : source parent.normalized = .ok base)
    (hparent : leaf.parentKey? = some parent.normalized) (hpids : leaf.pids = none)
    (hdepth : own.chain.length ≤ maxDepth)
    (hkey : source key.normalized = .ok leaf ∨ key.normalized ∉ own.chain) :
    ∃ resolution, leaf.resolve source maxDepth key = .ok resolution ∧
      resolution.chain = key.normalized :: own.chain ∧
      resolution.profile = { leaf with pids := resolution.profile.pids } ∧
      resolution.origins = own.origins ∧
      ((base.parent.isSome ∨ ∃ table, base.pids = some table ∧ (codes table).Nodup) →
        resolution.profile.pids = own.profile.pids) ∧
      (base.parent = none → ∀ table, base.pids = some table →
        own.profile.pids = some (prune table) ∧
        ∃ merged, resolution.profile.pids = some (prune merged) ∧
          codes merged = (codes table).eraseDups ∧
          ∀ entry ∈ merged,
            entry = (ofCode entry.code table).foldl PidEntry.absorb (.blank entry.code)) := by
  obtain ⟨chain, hchain, hfound⟩ := Fragment.resolve_eq_ok_iff.1 hown
  obtain ⟨ancestors, rfl, hends⟩ := Chain.exists_of_collect hchain
  obtain ⟨merged, hmerge, rfl⟩ := Option.map_eq_some_iff.1 hfound
  have hlength : ((parent.normalized, base) :: ancestors).length ≤ maxDepth := by
    rwa [Chain.keys, List.length_map] at hdepth
  have hcollect := Chain.collect_cons hchain hbase hparent hlength hkey
  refine ⟨_, Fragment.resolve_eq_ok_iff.2 ⟨_, hcollect, ofChain?_cons_of_none hpids _ _ _⟩,
    rfl, rfl, rfl, ?_⟩
  cases ancestors with
  | cons second rest =>
    cases hmerge
    refine ⟨fun _ => rfl, fun hroot => ?_⟩
    rw [hroot] at hends
    cases hends
  | nil =>
    obtain rfl : base = merged := Option.some.inj hmerge
    refine ⟨?_, fun _ table htable => ⟨congrArg (Option.map prune) htable, apply [] table, ?_,
      apply_nil_arrangement table⟩⟩
    · rintro (hmore | ⟨table, htable, hnodup⟩)
      · obtain ⟨reference, hreference⟩ := Option.isSome_iff_exists.1 hmore
        rw [hreference] at hends
        cases hends
      · change some (prune (apply [] (base.pids.getD []))) = base.pids.map prune
        rw [htable, Option.getD_some, apply_nil_of_nodup hnodup]
        rfl
    · change some (prune (apply [] (base.pids.getD []))) = _
      rw [htable, Option.getD_some]

/-- A fragment that builds on another one and changes its table. -/
def sampleCar : Fragment :=
  { Fragment.empty with
    parent := some "base", pids := some [.ofExpressions "B" [("X", "4"), ("Y", "")]] }

/-- A fragment that asks two control units for the same. -/
def sampleUnits : Fragment :=
  { Fragment.empty with
    pids := some [.of "2101" (some "ATSH7E4") [("SOC", "B4")] [],
      .of "2101" (some "ATSH7C6") [("ODO", "B5")] []] }

/-- Where both are kept. -/
def sampleGarage : FragmentSource := .ofFragments
  [(⟨"base"⟩, { Fragment.empty with
      pids := some [.ofExpressions "A" [("X", "1"), ("Y", "2")], .ofExpressions "B" [("Z", "3")]] }),
    (⟨"car"⟩, sampleCar), (⟨"units"⟩, sampleUnits)]

/-- A fragment that only renames the first of them. -/
def sampleName : Fragment :=
  { Fragment.empty with parent := some "./car" }

/-- What the first of them resolves to. -/
def sampleOwn : Resolution where
  chain := [⟨"car"⟩, ⟨"base"⟩]
  profile := { sampleCar with pids := some [.ofExpressions "B" [("Z", "3"), ("X", "4")]] }
  origins := ⟨[("X", ⟨"car"⟩), ("Y", ⟨"car"⟩), ("Z", ⟨"base"⟩)]⟩

/-- A fragment that renames one with a base of its own has the same table. -/
theorem alias_inherits_sampleOwn :
    ∃ resolution,
      sampleName.resolve sampleGarage 2 ⟨"name"⟩ = .ok resolution ∧
        resolution.chain = [⟨"name"⟩, ⟨"car"⟩, ⟨"base"⟩] ∧
        resolution.profile.pids = sampleOwn.profile.pids := by
  have hown : sampleCar.resolve sampleGarage 16 ⟨"car"⟩ = .ok sampleOwn := by decide +kernel
  have hbase : sampleGarage (Path.mk "car").normalized = .ok sampleCar := by decide +kernel
  have hparent : sampleName.parentKey? = some (Path.mk "car").normalized := by decide +kernel
  have hfree : (Path.mk "name").normalized ∉ sampleOwn.chain := by decide +kernel
  have hdepth : sampleOwn.chain.length ≤ 2 := by decide
  obtain ⟨resolution, hresolve, hchain, -, -, hpids, -⟩ :=
    alias_inherits hown hbase hparent rfl hdepth (.inr hfree)
  refine ⟨resolution, hresolve, ?_, hpids (.inl rfl)⟩
  rw [hchain]
  decide +kernel

/-- **A fragment that renames one with a repeated code need not resolve to the same table**: the two
requests are joined, and what is sent to the first control unit is lost. -/
theorem alias_joins_requests :
    ∃ own resolution,
      sampleUnits.resolve sampleGarage 16 ⟨"units"⟩ = .ok own ∧
        Fragment.resolve sampleGarage 16 ⟨"name"⟩ { Fragment.empty with parent := some "units" } =
          .ok resolution ∧
        own.profile.pids = some [.of "2101" (some "ATSH7E4") [("SOC", "B4")] [],
          .of "2101" (some "ATSH7C6") [("ODO", "B5")] []] ∧
        resolution.profile.pids =
          some [.of "2101" (some "ATSH7C6") [("SOC", "B4"), ("ODO", "B5")] []] ∧
        resolution.profile.pids ≠ own.profile.pids := by
  let origins : Origins := ⟨[("SOC", ⟨"units"⟩), ("ODO", ⟨"units"⟩)]⟩
  let joined : Fragment :=
    { Fragment.empty with
      parent := some "units"
      pids := some [.of "2101" (some "ATSH7C6") [("SOC", "B4"), ("ODO", "B5")] []] }
  refine ⟨⟨[⟨"units"⟩], sampleUnits, origins⟩, ⟨[⟨"name"⟩, ⟨"units"⟩], joined, origins⟩,
    by decide +kernel, by decide +kernel, rfl, rfl, by decide +kernel⟩

end Layers

end LayeredProfiles
