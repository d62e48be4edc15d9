import LayeredProfiles.Proofs.Chain.Lookups

set_option autoImplicit false

/-!
# How collecting a chain ends

A walk is clear up to a first place where something happens: the fragment there builds on nothing,
the key there was passed before, what the key leads to does not load, or the walk still goes on
beyond the allowed number of ancestors. Exactly these four decide how collecting the chain ends.

## Main definitions

* `Walk.ArrivesAt`, `Walk.ReturnsAt`, `Walk.BreaksAt`, `Walk.LeadsOnAt` — what may happen at a
  place of a walk.

## Main results

* `Walk.exists_end` — within the bound one of the four happens.
* `Walk.collect_outcome` — how collecting ends in each of the four cases, and only there.
-/

namespace LayeredProfiles.Walk

/-- After `d` references the walk is at a fragment that builds on nothing. All fragments up to there
load, and their keys are pairwise distinct. -/
def ArrivesAt (w : Walk) (d : Nat) : Prop :=
  w.Clear (d + 1) ∧ ∃ f, w.fragment? d = some f ∧ f.parent = none

/-- The key after `j` references is the first one that was passed before. All fragments in front of
it load. -/
def ReturnsAt (w : Walk) (j : Nat) : Prop :=
  w.Clear j ∧ ∃ i < j, w.key? i = w.key? j

/-- The key after `j` references is new. All fragments in front of it load, and their keys are
pairwise distinct. -/
def LeadsOnAt (w : Walk) (j : Nat) : Prop :=
  w.Clear j ∧ (w.key? j).isSome ∧ ∀ i < j, w.key? i ≠ w.key? j

/-- The key after `j` references is new, and it is the first one under which no fragment loads. -/
def BreaksAt (w : Walk) (j : Nat) (ancestor : Path) (failure : Failure) : Prop :=
  0 < j ∧ w.LeadsOnAt j ∧ w.key? j = some ancestor ∧ w.source ancestor = .error failure

variable {w : Walk} {maxDepth : Nat}

/-! ## One of four things happens -/

/-- Behind a clear part the walk ends, comes back or leads on. -/
lemma Clear.next {n : Nat} (h : w.Clear (n + 1)) :
    w.ArrivesAt n ∨ w.ReturnsAt (n + 1) ∨ w.LeadsOnAt (n + 1) := by
  obtain ⟨f, hf⟩ := Option.isSome_iff_exists.1 (h.loads n (by omega))
  cases hparent : f.parent with
  | none => exact .inl ⟨h, f, hf, hparent⟩
  | some reference =>
    have hkey : (w.key? (n + 1)).isSome := by
      simp [key?, hf, Fragment.parentKey?, hparent]
    by_cases hold : ∃ i < n + 1, w.key? i = w.key? (n + 1)
    · exact .inr (.inl ⟨h, hold⟩)
    · refine .inr (.inr ⟨h, hkey, fun i hi hsame => hold ⟨i, hi, hsame⟩⟩)

/-- Where the walk leads on, a fragment loads or the walk breaks off. -/
lemma LeadsOnAt.clear_or_breaks {n : Nat} (h : w.LeadsOnAt (n + 1)) :
    w.Clear (n + 2) ∨ ∃ ancestor failure, w.BreaksAt (n + 1) ancestor failure := by
  obtain ⟨hclear, hkey, hnew⟩ := h
  obtain ⟨key, hsome⟩ := Option.isSome_iff_exists.1 hkey
  cases hsource : w.source key with
  | error failure =>
    exact .inr ⟨key, failure, Nat.succ_pos n, ⟨hclear, hkey, hnew⟩, hsome, hsource⟩
  | ok f =>
    have hload : w.fragment? (n + 1) = some f := by
      change (w.key? (n + 1)).bind _ = some f
      rw [hsome]
      simp [hsource, Except.toOption]
    exact .inl (hclear.succ (hload ▸ rfl) hnew)

/-- Up to any place, the walk has ended, come back or broken off, or it is clear. -/
lemma clear_or_stuck (w : Walk) (n : Nat) :
    (∃ d < n, w.ArrivesAt d) ∨ (∃ j ≤ n, w.ReturnsAt j) ∨
      (∃ j ≤ n, ∃ ancestor failure, w.BreaksAt j ancestor failure) ∨ w.Clear (n + 1) := by
  induction n with
  | zero => exact .inr (.inr (.inr w.clear_one))
  | succ n ih =>
    rcases ih with ⟨d, hd, h⟩ | ⟨j, hj, h⟩ | ⟨j, hj, h⟩ | h
    · exact .inl ⟨d, by omega, h⟩
    · exact .inr (.inl ⟨j, by omega, h⟩)
    · exact .inr (.inr (.inl ⟨j, by omega, h⟩))
    · rcases h.next with harrive | hreturn | hlead
      · exact .inl ⟨n, by omega, harrive⟩
      · exact .inr (.inl ⟨n + 1, Nat.le_refl _, hreturn⟩)
      · rcases hlead.clear_or_breaks with hclear | hbreak
        · exact .inr (.inr (.inr hclear))
        · exact .inr (.inr (.inl ⟨n + 1, Nat.le_refl _, hbreak⟩))

/-- Within the bound the walk ends, comes back or breaks off, or it leads on beyond the bound. -/
lemma exists_end (w : Walk) (maxDepth : Nat) :
    (∃ d ≤ maxDepth, w.ArrivesAt d) ∨ (∃ j ≤ maxDepth + 1, w.ReturnsAt j) ∨
      (∃ j ≤ maxDepth, ∃ ancestor failure, w.BreaksAt j ancestor failure) ∨
      w.LeadsOnAt (maxDepth + 1) := by
  rcases w.clear_or_stuck maxDepth with ⟨d, hd, h⟩ | ⟨j, hj, h⟩ | h | h
  · exact .inl ⟨d, by omega, h⟩
  · exact .inr (.inl ⟨j, by omega, h⟩)
  · exact .inr (.inr (.inl h))
  · rcases h.next with harrive | hreturn | hlead
    · exact .inl ⟨maxDepth, Nat.le_refl _, harrive⟩
    · exact .inr (.inl ⟨maxDepth + 1, Nat.le_refl _, hreturn⟩)
    · exact .inr (.inr (.inr hlead))

/-! ## What each of them means -/

/-- Where the walk ends, the chain is complete. -/
lemma collect_of_arrivesAt {d : Nat} (h : w.ArrivesAt d) (hd : d ≤ maxDepth) :
    Chain.collect w.source maxDepth w.key w.leaf = .ok (w.chain (d + 1)) := by
  obtain ⟨hclear, f, hf, hend⟩ := h
  rw [collect_eq_climb hclear hd hf, hend, climb_none]

/-- The climb stands in front of the next key of a clear walk. -/
lemma collect_eq_climb_to {n : Nat} {key : Path} (h : w.Clear (n + 1)) (hn : n ≤ maxDepth)
    (hkey : w.key? (n + 1) = some key) :
    ∃ f : Fragment, f.parentKey? = some key ∧
      Chain.collect w.source maxDepth w.key w.leaf =
        Chain.climb w.source w.key.normalized (maxDepth - n) (w.chain (n + 1)) f.parent := by
  obtain ⟨f, hf, hparent⟩ := exists_fragment_of_key? hkey
  exact ⟨f, hparent, collect_eq_climb h hn hf⟩

/-- Where the walk comes back, a cycle is reported. -/
lemma collect_of_returnsAt {j : Nat} (h : w.ReturnsAt j) (hj : j ≤ maxDepth + 1) :
    Chain.collect w.source maxDepth w.key w.leaf = .error (.cycle (w.keys (j + 1))) := by
  obtain ⟨hclear, i, hij, hsame⟩ := h
  obtain ⟨n, rfl⟩ : ∃ n, j = n + 1 := ⟨j - 1, by omega⟩
  obtain ⟨key, hold⟩ := Option.isSome_iff_exists.1 (key?_isSome (hclear.loads i hij))
  have hkey : w.key? (n + 1) = some key := hsame ▸ hold
  obtain ⟨f, hparent, hclimb⟩ := collect_eq_climb_to hclear (Nat.le_of_succ_le_succ hj) hkey
  have hmem : key ∈ (w.chain (n + 1)).keys := by
    rw [keys_chain hclear, mem_keys]
    exact ⟨i, hij, hold⟩
  rw [hclimb, climb_of_parentKey? hparent, if_pos hmem, keys_chain hclear, ← keys_succ hkey]

/-- Where the walk leads on beyond the bound, this is reported. -/
lemma collect_of_leadsOnAt (h : w.LeadsOnAt (maxDepth + 1)) :
    Chain.collect w.source maxDepth w.key w.leaf =
      .error (.tooDeep w.key.normalized (maxDepth + 1) maxDepth) := by
  obtain ⟨key, hkey⟩ := Option.isSome_iff_exists.1 h.2.1
  obtain ⟨f, hparent, hclimb⟩ := collect_eq_climb_to h.1 (Nat.le_refl maxDepth) hkey
  have hlength : (w.chain (maxDepth + 1)).length = maxDepth + 1 := by
    have hkeys := congrArg List.length (keys_chain h.1)
    rwa [length_keys h.1, Chain.keys, List.length_map] at hkeys
  rw [hclimb, climb_of_parentKey? hparent, if_neg (h.1.not_mem_keys hkey h.2.2), Nat.sub_self, hlength]
  rfl

/-- Where the walk breaks off, the failure is reported as one of an ancestor. -/
lemma collect_of_breaksAt {j : Nat} {ancestor : Path} {failure : Failure}
    (h : w.BreaksAt j ancestor failure) (hj : j ≤ maxDepth) :
    Chain.collect w.source maxDepth w.key w.leaf =
      .error (failure.ofAncestor w.key.normalized ancestor) := by
  obtain ⟨hpos, hlead, hkey, hsource⟩ := h
  obtain ⟨n, rfl⟩ : ∃ n, j = n + 1 := ⟨j - 1, by omega⟩
  obtain ⟨f, hparent, hclimb⟩ := collect_eq_climb_to hlead.1 (show n ≤ maxDepth by omega) hkey
  rw [hclimb, climb_of_parentKey? hparent, if_neg (hlead.1.not_mem_keys hkey hlead.2.2),
    show maxDepth - n = maxDepth - (n + 1) + 1 by omega]
  simp only [Chain.ancestor, hsource]
  rfl

/-! ## The whole -/

/-- The links of the walk up to its end are those that make up the chain. -/
lemma ArrivesAt.eq_chain_iff {d : Nat} (h : w.ArrivesAt d) (chain : Chain) :
    chain = w.chain (d + 1) ↔ chain.map (fun link => (some link.1, some link.2)) =
      (List.range (d + 1)).map fun i => (w.key? i, w.fragment? i) := by
  have hinj : Function.Injective fun link : Path × Fragment => (some link.1, some link.2) := by
    rintro ⟨k, f⟩ ⟨k', f'⟩ hsame
    simpa using hsame
  rw [← map_some_chain h.1]
  exact ⟨fun hsame => hsame ▸ rfl, fun hsame => List.map_injective_iff.2 hinj hsame⟩

/-- The keys up to the one that was passed before are those that are reported. -/
lemma ReturnsAt.eq_keys_iff {j : Nat} (h : w.ReturnsAt j) (passed : List Path) :
    passed = w.keys (j + 1) ↔ passed.map some = (List.range (j + 1)).map w.key? := by
  obtain ⟨hclear, i, hij, hsame⟩ := h
  have hkey : (w.key? j).isSome := hsame ▸ key?_isSome (hclear.loads i hij)
  rw [← map_some_keys hclear (.inr ⟨rfl, hkey⟩)]
  exact ⟨fun hsame => hsame ▸ rfl, fun hsame =>
    List.map_injective_iff.2 (fun _ _ => Option.some.inj) hsame⟩

/-- A chain is collected exactly where the walk arrives within the bound. -/
lemma collect_eq_ok_iff (w : Walk) (maxDepth : Nat) (chain : Chain) :
    Chain.collect w.source maxDepth w.key w.leaf = .ok chain ↔
      ∃ d ≤ maxDepth, w.ArrivesAt d ∧ chain.map (fun link => (some link.1, some link.2)) =
        (List.range (d + 1)).map fun i => (w.key? i, w.fragment? i) := by
  constructor
  · intro hok
    rcases w.exists_end maxDepth with ⟨d, hd, h⟩ | ⟨j, hj, h⟩ | ⟨j, hj, _, _, h⟩ | h
    · rw [collect_of_arrivesAt h hd] at hok
      exact ⟨d, hd, h, (h.eq_chain_iff chain).1 (Except.ok.inj hok).symm⟩
    · rw [collect_of_returnsAt h hj] at hok
      cases hok
    · rw [collect_of_breaksAt h hj] at hok
      cases hok
    · rw [collect_of_leadsOnAt h] at hok
      cases hok
  · rintro ⟨d, hd, h, hchain⟩
    rw [(h.eq_chain_iff chain).2 hchain]
    exact collect_of_arrivesAt h hd

/-- A failure is reported exactly where the walk comes back, leads on beyond the bound or breaks
off. -/
lemma collect_eq_error_iff (w : Walk) (maxDepth : Nat) (failure : Failure) :
    Chain.collect w.source maxDepth w.key w.leaf = .error failure ↔
      (∃ j ≤ maxDepth + 1, w.ReturnsAt j ∧ ∃ passed : List Path,
        passed.map some = (List.range (j + 1)).map w.key? ∧ failure = .cycle passed) ∨
      (w.LeadsOnAt (maxDepth + 1) ∧
        failure = .tooDeep w.key.normalized (maxDepth + 1) maxDepth) ∨
      (∃ j ≤ maxDepth, ∃ ancestor reason, w.BreaksAt j ancestor reason ∧
        failure = reason.ofAncestor w.key.normalized ancestor) := by
  constructor
  · intro herror
    rcases w.exists_end maxDepth with ⟨d, hd, h⟩ | ⟨j, hj, h⟩ | ⟨j, hj, ancestor, reason, h⟩ | h
    · rw [collect_of_arrivesAt h hd] at herror
      cases herror
    · rw [collect_of_returnsAt h hj] at herror
      exact .inl ⟨j, hj, h, _, (h.eq_keys_iff _).1 rfl, (Except.error.inj herror).symm⟩
    · rw [collect_of_breaksAt h hj] at herror
      exact .inr (.inr ⟨j, hj, ancestor, reason, h, (Except.error.inj herror).symm⟩)
    · rw [collect_of_leadsOnAt h] at herror
      exact .inr (.inl ⟨h, (Except.error.inj herror).symm⟩)
  · rintro (⟨j, hj, h, passed, hpassed, rfl⟩ | ⟨h, rfl⟩ | ⟨j, hj, ancestor, reason, h, rfl⟩)
    · rw [(h.eq_keys_iff passed).2 hpassed]
      exact collect_of_returnsAt h hj
    · exact collect_of_leadsOnAt h
    · exact collect_of_breaksAt h hj

/-- A cycle is the failure of an ancestor only if the source itself reports one. -/
lemma ofAncestor_eq_cycle_iff {leaf ancestor : Path} {reason : Failure} {passed : List Path} :
    reason.ofAncestor leaf ancestor = .cycle passed ↔ reason = .cycle passed := by
  cases reason <;> simp [Failure.ofAncestor]

/-- Excessive depth is the failure of an ancestor only if the source itself reports it. -/
lemma ofAncestor_eq_tooDeep_iff {leaf ancestor key : Path} {reason : Failure} {depth bound : Nat} :
    reason.ofAncestor leaf ancestor = .tooDeep key depth bound ↔
      reason = .tooDeep key depth bound := by
  cases reason <;> simp [Failure.ofAncestor]

/-- **How collecting a chain ends**, for any source, even one on which the walk never ends. At most
as many fragments are looked for as there may be ancestors. A chain is collected exactly if the walk
arrives within the bound, and it holds the keys and fragments of the walk up to there. A cycle is
reported exactly if the walk comes back at one of the first `maxDepth + 1` references, with the keys
up to the repeated one. Excessive depth is reported exactly if the keys up to the one behind the
bound are new and all fragments in front of it load. Otherwise the first fragment that does not
load decides: a document that is no fragment counts as a bad ancestor of the leaf, every other
failure is passed on.

**Proof sketch.** While the walk is clear, collecting follows it (`collect_eq_climb`), so each of
the four places where a clear part may end has its own outcome. One of them lies within the bound
(`exists_end`), and the outcome tells which. A source may itself report a cycle or excessive depth,
which is then passed on like any other failure. -/
theorem collect_outcome (w : Walk) (maxDepth : Nat) :
    (∃ asked : List Path, asked.length ≤ maxDepth ∧
      ∀ other : FragmentSource, (∀ key ∈ asked, other key = w.source key) →
        Chain.collect other maxDepth w.key w.leaf =
          Chain.collect w.source maxDepth w.key w.leaf) ∧
    (∀ chain, Chain.collect w.source maxDepth w.key w.leaf = .ok chain ↔
      ∃ d ≤ maxDepth, w.ArrivesAt d ∧ chain.map (fun link => (some link.1, some link.2)) =
        (List.range (d + 1)).map fun i => (w.key? i, w.fragment? i)) ∧
    (∀ failure, Chain.collect w.source maxDepth w.key w.leaf = .error failure ↔
      (∃ j ≤ maxDepth + 1, w.ReturnsAt j ∧ ∃ passed : List Path,
        passed.map some = (List.range (j + 1)).map w.key? ∧ failure = .cycle passed) ∨
      (w.LeadsOnAt (maxDepth + 1) ∧
        failure = .tooDeep w.key.normalized (maxDepth + 1) maxDepth) ∨
      (∃ j ≤ maxDepth, ∃ ancestor reason, w.BreaksAt j ancestor reason ∧
        failure = reason.ofAncestor w.key.normalized ancestor)) ∧
    (∀ passed, (∀ key, w.source key ≠ .error (.cycle passed)) →
      (Chain.collect w.source maxDepth w.key w.leaf = .error (.cycle passed) ↔
        ∃ j ≤ maxDepth + 1, w.ReturnsAt j ∧
          passed.map some = (List.range (j + 1)).map w.key?)) ∧
    (∀ leaf depth bound, (∀ key, w.source key ≠ .error (.tooDeep leaf depth bound)) →
      (Chain.collect w.source maxDepth w.key w.leaf = .error (.tooDeep leaf depth bound) ↔
        w.LeadsOnAt (maxDepth + 1) ∧
          leaf = w.key.normalized ∧ depth = maxDepth + 1 ∧ bound = maxDepth)) ∧
    (∀ passed, (Failure.cycle passed).message =
      "Cyclic inheritance detected: " ++ " -> ".intercalate (passed.map Path.text)) := by
  refine ⟨⟨Chain.lookups w.source maxDepth [w.key.normalized] w.leaf.parent, ?_, ?_⟩,
    w.collect_eq_ok_iff maxDepth, w.collect_eq_error_iff maxDepth, ?_, ?_, fun _ => rfl⟩
  · exact Chain.length_lookups_le _ _ _ _
  · exact fun other h => Chain.collect_congr maxDepth w.key w.leaf h
  · intro passed hsource
    rw [collect_eq_error_iff]
    constructor
    · rintro (⟨j, hj, h, _, hkeys, hsame⟩ | ⟨_, hsame⟩ | ⟨j, hj, ancestor, reason, h, hsame⟩)
      · cases hsame
        exact ⟨j, hj, h, hkeys⟩
      · cases hsame
      · rw [eq_comm, ofAncestor_eq_cycle_iff] at hsame
        exact absurd (hsame ▸ h.2.2.2) (hsource ancestor)
    · rintro ⟨j, hj, h, hkeys⟩
      exact .inl ⟨j, hj, h, passed, hkeys, rfl⟩
  · intro leaf depth bound hsource
    rw [collect_eq_error_iff]
    constructor
    · rintro (⟨j, hj, h, _, hkeys, hsame⟩ | ⟨h, hsame⟩ | ⟨j, hj, ancestor, reason, h, hsame⟩)
      · cases hsame
      · cases hsame
        exact ⟨h, rfl, rfl, rfl⟩
      · rw [eq_comm, ofAncestor_eq_tooDeep_iff] at hsame
        exact absurd (hsame ▸ h.2.2.2) (hsource ancestor)
    · rintro ⟨h, rfl, rfl, rfl⟩
      exact .inr (.inl ⟨h, rfl⟩)

/-- A walk through two fragments that build on each other. -/
def circular : Walk where
  source := .ofFragments [(⟨"a"⟩, { Fragment.empty with parent := some "b" }),
    (⟨"b"⟩, { Fragment.empty with parent := some "./a" })]
  key := ⟨"a"⟩
  leaf := { Fragment.empty with parent := some "b" }

/-- A source that keeps given fragments does not report cycles itself. -/
lemma ofFragments_ne_cycle (entries : List (Path × Fragment)) (key : Path) (passed : List Path) :
    FragmentSource.ofFragments entries key ≠ .error (.cycle passed) := by
  unfold FragmentSource.ofFragments FragmentSource.find
  split <;> simp

/-- Coming back right behind the bound is reported as a cycle, not as excessive depth. -/
theorem collect_outcome_circular :
    circular.ReturnsAt 2 ∧
      Chain.collect circular.source 1 circular.key circular.leaf =
        .error (.cycle [⟨"a"⟩, ⟨"b"⟩, ⟨"a"⟩]) := by
  have hkeys : (List.range 3).map circular.key? = [some ⟨"a"⟩, some ⟨"b"⟩, some ⟨"a"⟩] := by
    decide +kernel
  have hclear : circular.Clear 2 := by
    refine ⟨by decide +kernel, fun i j hij hj => ?_⟩
    obtain ⟨rfl, rfl⟩ : i = 0 ∧ j = 1 := by omega
    decide +kernel
  have hreturns : circular.ReturnsAt 2 := ⟨hclear, 0, by omega, by decide +kernel⟩
  refine ⟨hreturns, ?_⟩
  have hsource : ∀ key, circular.source key ≠ .error (.cycle [⟨"a"⟩, ⟨"b"⟩, ⟨"a"⟩]) := by
    intro key
    dsimp only [circular]
    exact ofFragments_ne_cycle _ key _
  exact ((collect_outcome circular 1).2.2.2.1 _ hsource).2
    ⟨2, Nat.le_refl 2, hreturns, hkeys.symm⟩

end LayeredProfiles.Walk
