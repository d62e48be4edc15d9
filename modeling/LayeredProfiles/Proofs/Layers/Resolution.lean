import LayeredProfiles.Layers.Resolution
import LayeredProfiles.Proofs.Chain.Outcome
import LayeredProfiles.Proofs.Steps

set_option autoImplicit false

/-!
# What resolving a fragment yields

A chain always starts with its leaf, so there is something to merge, and resolving fails exactly
where collecting the chain does. No such failure is a reason to go on without the fragment: what is
wrong with an ancestor is reported as the failure of an ancestor.

## Main results

* `Chain.exists_of_collect` — the shape of a chain.
* `Chain.exists_source_of_collect` — whatever its leaf builds on loads.
* `Fragment.resolve_eq_ok_iff`, `Fragment.resolve_eq_error_iff` — how resolving ends.
* `Fragment.pids_isNone_of_resolve` — which fragments resolve to one without a table of requests.
* `Fragment.isRecoverable_of_resolve` — no failure concerns the fragment only.
-/

namespace LayeredProfiles

namespace Chain

variable {source : FragmentSource}

/-- A climb adds ancestors to a chain, and at least one if the chain has a parent to go on with. -/
lemma exists_of_climb {leaf : Path} {left : Nat} {chain result : Chain} {parent : Option String}
    (h : climb source leaf left chain parent = .ok result) :
    ∃ ancestors, result = chain ++ ancestors ∧ ancestors.isEmpty = parent.isNone := by
  fun_induction climb source leaf left chain parent with
  | case1 left chain => exact ⟨[], by rw [List.append_nil, Except.ok.inj h], rfl⟩
  | case2 => cases h
  | case3 => cases h
  | case4 chain reference key hnew left ih =>
    obtain ⟨f, -, hrest⟩ := Steps.bind_eq_ok_iff.1 h
    obtain ⟨more, rfl, -⟩ := ih f hrest
    exact ⟨_ :: more, List.append_assoc _ _ _, rfl⟩

/-- A chain starts with its leaf, and it ends there exactly if the leaf builds on nothing. -/
lemma exists_of_collect {maxDepth : Nat} {key : Path} {leaf : Fragment} {chain : Chain}
    (h : collect source maxDepth key leaf = .ok chain) :
    ∃ ancestors, chain = (key.normalized, leaf) :: ancestors ∧
      ancestors.isEmpty = leaf.parent.isNone :=
  exists_of_climb h

/-- A failure to collect a chain is no reason to go on without the leaf. -/
lemma isRecoverable_of_collect {maxDepth : Nat} {key : Path} {leaf : Fragment} {failure : Failure}
    (h : collect source maxDepth key leaf = .error failure) : failure.isRecoverable = false := by
  rcases ((Walk.mk source key leaf).collect_eq_error_iff maxDepth failure).1 h with
    ⟨_, _, _, _, _, rfl⟩ | ⟨_, rfl⟩ | ⟨_, _, _, reason, _, rfl⟩
  · rfl
  · rfl
  · cases reason <;> rfl

/-- A chain is collected only if everything that its leaf builds on loads. -/
lemma exists_source_of_collect {maxDepth : Nat} {key : Path} {leaf : Fragment} {chain : Chain}
    (h : collect source maxDepth key leaf = .ok chain) {i : Nat} {ancestor : Path}
    (hkey : (Walk.mk source key leaf).key? (i + 1) = some ancestor) :
    ∃ f, source ancestor = .ok f := by
  obtain ⟨d, -, ⟨hclear, last, hlast, hend⟩, -⟩ :=
    ((Walk.mk source key leaf).collect_eq_ok_iff maxDepth chain).1 h
  have hpassed : i + 1 ≤ d := by
    by_contra hbeyond
    rw [Walk.key?_eq_none_of_lt hlast hend (by omega)] at hkey
    cases hkey
  obtain ⟨f, hf⟩ := Option.isSome_iff_exists.1 (hclear.loads (i + 1) (by omega))
  obtain ⟨found, hfound, hload⟩ := Walk.exists_key_of_fragment? hf
  rw [hkey, Option.some.injEq] at hfound
  exact ⟨f, hfound ▸ hload⟩

end Chain

/-- What a chain amounts to has a table of requests unless the chain is a lone leaf without one. -/
lemma Resolution.exists_ofChain? (key : Path) (leaf : Fragment) (ancestors : Chain) :
    ∃ resolution, Resolution.ofChain? ((key, leaf) :: ancestors) = some resolution ∧
      resolution.profile.pids.isNone = (ancestors.isEmpty && leaf.pids.isNone) := by
  cases ancestors with
  | nil => exact ⟨_, rfl, by simp⟩
  | cons second rest => exact ⟨_, rfl, rfl⟩

namespace Fragment

variable {source : FragmentSource} {maxDepth : Nat} {key : Path} {leaf : Fragment}

/-- A fragment is resolved if its chain is collected. -/
lemma resolve_eq_ok_iff {resolution : Resolution} :
    leaf.resolve source maxDepth key = .ok resolution ↔
      ∃ chain, Chain.collect source maxDepth key leaf = .ok chain ∧
        Resolution.ofChain? chain = some resolution := by
  unfold resolve
  rw [Steps.bind_eq_ok_iff]
  constructor
  · rintro ⟨chain, hchain, hmatch⟩
    refine ⟨chain, hchain, ?_⟩
    split at hmatch
    · next found hfound => rw [hfound, Except.ok.inj hmatch]
    · cases hmatch
  · rintro ⟨chain, hchain, hfound⟩
    exact ⟨chain, hchain, by rw [hfound]⟩

/-- Resolving fails only if collecting the chain does. -/
lemma resolve_eq_error_iff {failure : Failure} :
    leaf.resolve source maxDepth key = .error failure ↔
      Chain.collect source maxDepth key leaf = .error failure := by
  unfold resolve
  rw [Steps.bind_eq_error_iff]
  constructor
  · rintro (hcollect | ⟨chain, hchain, hmatch⟩)
    · exact hcollect
    · obtain ⟨ancestors, rfl, -⟩ := Chain.exists_of_collect hchain
      obtain ⟨resolution, hfound, -⟩ :=
        Resolution.exists_ofChain? key.normalized leaf ancestors
      rw [hfound] at hmatch
      cases hmatch
  · exact .inl

/-- A fragment resolves to one without a table of requests exactly if it has none itself and builds
on nothing. -/
lemma pids_isNone_of_resolve {resolution : Resolution}
    (h : leaf.resolve source maxDepth key = .ok resolution) :
    resolution.profile.pids.isNone = (leaf.parent.isNone && leaf.pids.isNone) := by
  obtain ⟨chain, hchain, hfound⟩ := resolve_eq_ok_iff.1 h
  obtain ⟨ancestors, rfl, hparent⟩ := Chain.exists_of_collect hchain
  obtain ⟨found, hsome, hpids⟩ := Resolution.exists_ofChain? key.normalized leaf ancestors
  rw [hfound, Option.some.injEq] at hsome
  rw [hsome, hpids, hparent]

/-- Resolving fails only if the fragment builds on another one, and never for a reason to go on
without it. -/
lemma isRecoverable_of_resolve {failure : Failure}
    (h : leaf.resolve source maxDepth key = .error failure) :
    leaf.parent.isNone = false ∧ failure.isRecoverable = false := by
  rw [resolve_eq_error_iff] at h
  refine ⟨?_, Chain.isRecoverable_of_collect h⟩
  cases hparent : leaf.parent with
  | none =>
    rw [Chain.collect_of_parent_eq_none source maxDepth key hparent] at h
    cases h
  | some reference => rfl

end Fragment

end LayeredProfiles
