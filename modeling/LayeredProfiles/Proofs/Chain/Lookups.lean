import LayeredProfiles.Proofs.Chain.Walk
import LayeredProfiles.Proofs.Steps

set_option autoImplicit false

/-!
# What collecting a chain looks for

Collecting a chain asks for fragments under some keys. Sources that agree on these keys yield the
same chain or the same failure, whatever they hold elsewhere.

## Main definitions

* `Chain.lookups` — the keys that collecting asks for, in order.

## Main results

* `Chain.length_lookups_le` — there are at most as many as a chain may have ancestors.
* `Chain.collect_congr` — nothing but what is found under them matters.
* `Chain.exists_lookups_of_collect` — the ancestors in a chain are what is found under them.
-/

namespace LayeredProfiles.Chain

/-- The keys under which fragments are looked for in a climb, given how many may still be looked for
and the keys that were passed. -/
def lookups (source : FragmentSource) : (left : Nat) → (passed : List Path) → Option String → List Path
  | _, _, none => []
  | 0, _, some _ => []
  | left + 1, passed, some reference =>
    let key := (Path.mk reference).normalized
    if key ∈ passed then []
    else
      match source key with
      | .error _ => [key]
      | .ok f => key :: lookups source left (passed ++ [key]) f.parent

/-- No more fragments are looked for than allowed. -/
lemma length_lookups_le (source : FragmentSource) (left : Nat) (passed : List Path)
    (parent : Option String) : (lookups source left passed parent).length ≤ left := by
  induction left generalizing passed parent with
  | zero => cases parent <;> simp [lookups]
  | succ left ih =>
    cases parent with
    | none => simp [lookups]
    | some reference =>
      unfold lookups
      dsimp only
      split
      · simp
      · split
        · simp
        · next f _ =>
          have := ih (passed ++ [(Path.mk reference).normalized]) f.parent
          simp only [List.length_cons]
          omega

/-- A climb yields the same with any source that agrees where it looks. -/
lemma climb_congr {source other : FragmentSource} (leaf : Path) (left : Nat) (chain : Chain)
    (parent : Option String)
    (h : ∀ key ∈ lookups source left chain.keys parent, other key = source key) :
    climb other leaf left chain parent = climb source leaf left chain parent := by
  induction left generalizing chain parent with
  | zero => cases parent <;> rfl
  | succ left ih =>
    cases parent with
    | none => rfl
    | some reference =>
      unfold climb
      dsimp only
      split
      · rfl
      · next hnew =>
        have hlook : lookups source (left + 1) chain.keys (some reference) =
            match source (Path.mk reference).normalized with
            | .error _ => [(Path.mk reference).normalized]
            | .ok f => (Path.mk reference).normalized ::
                lookups source left (chain.keys ++ [(Path.mk reference).normalized]) f.parent := by
          rw [lookups, if_neg hnew]
        rw [hlook] at h
        unfold ancestor
        cases hsource : source (Path.mk reference).normalized with
        | error failure =>
          rw [hsource] at h
          rw [h _ (by simp), hsource]
          rfl
        | ok f =>
          rw [hsource] at h
          rw [h _ (by simp), hsource]
          refine ih (chain ++ [((Path.mk reference).normalized, f)]) f.parent fun key hkey => ?_
          refine h key (List.mem_cons_of_mem _ ?_)
          simpa [keys] using hkey

/-- **Only what is looked for matters**: collecting a chain yields the same with any source that
agrees on the keys under which fragments are looked for. -/
theorem collect_congr {source other : FragmentSource} (maxDepth : Nat) (key : Path) (leaf : Fragment)
    (h : ∀ k ∈ lookups source maxDepth [key.normalized] leaf.parent, other k = source k) :
    collect other maxDepth key leaf = collect source maxDepth key leaf :=
  climb_congr key.normalized maxDepth [(key.normalized, leaf)] leaf.parent h

/-- A climb that succeeds adds the fragments that it finds where it looks, in that order. -/
lemma exists_lookups_of_climb {source : FragmentSource} {leaf : Path} {left : Nat}
    {chain result : Chain} {parent : Option String}
    (h : climb source leaf left chain parent = .ok result) :
    ∃ ancestors : Chain, result = chain ++ ancestors ∧
      ancestors.keys = lookups source left chain.keys parent ∧
      ∀ link ∈ ancestors, source link.1 = .ok link.2 := by
  fun_induction climb source leaf left chain parent with
  | case1 left chain =>
    refine ⟨[], by rw [List.append_nil, Except.ok.inj h], ?_, by simp⟩
    cases left <;> rfl
  | case2 => cases h
  | case3 => cases h
  | case4 chain reference key hnew left ih =>
    obtain ⟨f, hancestor, hrest⟩ := Steps.bind_eq_ok_iff.1 h
    have hsource : source key = .ok f := Steps.mapError_eq_ok_iff.1 hancestor
    obtain ⟨more, rfl, hkeys, hmore⟩ := ih f hrest
    refine ⟨(key, f) :: more, List.append_assoc _ _ _, ?_, List.forall_mem_cons.2 ⟨hsource, hmore⟩⟩
    have hpassed : keys (chain ++ [(key, f)]) = chain.keys ++ [key] := List.map_append
    rw [hpassed] at hkeys
    rw [lookups, if_neg hnew, show source (Path.mk reference).normalized = .ok f from hsource]
    exact congrArg (key :: ·) hkeys

/-- A chain that is collected consists of its leaf and of what is found under the keys that are
looked for, in that order. -/
lemma exists_lookups_of_collect {source : FragmentSource} {maxDepth : Nat} {key : Path}
    {leaf : Fragment} {chain : Chain} (h : collect source maxDepth key leaf = .ok chain) :
    ∃ ancestors : Chain, chain = (key.normalized, leaf) :: ancestors ∧
      ancestors.keys = lookups source maxDepth [key.normalized] leaf.parent ∧
      ∀ link ∈ ancestors, source link.1 = .ok link.2 :=
  exists_lookups_of_climb h

end LayeredProfiles.Chain
