import LayeredProfiles.Fragment.Source

set_option autoImplicit false

/-!
# Chains of fragments

A fragment may name another one that it builds on, which may name a third one, and so on. The chain
of a fragment lists them all with their keys, the fragment itself, the leaf, first. A chain must
not come back to one of its members, and the number of ancestors is bounded.

## Main definitions

* `Chain` — fragments under their keys, the leaf first.
* `Failure.ofAncestor` — what the failure of an ancestor means for the leaf.
* `Chain.climb` — adds the ancestors to a chain.
* `Chain.collect` — the chain of a leaf.

## Implementation notes

What is left of the bound on the number of ancestors is the measure of the recursion. A repeated
key is noticed before the bound, and the bound before the next fragment is looked for.
-/

namespace LayeredProfiles

/-- What the failure of an ancestor means for the leaf that needs it: a document that is no fragment
is no reason to go on without the leaf. -/
def Failure.ofAncestor (leaf ancestor : Path) : Failure → Failure
  | .badFragment _ defect => .badAncestor leaf ancestor defect
  | other => other

/-- Fragments under their keys, the leaf first. -/
abbrev Chain := List (Path × Fragment)

namespace Chain

/-- The keys, the leaf's first. -/
def keys (chain : Chain) : List Path :=
  chain.map Prod.fst

/-- The fragments, the leaf first. -/
def fragments (chain : Chain) : List Fragment :=
  chain.map Prod.snd

/-- Finds an ancestor of a leaf. -/
def ancestor (source : FragmentSource) (leaf key : Path) : Except Failure Fragment :=
  (source key).mapError (Failure.ofAncestor leaf key)

/-- Adds the ancestors to a chain that ends with a fragment of the given parent. So many more
fragments may be looked for. -/
def climb (source : FragmentSource) (leaf : Path) :
    (left : Nat) → Chain → Option String → Except Failure Chain
  | _, chain, none => .ok chain
  | left, chain, some reference =>
    let key := (Path.mk reference).normalized
    if key ∈ chain.keys then .error (.cycle (chain.keys ++ [key]))
    else
      match left with
      | 0 => .error (.tooDeep leaf chain.length (chain.length - 1))
      | left + 1 => do
        let f ← ancestor source leaf key
        climb source leaf left (chain ++ [(key, f)]) f.parent

/-- The chain of a leaf, which may have so many ancestors. -/
def collect (source : FragmentSource) (maxDepth : Nat) (key : Path) (leaf : Fragment) :
    Except Failure Chain :=
  climb source key.normalized maxDepth [(key.normalized, leaf)] leaf.parent

/-- A leaf that builds on nothing is its own chain. -/
theorem collect_of_parent_eq_none (source : FragmentSource) (maxDepth : Nat) (key : Path)
    {leaf : Fragment} (h : leaf.parent = none) :
    collect source maxDepth key leaf = .ok [(key.normalized, leaf)] := by
  unfold collect
  rw [h]
  cases maxDepth <;> rfl

end Chain

end LayeredProfiles
