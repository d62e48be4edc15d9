import LayeredProfiles.Layers.Chain
import LayeredProfiles.Layers.Merge
import LayeredProfiles.Layers.Origins

set_option autoImplicit false

/-!
# Resolving a fragment

A fragment is resolved by collecting its chain, merging the layers and dropping what is disabled.

## Main definitions

* `Resolution` — the chain, the fragment that it amounts to, and where its parameters come from.
* `Resolution.ofChain?` — what a chain amounts to.
* `Fragment.resolve` — resolves a fragment.
-/

namespace LayeredProfiles

/-- What resolving a fragment yields. -/
structure Resolution where
  /-- The keys of the chain, the leaf's first. -/
  chain : List Path
  /-- The fragment that the chain amounts to. -/
  profile : Fragment
  /-- Where its parameters come from. -/
  origins : Origins
deriving DecidableEq, Repr

/-- What a chain amounts to: its merge without what is disabled. An empty chain amounts to nothing. -/
def Resolution.ofChain? (chain : Chain) : Option Resolution :=
  (Layers.merge? chain.fragments).map fun merged =>
    ⟨chain.keys, { merged with pids := merged.pids.map Layers.prune }, .ofChain chain⟩

/-- Resolves a fragment that is kept under a key. -/
def Fragment.resolve (source : FragmentSource) (maxDepth : Nat) (key : Path) (leaf : Fragment) :
    Except Failure Resolution := do
  let chain ← Chain.collect source maxDepth key leaf
  match Resolution.ofChain? chain with
  | some resolution => .ok resolution
  | none => .error (.badFragment key .emptyChain)

end LayeredProfiles
