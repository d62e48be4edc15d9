import LayeredProfiles.Fragment.Basic
import LayeredProfiles.Layers.Merge
import LayeredProfiles.Path.Basic

set_option autoImplicit false

/-!
# Where parameters come from

Of all the fragments of a chain that name a parameter, the one nearest the leaf decides its
expression. It is the origin of the parameter, against which errors are reported.

## Main definitions

* `Origins` — the fragment that each parameter comes from.
* `Origins.ofChain` — the origins in a chain.
-/

namespace LayeredProfiles

/-- The fragment that each parameter comes from. -/
structure Origins where
  /-- The keys of the fragments, by parameter. -/
  byName : OrderedMap String Path
deriving DecidableEq, Repr

namespace Origins

/-- No parameter has an origin. -/
def none : Origins := ⟨[]⟩

/-- The fragment that a parameter comes from. -/
def of? (origins : Origins) (name : String) : Option Path :=
  OrderedMap.get? origins.byName name

/-- Credits the parameters of a fragment to it, unless another one has the credit already. -/
def credit (origins : Origins) (key : Path) (f : Fragment) : Origins :=
  ⟨(Layers.parameterNames (f.pids.getD [])).foldl
    (fun byName name => OrderedMap.insertIfNew byName name key) origins.byName⟩

/-- The origins in a chain of fragments under their keys, the leaf first. -/
def ofChain (chain : List (Path × Fragment)) : Origins :=
  chain.foldl (fun origins link => origins.credit link.1 link.2) none

end Origins

end LayeredProfiles
