import LayeredProfiles.Fragment.Basic

set_option autoImplicit false

/-!
# Merging layers

The tables of requests of a chain of fragments are put on top of each other, the base first. A
layer that names a parameter takes it over: the parameter is removed from wherever it was, and
stands where the layer puts it. Requests of the same code become one. Only at the very end the
parameters with an empty expression are dropped, and the requests that are left without any.

## Main definitions

* `PidEntry.absorb` — a request with what another one of the same code adds.
* `PidEntry.keep` — a request with some of its parameters.
* `Layers.place` — puts a request into a table.
* `Layers.apply` — puts a layer on top of a table.
* `Layers.merge?` — the fragment that a chain amounts to.
* `Layers.prune` — a table without what is disabled.
-/

namespace LayeredProfiles

/-- A request with what another one of the same code adds to it. -/
def PidEntry.absorb (entry more : PidEntry) : PidEntry where
  code := entry.code
  setup := more.setup.or entry.setup
  parameters := OrderedMap.extend entry.parameters more.parameters
  extra := OrderedMap.extend entry.extra more.extra
  parameters_unique := OrderedMap.uniqueKeys_extend entry.parameters_unique more.parameters
  extra_unique := OrderedMap.uniqueKeys_extend entry.extra_unique more.extra

/-- A request with those parameters only that a test lets through. -/
def PidEntry.keep (test : String × String → Bool) (entry : PidEntry) : PidEntry :=
  { entry with
    parameters := entry.parameters.filter test
    parameters_unique := OrderedMap.uniqueKeys_filter entry.parameters_unique test }

namespace Layers

/-- The names of the parameters in a table. -/
def parameterNames (table : List PidEntry) : List String :=
  table.flatMap fun entry => OrderedMap.keys entry.parameters

/-- A request without the given parameters. -/
def withoutNames (names : List String) (entry : PidEntry) : PidEntry :=
  entry.keep fun p => !names.contains p.1

/-- Puts a request into a table: into the first request of its code, or at the end. -/
def place : (table : List PidEntry) → PidEntry → List PidEntry
  | [], entry => [entry]
  | first :: rest, entry =>
    if first.code = entry.code then first.absorb entry :: rest else first :: place rest entry

/-- Puts a layer on top of a table. -/
def apply (table layer : List PidEntry) : List PidEntry :=
  layer.foldl place (table.map (withoutNames (parameterNames layer)))

/-- A request without its disabled parameters. -/
def pruneEntry (entry : PidEntry) : PidEntry :=
  entry.keep fun p => p.2 ≠ ""

/-- A table without disabled parameters and without requests that carry none. -/
def prune (table : List PidEntry) : List PidEntry :=
  (table.map pruneEntry).filter fun entry => !entry.parameters.isEmpty

/-- Puts layers, the base first, on top of each other. A layer without a table adds nothing. -/
def stack (layers : List Fragment) : List PidEntry :=
  layers.foldl (fun table layer => apply table (layer.pids.getD [])) []

/-- The fragment that a chain amounts to, the leaf first. All but the table is the leaf's. -/
def merge? : (chain : List Fragment) → Option Fragment
  | [] => none
  | [leaf] => some leaf
  | leaf :: ancestors => some { leaf with pids := some (stack (leaf :: ancestors).reverse) }

/-- A layer that is empty changes nothing. -/
theorem apply_nil (table : List PidEntry) : apply table [] = table := by
  have keep : withoutNames [] = id := by
    funext entry
    simp [withoutNames, PidEntry.keep, List.filter_eq_self.2]
  simp [apply, parameterNames, keep]

end Layers

end LayeredProfiles
