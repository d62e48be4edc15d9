import LayeredProfiles.Path.Basic

set_option autoImplicit false

/-!
# Normalized paths

Two paths that differ in dots only name the same thing below a directory. Their normalized form is
a plain list of names: dots and a leading slash are dropped, and two dots take the name in front of
them away. Two dots with no name in front take nothing away, so that the normalized form never
leads out of the directory it is seen from.

## Main definitions

* `Path.foldComponent` — what one component does to the names read so far.
* `Path.names` — the names that are left of a path.
* `Path.normalized` — the path of these names.

## Main results

* `Path.foldNames_append` — folding goes from left to right.
* `Path.names_eq_of_components` — a path that consists of names keeps them all.
-/

namespace LayeredProfiles.Path

/-- What a component does to the names in front of it, of which the nearest comes first. -/
def foldComponent (stack : List String) : Component → List String
  | .root | .current => stack
  | .parent => stack.drop 1
  | .name s => s :: stack

/-- Folds components onto the names in front of them. -/
def foldNames (stack : List String) (components : List Component) : List String :=
  components.foldl foldComponent stack

/-- The names that are left of a list of components. -/
def namesOf (components : List Component) : List String :=
  (foldNames [] components).reverse

/-- The names that are left of a path. -/
def names (p : Path) : List String :=
  namesOf p.components

/-- The normalized form of a path. -/
def normalized (p : Path) : Path :=
  ofNames p.names

/-- Folding goes from left to right. -/
theorem foldNames_append (stack : List String) (a b : List Component) :
    foldNames stack (a ++ b) = foldNames (foldNames stack a) b := by
  simp [foldNames]

/-- Names are put on the stack one by one. -/
theorem foldNames_map_name (stack : List String) (names : List String) :
    foldNames stack (names.map .name) = names.reverse ++ stack := by
  induction names generalizing stack with
  | nil => rfl
  | cons s rest ih =>
    have step : foldNames stack ((s :: rest).map .name) =
        foldNames (s :: stack) (rest.map .name) := rfl
    rw [step, ih]
    simp

/-- A path that consists of names keeps them all. -/
theorem names_eq_of_components {p : Path} {names : List String}
    (h : p.components = names.map .name) : p.names = names := by
  simp [Path.names, namesOf, h, foldNames_map_name]

end LayeredProfiles.Path
