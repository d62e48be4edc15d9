import LayeredProfiles.Text.Split

set_option autoImplicit false

/-!
# Paths

A path is a text, and it is shown as it was written. What it means is its list of components:
slashes separate them, and an empty piece or a single dot between slashes means nothing. Only at
the very front a slash (the root) and a single dot (the current directory) are components.

## Main definitions

* `Path`, `Component` — a path and its parts.
* `Path.components` — the parts of a path.
* `Path.join` — the path of something seen from a directory.
* `Path.parent?`, `Path.fileName?`, `Path.withFileName`, `Path.extension?` — the two ends.
* `Path.relativeTo?` — the components that follow those of another path.
* `Path.compare` — the order of paths, component by component.
-/

namespace LayeredProfiles

/-- A path, as it was written. -/
structure Path where
  /-- The text of the path. -/
  text : String
deriving DecidableEq, Repr, Inhabited

/-- A part of a path. -/
inductive Component where
  /-- The slash in front of an absolute path. -/
  | root
  /-- A single dot in front of a relative path. -/
  | current
  /-- Two dots: one directory up. -/
  | parent
  /-- Any other name. -/
  | name (text : String)
deriving DecidableEq, Repr

namespace Component

/-- The text of a component. -/
def text : Component → String
  | .root => "/"
  | .current => "."
  | .parent => ".."
  | .name s => s

/-- The order of components: root, dot, two dots, then names by their characters. -/
def compare : Component → Component → Ordering
  | .root, .root => .eq
  | .root, _ => .lt
  | .current, .root => .gt
  | .current, .current => .eq
  | .current, _ => .lt
  | .parent, .root | .parent, .current => .gt
  | .parent, .parent => .eq
  | .parent, .name _ => .lt
  | .name a, .name b => Ord.compare a b
  | .name _, _ => .gt

end Component

namespace Path

/-- Whether a piece between two slashes means nothing. -/
def isVoid (piece : List Char) : Bool :=
  piece == [] || piece == ['.']

/-- The component that a piece between two slashes stands for. -/
def component? (piece : List Char) : Option Component :=
  if isVoid piece then none
  else if piece = ['.', '.'] then some .parent
  else some (.name (String.ofList piece))

/-- What stands in front of the pieces of a path: the root, a dot or nothing; and the pieces. -/
def pieces (p : Path) : Option Component × List (List Char) :=
  match Text.splitAt '/' p.text.toList with
  | [] => (none, [])
  | [[]] => (none, [])
  | [] :: rest => (some .root, rest)
  | ['.'] :: rest => (some .current, rest)
  | relative => (none, relative)

/-- The parts of a path. -/
def components (p : Path) : List Component :=
  p.pieces.1.toList ++ p.pieces.2.filterMap component?

/-- Whether a path starts at the root. -/
def isAbsolute (p : Path) : Bool :=
  p.pieces.1 == some .root

/-- The path of names, one below the other. -/
def ofNames (names : List String) : Path :=
  ⟨String.ofList (Text.joinWith '/' (names.map String.toList))⟩

/-- Puts pieces behind what stands in front of them. -/
def ofPieces (front : Option Component) (rest : List (List Char)) : Path :=
  let body := Text.joinWith '/' rest
  match front with
  | some .root => ⟨String.ofList ('/' :: body)⟩
  | some c => if rest.isEmpty then ⟨c.text⟩ else ⟨c.text ++ String.ofList ('/' :: body)⟩
  | none => ⟨String.ofList body⟩

/-- The path `p` seen from the directory `dir`. Seen from nowhere or absolute, it is itself. -/
def join (dir p : Path) : Path :=
  if p.isAbsolute then p
  else if dir.text = "" then p
  else if dir.text.toList.getLast? = some '/' then ⟨dir.text ++ p.text⟩
  else ⟨dir.text ++ "/" ++ p.text⟩

/-- The pieces without those at the end that mean nothing. -/
def dropVoid (rest : List (List Char)) : List (List Char) :=
  (rest.reverse.dropWhile isVoid).reverse

/-- The path without its last component. The root and the empty path have none to drop. -/
def parent? (p : Path) : Option Path :=
  let (front, rest) := p.pieces
  match (dropVoid rest).reverse with
  | _ :: before => some (ofPieces front (dropVoid before.reverse))
  | [] => if front = some .current then some ⟨""⟩ else none

/-- The last component, if it is a name. -/
def fileName? (p : Path) : Option String :=
  match p.components.getLast? with
  | some (.name s) => some s
  | _ => none

/-- The path with another name at its end. A path that does not end in a name gets one more. -/
def withFileName (p : Path) (name : String) : Path :=
  match p.fileName?, p.parent? with
  | some _, some dir => dir.join ⟨name⟩
  | _, _ => p.join ⟨name⟩

/-- What follows the last dot of the last name, unless the name has no dot but in front. -/
def extension? (p : Path) : Option String := do
  let name ← p.fileName?
  match (Text.splitAt '.' name.toList).reverse with
  | last :: before :: more => if more.isEmpty && before.isEmpty then none else String.ofList last
  | _ => none

/-- What is left of a list of components behind another list. -/
def dropComponents : (base cs : List Component) → Option (List Component)
  | [], cs => some cs
  | _ :: _, [] => none
  | b :: base, c :: cs => if b = c then dropComponents base cs else none

/-- The components of `p` behind those of `base`, if `p` starts with them. -/
def relativeTo? (p base : Path) : Option (List Component) :=
  dropComponents base.components p.components

/-- The order of lists of components. -/
def compareComponents : (a b : List Component) → Ordering
  | [], [] => .eq
  | [], _ :: _ => .lt
  | _ :: _, [] => .gt
  | a :: as, b :: bs => (a.compare b).then (compareComponents as bs)

/-- The order of paths, component by component: what is in a directory comes before whatever
continues the directory's name. -/
def compare (a b : Path) : Ordering :=
  compareComponents a.components b.components

/-- Whether `a` does not come after `b`. -/
def le (a b : Path) : Bool :=
  compare a b != .gt

/-- Paths in their order. -/
def sort (paths : List Path) : List Path :=
  paths.mergeSort le

end Path

end LayeredProfiles
