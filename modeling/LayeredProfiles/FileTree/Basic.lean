import LayeredProfiles.Failure

set_option autoImplicit false

/-!
# File trees

A file tree holds what is at each location. A path is resolved from the current directory, or from
the root if it is absolute: name by name, where every name but the last has to be a directory's.

## Main definitions

* `Content`, `Entry` — what a file holds and what can be at a location.
* `Content.ofBytes`, `Content.toBytes` — from bytes and back.
* `FileTree`, `FileTree.at?` — a file tree and what it has at a location.
* `FileTree.resolve` — the location that a path leads to.
* `FileTree.filesBelow` — the files below a location.

## Main results

* `FileTree.at?_put`, `FileTree.at?_put_of_ne` — putting something at a location changes that one
  only.

## Implementation notes

There is always a directory at the root. Nothing needs to be at the location that a path leads to,
but it lies in a directory.
-/

namespace LayeredProfiles

/-- What a file holds: a text, or bytes that are not one. -/
inductive Content where
  /-- A text. -/
  | text (value : String)
  /-- Bytes that are not a text. -/
  | binary (bytes : List UInt8)
deriving DecidableEq, Repr

/-- What a file of the given bytes holds. -/
def Content.ofBytes (bytes : ByteArray) : Content :=
  match String.fromUTF8? bytes with
  | some s => .text s
  | none => .binary bytes.toList

/-- The bytes of a file. -/
def Content.toBytes : Content → ByteArray
  | .text s => s.toUTF8
  | .binary bytes => ⟨bytes.toArray⟩

/-- What can be at a location. -/
inductive Entry where
  /-- A file. -/
  | file (content : Content)
  /-- A directory. -/
  | directory
deriving DecidableEq, Repr

/-- A location: the names that lead there from the root. -/
abbrev Location := List String

/-- What is at each location. -/
structure FileTree where
  /-- What is at the locations below the root. -/
  entries : OrderedMap Location Entry
  /-- The location from which paths are resolved. -/
  current : Location
deriving Repr

namespace FileTree

/-- The locations on the way from the root to a location, its own included. -/
def wayTo : Location → List Location
  | [] => []
  | name :: rest => [name] :: (wayTo rest).map (name :: ·)

/-- The tree with nothing but the directory from which paths are resolved. -/
def empty (current : Location) : FileTree :=
  ⟨(wayTo current).map fun location => (location, .directory), current⟩

/-- What is at a location. -/
def at? (tree : FileTree) : Location → Option Entry
  | [] => some .directory
  | location => OrderedMap.get? tree.entries location

/-- Puts something at a location. -/
def put (tree : FileTree) (location : Location) (entry : Entry) : FileTree :=
  { tree with entries := OrderedMap.insert tree.entries location entry }

/-- Takes away what is at a location. -/
def remove (tree : FileTree) (location : Location) : FileTree :=
  { tree with entries := OrderedMap.erase tree.entries location }

/-! ## Resolving paths -/

/-- Goes from a location to what a piece of a path names there. -/
def step (tree : FileTree) (location : Location) (piece : List Char) :
    Except FileFault Location :=
  match tree.at? location with
  | none => .error .missing
  | some (.file _) => .error .notADirectory
  | some .directory =>
    if Path.isVoid piece then .ok location
    else if piece = ['.', '.'] then .ok location.dropLast
    else .ok (location ++ [String.ofList piece])

/-- Where the resolution of a path starts. -/
def start (tree : FileTree) (path : Path) : Location :=
  if path.isAbsolute then [] else tree.current

/-- The location to which pieces of a path lead. -/
def follow (tree : FileTree) (path : Path) (pieces : List (List Char)) :
    Except FileFault Location :=
  pieces.foldlM tree.step (tree.start path)

/-- The location that a path leads to. -/
def resolve (tree : FileTree) (path : Path) : Except FileFault Location :=
  if path.text = "" then .error .missing
  else tree.follow path (Text.splitAt '/' path.text.toList)

/-- The pieces of a path without the empty ones that slashes at its end make. -/
def corePieces (path : Path) : List (List Char) :=
  ((Text.splitAt '/' path.text.toList).reverse.dropWhile List.isEmpty).reverse

/-- What is there under a path. -/
def lookup? (tree : FileTree) (path : Path) : Option Entry :=
  match tree.resolve path with
  | .ok location => tree.at? location
  | .error _ => none

/-- Whether a directory is there under a path. -/
def isDirectory (tree : FileTree) (path : Path) : Bool :=
  tree.lookup? path == some .directory

/-- Whether a file is there under a path. -/
def isFile (tree : FileTree) (path : Path) : Bool :=
  match tree.lookup? path with
  | some (.file _) => true
  | _ => false

/-! ## Whole trees -/

/-- The names that follow a location in another one. -/
def namesBelow? : (base location : Location) → Option Location
  | [], location => some location
  | _ :: _, [] => none
  | b :: base, name :: location => if b = name then namesBelow? base location else none

/-- The files below a location, with the names that lead to them from there. -/
def filesBelow (tree : FileTree) (base : Location) : List (Location × Content) :=
  tree.entries.filterMap fun entry =>
    match entry.2, namesBelow? base entry.1 with
    | .file content, some names => some (names, content)
    | _, _ => none

/-- What happened to the files below a location: those that are new or other, with their content,
and those that are gone. -/
def changes (before after : FileTree) (base : Location) :
    List (Location × Option Content) :=
  let old := before.filesBelow base
  let new := after.filesBelow base
  let written := new.filter fun file => OrderedMap.get? old file.1 != some file.2
  let gone := old.filter fun file => !OrderedMap.contains new file.1
  written.map (fun file => (file.1, some file.2)) ++ gone.map fun file => (file.1, none)

/-- What was put at a location is there. -/
theorem at?_put (tree : FileTree) {location : Location} (h : location ≠ []) (entry : Entry) :
    (tree.put location entry).at? location = some entry := by
  cases location with
  | nil => exact absurd rfl h
  | cons name rest => simp [put, at?, OrderedMap.get?_insert]

/-- Putting something at a location changes no other one. -/
theorem at?_put_of_ne (tree : FileTree) {location other : Location} (h : location ≠ other)
    (entry : Entry) : (tree.put location entry).at? other = tree.at? other := by
  cases other with
  | nil => rfl
  | cons name rest => simp [put, at?, OrderedMap.get?_insert, h]

end FileTree

end LayeredProfiles
