import LayeredProfiles.CommandLine.Places

set_option autoImplicit false

/-!
# The program

Puts what a command looks at into a file tree, runs the command on the tree, and makes the files of
the system those of the tree that the command leaves.

## Main definitions

* `Program.gather` — puts places of the system into a tree.
* `Program.carryOut` — brings the files of the system in line with a tree.
* `Program.run`, `main` — the program.

## Implementation notes

The places that a command looks at become known in three steps: the settings file, what the
configuration names, and what follows from the fragments and documents. Links are followed.
-/

namespace LayeredProfiles.Program

/-- The path under which the system knows a location. -/
def systemPath (location : Location) : String :=
  "/" ++ "/".intercalate location

/-- What the system has at a location. -/
def entryAt? (location : Location) : IO (Option Entry) := do
  let file := (← IO.currentDir) / systemPath location
  try
    match (← file.metadata).type with
    | .dir => return some .directory
    | .file => return some (.file (.ofBytes (← IO.FS.readBinFile file)))
    | _ => return none
  catch _ => return none

/-- Puts what the system has at a location into a tree. -/
def look (tree : FileTree) (location : Location) : IO FileTree := do
  if (tree.at? location).isSome then return tree
  match ← entryAt? location with
  | some entry => return tree.put location entry
  | none => return tree

/-- Puts everything below a location into a tree, down to so many directories inside each other. -/
def lookBelow : (depth : Nat) → FileTree → Location → IO FileTree
  | 0, tree, _ => return tree
  | depth + 1, tree, location => do
    let directory := (← IO.currentDir) / systemPath location
    if !(← directory.isDir) then return tree
    let mut tree := tree
    for inner in ← directory.readDir do
      let place := location ++ [inner.fileName]
      tree ← lookBelow depth (← look tree place) place
    return tree

/-- How many directories inside each other are looked into. A path of the system cannot name more,
because it has at most this many characters. -/
def maxDepth : Nat := 4096

/-- Puts what a path leads through and to into a tree, and everything below. -/
def lookAlong : FileTree → Location → List (List Char) → IO FileTree
  | tree, location, [] => lookBelow maxDepth tree location
  | tree, location, piece :: rest => do
    match tree.step location piece with
    | .error _ => return tree
    | .ok next => lookAlong (← look tree next) next rest

/-- Puts what the system has under a path into a tree. -/
def gather (tree : FileTree) (path : Path) : IO FileTree :=
  lookAlong tree (tree.start path) (Text.splitAt '/' path.text.toList)

/-- Replaces a file of the system. -/
def replaceFile (location : Location) (content : Content) : IO Unit := do
  let file := systemPath location
  IO.FS.writeBinFile (file ++ ".tmp") content.toBytes
  IO.FS.rename (file ++ ".tmp") file

/-- Brings the files of the system in line with a tree. -/
def carryOut (before after : FileTree) : IO Unit := do
  for entry in after.entries do
    if entry.2 == .directory && before.at? entry.1 != some .directory then
      IO.FS.createDirAll (systemPath entry.1)
  for change in FileTree.changes before after [] do
    match change.2 with
    | some content => replaceFile change.1 content
    | none => IO.FS.removeFile (systemPath change.1)

/-- The variables of the environment that set paths. -/
def environment : IO (OrderedMap String String) := do
  let mut found := []
  for setting in PathSetting.all do
    if let some value ← IO.getEnv setting.variableName then
      found := (setting.variableName, value) :: found
  return found

/-- Runs the command that the arguments name, and yields its exit code. -/
def run (arguments : List String) : IO UInt32 := do
  let environment ← environment
  let mut tree := FileTree.empty (Path.names ⟨(← IO.currentDir).toString⟩)
  for _ in [0:3] do
    for place in CommandLine.places environment arguments tree do
      tree ← gather tree place
  let (report, after) := CommandLine.run environment arguments [] tree
  carryOut tree after
  IO.print report.out
  IO.eprint report.err
  return report.exitCode.toUInt32

end LayeredProfiles.Program

/-- The program. -/
def main (arguments : List String) : IO UInt32 :=
  LayeredProfiles.Program.run arguments
