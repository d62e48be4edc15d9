import LayeredProfiles.FileTree.Basic

set_option autoImplicit false

/-!
# Operations on file trees

An operation may change the tree and may fail. If it fails, what it has changed so far stays
changed.

## Main definitions

* `FileOperation` — what may change the tree and may fail.
* `FileTree.makeDirectories`, `FileTree.writeText`, `FileTree.moveFile` — the three steps in which a
  file is replaced.
* `FileOperation.replace` — replaces a file by way of a temporary one beside it.
-/

namespace LayeredProfiles

/-- What may change the tree and may fail, for a reason of type `ε`. -/
abbrev FileOperation (ε α : Type) := ExceptT ε (StateM FileTree) α

namespace FileTree

/-! ## Single steps -/

/-- Makes a directory inside one that is there. -/
def makeDirectory (tree : FileTree) (path : Path) : Except FileFault FileTree := do
  let location ← tree.follow path (corePieces path)
  match tree.at? location with
  | none => .ok (tree.put location .directory)
  | some _ => .error .exists

/-- Writes a text to a file, which is made if it is not there. -/
def writeText (tree : FileTree) (path : Path) (text : String) : Except FileFault FileTree := do
  let location ← tree.resolve path
  match tree.at? location with
  | some .directory => .error .isADirectory
  | _ => .ok (tree.put location (.file (.text text)))

/-- Moves a file to a path, where it replaces a file. Directories are not moved. -/
def moveFile (tree : FileTree) (source target : Path) : Except FileFault FileTree := do
  let origin ← tree.resolve source
  if target.text = "" then throw .missing
  match (corePieces target).reverse with
  | [] => .error .busy
  | last :: before => do
    let location ← tree.follow target before.reverse
    let destination ← tree.step location last
    if Path.component? last = none ∨ last = ['.', '.'] then throw .busy
    if target.text.toList.getLast? = some '/' then throw .notADirectory
    match tree.at? origin, tree.at? destination with
    | none, _ => .error .missing
    | _, some .directory => .error .isADirectory
    | some .directory, _ => .error .notADirectory
    | some (.file content), _ =>
      if origin = destination then .ok tree
      else .ok ((tree.remove origin).put destination (.file content))

/-- The directories above and including a path, the nearest first. -/
def ancestors : (fuel : Nat) → Path → List Path
  | 0, _ => []
  | fuel + 1, path =>
    match path.parent? with
    | none => []
    | some parent => path :: ancestors fuel parent

/-- Makes directories, given a path and those above it. -/
def makeAll : List Path → FileOperation FileFault Unit
  | [] => pure ()
  | path :: above => do
    let tree ← get
    match tree.makeDirectory path with
    | .ok tree => set tree
    | .error .missing => do
      makeAll above
      let tree ← get
      match tree.makeDirectory path with
      | .ok tree => set tree
      | .error fault => if tree.isDirectory path then pure () else throw fault
    | .error fault => if tree.isDirectory path then pure () else throw fault

/-- Makes a directory and those above it, as far as they are not there. -/
def makeDirectories (path : Path) : FileOperation FileFault Unit :=
  makeAll (ancestors (path.text.length + 1) path)

end FileTree

namespace FileOperation

/-- Runs an operation and yields its result and the tree that it leaves. -/
def runOn {ε α : Type} (operation : FileOperation ε α) (tree : FileTree) :
    Except ε α × FileTree :=
  (operation.run.run tree)

/-- Reports what goes wrong against a path. -/
def onPath {α : Type} (path : Path) (operation : FileOperation FileFault α) :
    FileOperation Failure α :=
  ExceptT.adapt (Failure.file path) operation

/-- A step that yields a new tree or fails. -/
def change {ε : Type} (action : FileTree → Except ε FileTree) : FileOperation ε Unit := do
  match action (← get) with
  | .ok tree => set tree
  | .error e => throw e

/-- A step that only looks. -/
def look {ε α : Type} (action : FileTree → Except ε α) : FileOperation ε α := do
  match action (← get) with
  | .ok value => pure value
  | .error e => throw e

/-- The temporary file beside a file. -/
def temporary (path : Path) : Path :=
  path.withFileName (path.fileName?.getD "" ++ ".tmp")

/-- Makes the directories above a file. -/
def prepare (path : Path) : FileOperation Failure Unit :=
  match path.parent? with
  | none => pure ()
  | some parent =>
    if parent.text = "" then pure () else onPath parent (FileTree.makeDirectories parent)

/-- Replaces a file: makes the directories above it, writes a temporary file beside it and moves that
to its place, so that the file never holds a part of the text. -/
def replace (path : Path) (text : String) : FileOperation Failure Unit := do
  prepare path
  onPath (temporary path) (change fun tree => tree.writeText (temporary path) text)
  onPath path (change fun tree => tree.moveFile (temporary path) path)

end FileOperation

end LayeredProfiles
