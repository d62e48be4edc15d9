import LayeredProfiles.FileTree.Basic

set_option autoImplicit false

/-!
# Reading from file trees

## Main definitions

* `FileTree.readText` — the text of a file.
* `FileTree.read`, `FileTree.readIfThere` — the text of a file that has to be or may be there.
* `FileTree.walk` — the files below a directory.
-/

namespace LayeredProfiles

namespace FileTree

/-- The text of a file. -/
def readText (tree : FileTree) (path : Path) : Except FileFault String := do
  let location ← tree.resolve path
  match tree.at? location with
  | none => .error .missing
  | some .directory => .error .isADirectory
  | some (.file (.text s)) => .ok s
  | some (.file (.binary _)) => .error .notText

/-- Reads a file that has to be there. -/
def read (tree : FileTree) (path : Path) : Except Failure String :=
  (tree.readText path).mapError (Failure.file path)

/-- Reads a file that may be there. -/
def readIfThere (tree : FileTree) (path : Path) : Except Failure (Option String) :=
  match tree.readText path with
  | .ok text => .ok (some text)
  | .error .missing => .ok none
  | .error fault => .error (.file path fault)

/-- The files below a directory, with the names that lead to them and their paths. A file is the only
one below itself. -/
def walk (tree : FileTree) (directory : Path) : Except Failure (List (Location × Path)) :=
  let failed := fun fault => Failure.file directory (.listing directory fault)
  match tree.resolve directory with
  | .error fault => .error (failed fault)
  | .ok location =>
    match tree.at? location with
    | none => .error (failed .missing)
    | some (.file _) => .ok [([], directory)]
    | some .directory =>
      .ok ((tree.filesBelow location).map fun file => (file.1, directory.join (.ofNames file.1)))

end FileTree

end LayeredProfiles
