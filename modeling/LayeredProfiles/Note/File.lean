import LayeredProfiles.FileTree.Reading
import LayeredProfiles.Note.Selection

set_option autoImplicit false

/-!
# Note files

Beside the fragments of a folder there may be a file of notes for the vehicles of that folder.

## Main definitions

* `NoteFiles` — the note files of a directory of fragments.
* `NoteFiles.pathFor` — the note file beside a fragment.
* `NoteFiles.noteFor` — the note for the vehicle of a fragment.
-/

namespace LayeredProfiles

/-- The note files of a directory of fragments. -/
structure NoteFiles where
  /-- The directory of the fragments. -/
  base : Path
  /-- The name of the note files. -/
  name : String
deriving DecidableEq, Repr

namespace NoteFiles

/-- The note file beside a fragment. -/
def pathFor (files : NoteFiles) (key : Path) : Path :=
  (files.base.join (key.parent?.getD ⟨""⟩)).join ⟨files.name⟩

/-- The note for the vehicle of a fragment. Without a note file there is none. -/
def noteFor (files : NoteFiles) (tree : FileTree) (key : Path) (carModel : String) :
    Except Failure (Option String) := do
  match ← tree.readIfThere (files.pathFor key) with
  | none => .ok none
  | some text => .ok (Note.choose? (Note.lines text) carModel)

end NoteFiles

end LayeredProfiles
