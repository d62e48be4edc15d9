import LayeredProfiles.FileTree.Reading
import LayeredProfiles.Fragment.Source

set_option autoImplicit false

/-!
# Folders of fragments

Fragments are the files of a directory whose names end in `.json`. The key of a fragment is its path
seen from the directory, in normalized form, so that no key leads out of it.

## Main definitions

* `ProfileFolder` — a directory of fragments.
* `ProfileFolder.pathOf`, `ProfileFolder.keyOf` — from keys to paths and back.
* `ProfileFolder.keys` — the keys of all fragments, in order.
* `ProfileFolder.source` — the source of fragments that the directory is.

## Main results

* `ProfileFolder.pathOf_normalized` — keys that differ in dots only have the same path.
-/

namespace LayeredProfiles

/-- A directory of fragments. -/
structure ProfileFolder where
  /-- The directory. -/
  base : Path
deriving DecidableEq, Repr

namespace ProfileFolder

/-- The file of a fragment. -/
def pathOf (folder : ProfileFolder) (key : Path) : Path :=
  folder.base.join key.normalized

/-- The key of a file. A file that is not in the directory has its own path for a key. -/
def keyOf (folder : ProfileFolder) (path : Path) : Path :=
  .ofNames (Path.namesOf ((path.relativeTo? folder.base).getD path.components))

/-- The keys of all fragments, in order. -/
def keys (folder : ProfileFolder) (tree : FileTree) : Except Failure (List Path) := do
  let files ← tree.walk folder.base
  let fragments := files.filter fun file => file.2.extension? == some "json"
  .ok (Path.sort (fragments.map fun file => .ofNames file.1))

/-- The text of a fragment. -/
def readText (folder : ProfileFolder) (tree : FileTree) (key : Path) : Except Failure String :=
  tree.read (folder.pathOf key)

/-- The source of fragments that the directory is. -/
def source (folder : ProfileFolder) (tree : FileTree) : FragmentSource := fun key => do
  Fragment.parse key (← folder.readText tree key)

/-- Keys that differ in dots only have the same path. -/
theorem pathOf_normalized (folder : ProfileFolder) {a b : Path}
    (h : a.normalized = b.normalized) : folder.pathOf a = folder.pathOf b := by
  simp [pathOf, h]

end ProfileFolder

end LayeredProfiles
