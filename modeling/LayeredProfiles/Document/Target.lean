import LayeredProfiles.Config.Basic
import LayeredProfiles.FileTree.Reading
import LayeredProfiles.Pattern.Reader

set_option autoImplicit false

/-!
# Where generated documents go

A generated document replaces the one file of the documents directory whose path, seen from there,
matches a pattern. If there is no document of supported parameters yet, it is made beside the one of
supported vehicles.

## Main definitions

* `Document.candidates` — the files that match a pattern, in order.
* `Document.locate` — the one file that matches a pattern.
* `Document.locateParameters` — the place of the document of supported parameters.
-/

namespace LayeredProfiles.Document

/-- The files below a directory that match a pattern, in order. Where there is no directory, there
are none. -/
def candidates (tree : FileTree) (root : Path) (pattern : String) :
    Except Failure (List Path) := do
  let pattern ← Pattern.parse pattern
  if tree.isDirectory root then
    let files ← tree.walk root
    let found := files.filter fun file =>
      pattern.isFoundIn (Text.joinWith '/' (file.1.map String.toList))
    .ok (Path.sort (found.map Prod.snd))
  else .ok []

/-- The one file that matches a pattern. -/
def locate (tree : FileTree) (root : Path) (pattern : String) : Except Failure Path := do
  match ← candidates tree root pattern with
  | [path] => .ok path
  | found => .error (.noTarget pattern root found.length)

/-- The place of the document of supported parameters: the one file that matches its pattern, or
else beside the document of supported vehicles. -/
def locateParameters (tree : FileTree) (docs : DocsConfig) (vehicles : Path) :
    Except Failure Path := do
  match ← candidates tree docs.root docs.parametersPattern with
  | [] => .ok (vehicles.withFileName docs.parametersFallback)
  | [path] => .ok path
  | found => .error (.noTarget docs.parametersPattern docs.root found.length)

end LayeredProfiles.Document
