import LayeredProfiles.FileTree.Operation
import LayeredProfiles.FileTree.Reading
import LayeredProfiles.Library.Basic
import LayeredProfiles.Schema.Enumeration
import LayeredProfiles.Schema.Violation

set_option autoImplicit false

/-!
# The schema file

The schema of fragments enumerates the parameters of the library. Its file is written anew only if
the enumeration changes.

## Main definitions

* `SchemaFile` — a schema file and the place of the enumeration in it.
* `SchemaFile.withNames` — the document with the enumeration, and whether that changes it.
* `SchemaFile.sync` — brings the file in line with a library.
* `SchemaFile.isCurrent` — whether it is in line already.
* `SchemaFile.schema` — the schema in the file.
-/

namespace LayeredProfiles

/-- A schema file and the place of the enumeration in it. -/
structure SchemaFile where
  /-- The file. -/
  path : Path
  /-- Where the enumeration is. -/
  enumPath : String
deriving DecidableEq, Repr

namespace SchemaFile

/-- The document in the file. -/
def document (file : SchemaFile) (tree : FileTree) : Except Failure Json := do
  let text ← tree.read file.path
  (Json.parse text).mapError (Failure.notJson file.path)

/-- The document with the names of a library as the enumeration, and whether that changes it. -/
def withNames (file : SchemaFile) (tree : FileTree) (library : ParameterLibrary) :
    Except Failure (Bool × Json) := do
  let document ← file.document tree
  (Enumeration.setAt file.enumPath library.names document).mapError fun segment =>
    .schemaPath file.path file.enumPath segment

/-- The text of a schema file: indented, with a line break at its end. -/
def textOf (document : Json) : String :=
  document.toPrettyText ++ "\n"

/-- Brings the file in line with a library. Yields whether it was written. -/
def sync (file : SchemaFile) (library : ParameterLibrary) : FileOperation Failure Bool := do
  let (changed, document) ← FileOperation.look fun tree => file.withNames tree library
  if changed then
    FileOperation.replace file.path (textOf document)
    pure true
  else pure false

/-- Whether the file is in line with a library. -/
def isCurrent (file : SchemaFile) (tree : FileTree) (library : ParameterLibrary) :
    Except Failure Bool :=
  (file.withNames tree library).map fun found => !found.1

/-- The schema in the file. -/
def schema (file : SchemaFile) (tree : FileTree) : Except Failure Schema := do
  Schema.ofDocument file.path (← file.document tree)

end SchemaFile

end LayeredProfiles
