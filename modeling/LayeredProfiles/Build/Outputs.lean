import LayeredProfiles.Build.Compile
import LayeredProfiles.Document.Rows
import LayeredProfiles.Document.Target

set_option autoImplicit false

/-!
# The outputs of a build

The artifact and the two documents are rendered in memory before any of them is written, so that a
failure up to then changes no file, and so that the outputs can be compared with the files.

## Main definitions

* `RenderedFile`, `Outputs` — what a build writes.
* `Build.render` — renders the outputs.
* `Build.emit` — writes them, one after the other.
* `Build.staleOutputs` — the files that are not as they would be written.
-/

namespace LayeredProfiles

/-- An output and its place. -/
structure RenderedFile where
  /-- The place. -/
  path : Path
  /-- The whole content. -/
  content : String
deriving DecidableEq, Repr

/-- What a build writes. -/
structure Outputs where
  /-- The artifact. -/
  artifact : RenderedFile
  /-- The document of supported vehicles. -/
  vehicles : RenderedFile
  /-- The document of supported parameters. -/
  parameters : RenderedFile
deriving DecidableEq, Repr

/-- All outputs in the order in which they are written. -/
def Outputs.files (outputs : Outputs) : List RenderedFile :=
  [outputs.artifact, outputs.vehicles, outputs.parameters]

namespace Build

/-- The body of a document: the usual one, or that of a file which has to be there. -/
def bodyOf (tree : FileTree) (file : Option Path) (usual : String) : Except Failure String :=
  match file with
  | none => .ok usual
  | some path => do
    match ← tree.readIfThere path with
    | some body => .ok body
    | none => .error (.file path .noTemplate)

/-- Renders the outputs. -/
def render (config : BuildConfig) (tree : FileTree) (library : ParameterLibrary)
    (artifact : Artifact) : Except Failure Outputs := do
  let docs := config.docs
  let vehicles ← Document.locate tree docs.root docs.vehiclesPattern
  let parameters ← Document.locateParameters tree docs vehicles
  let vehiclesBody ← bodyOf tree docs.vehiclesTemplate Document.vehiclesBody
  let parametersBody ← bodyOf tree docs.parametersTemplate Document.parametersBody
  .ok {
    artifact := ⟨config.artifactPath, artifact.toText config.pretty⟩
    vehicles := ⟨vehicles, Document.render vehiclesBody (Document.vehicleRows artifact)⟩
    parameters := ⟨parameters, Document.render parametersBody (Document.parameterRows library)⟩ }

/-- Writes files one after the other and yields their paths. -/
def emit : List RenderedFile → FileOperation Failure (List Path)
  | [] => pure []
  | file :: rest => do
    FileOperation.replace file.path file.content
    let written ← emit rest
    pure (file.path :: written)

/-- The files that are not as they would be written. -/
def staleOutputs (tree : FileTree) : List RenderedFile → Except Failure (List Path)
  | [] => .ok []
  | file :: rest => do
    let current ← tree.readIfThere file.path
    let stale ← staleOutputs tree rest
    .ok (if current = some file.content then stale else file.path :: stale)

end Build

end LayeredProfiles
