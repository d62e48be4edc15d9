import LayeredProfiles.Build.FanOut
import LayeredProfiles.Config.Basic
import LayeredProfiles.Fragment.Folder
import LayeredProfiles.Layers.Resolution
import LayeredProfiles.Note.File
import LayeredProfiles.Profile.Artifact
import LayeredProfiles.Profile.Enrich
import LayeredProfiles.Schema.Sync

set_option autoImplicit false

/-!
# Compiling fragments

Every fragment of the folder is resolved, joined with the settings of its parameters and given its
note. A fragment that is not usable by itself is left out; any other failure ends the build. Apart
from that, every fragment can be checked against the schema.

## Main definitions

* `BuildConfig.folder`, `BuildConfig.noteFiles`, `BuildConfig.schemaFile` — what a configuration
  names.
* `Build.compileFragment` — the profile of a fragment.
* `Build.compile` — the artifact.
* `Build.validate` — checks all fragments against the schema.
-/

namespace LayeredProfiles

/-- The fragments of a configuration. -/
def BuildConfig.folder (config : BuildConfig) : ProfileFolder := ⟨config.profilesDir⟩

/-- The note files of a configuration. -/
def BuildConfig.noteFiles (config : BuildConfig) : NoteFiles :=
  ⟨config.profilesDir, config.noteFile⟩

/-- The schema file of a configuration. -/
def BuildConfig.schemaFile (config : BuildConfig) : SchemaFile :=
  ⟨config.schemaPath, config.schemaEnumPath⟩

namespace Build

/-- The note of a vehicle: the profile's own unless it is blank, or else the one in the note file. -/
def noteOf (config : BuildConfig) (tree : FileTree) (key : Path) (profile : ResolvedProfile) :
    Except Failure (Option String) :=
  match profile.note.filter fun note => !Text.isAllBlank note with
  | some note => .ok (some (Note.parenthesized note))
  | none => config.noteFiles.noteFor tree key profile.carModel

/-- The profile of a fragment. -/
def compileFragment (config : BuildConfig) (tree : FileTree) (library : ParameterLibrary)
    (key : Path) : Except Failure ResolvedProfile := do
  let source := config.folder.source tree
  let leaf ← source key
  let resolution ← leaf.resolve source config.maxDepth key
  let profile ← ResolvedProfile.of key resolution.profile library resolution.origins
  let note ← noteOf config tree key profile
  .ok { profile with note := note }

/-- The profile of a fragment, or nothing if the fragment is not usable by itself. -/
def compileOrSkip (config : BuildConfig) (tree : FileTree) (library : ParameterLibrary)
    (key : Path) : Except Failure (Option ResolvedProfile) :=
  match compileFragment config tree library key with
  | .ok profile => .ok (some profile)
  | .error failure => if failure.isRecoverable then .ok none else .error failure

/-- The artifact of all fragments. The choices say in which order tasks end. -/
def compile (config : BuildConfig) (choices : List Nat) (tree : FileTree)
    (library : ParameterLibrary) : Except Failure Artifact := do
  let keys ← config.folder.keys tree
  let profiles ← FanOut.all config.maxConcurrency (compileOrSkip config tree library) choices keys
  .ok (.ofProfiles (profiles.filterMap id))

/-- The rejection of a fragment by a schema, if it is rejected. -/
def validateFragment (config : BuildConfig) (tree : FileTree) (schema : Schema) (key : Path) :
    Except Failure (Option Rejection) := do
  let text ← config.folder.readText tree key
  .ok (schema.rejectText? (config.folder.pathOf key) text)

/-- Checks all fragments against the schema and yields their number. -/
def validate (config : BuildConfig) (choices : List Nat) (tree : FileTree) :
    Except Failure Nat := do
  let schema ← config.schemaFile.schema tree
  let keys ← config.folder.keys tree
  let checked ← FanOut.all config.maxConcurrency (validateFragment config tree schema) choices keys
  match checked.filterMap id with
  | [] => .ok keys.length
  | rejections => .error (.rejected (rejections.mergeSort fun a b => Path.le a.path b.path))

end Build

end LayeredProfiles
