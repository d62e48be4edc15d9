import LayeredProfiles.Failure
import LayeredProfiles.Text.Blank

set_option autoImplicit false

/-!
# Configurations

A configuration says where a build reads and writes, and within which bounds it works. Relative
paths are meant below a root directory.

## Main definitions

* `DocsConfig`, `BuildConfig` — what can be configured.
* `DocsConfig.default`, `BuildConfig.default` — the conventional layout.
* `BuildConfig.below` — a configuration seen from a root directory.
* `BuildConfig.check` — refuses what no build can run with.
-/

namespace LayeredProfiles

/-- Where the generated documents are. -/
structure DocsConfig where
  /-- The directory that is searched for them. -/
  root : Path
  /-- The pattern of the document of supported vehicles. -/
  vehiclesPattern : String
  /-- The pattern of the document of supported parameters. -/
  parametersPattern : String
  /-- The name of the document of supported parameters if none is found: it is then made beside the
  other one. -/
  parametersFallback : String
  /-- The body of the document of supported vehicles, if not the usual one. -/
  vehiclesTemplate : Option Path
  /-- The body of the document of supported parameters, if not the usual one. -/
  parametersTemplate : Option Path
deriving DecidableEq, Repr

/-- What a build reads and writes. -/
structure BuildConfig where
  /-- The directory of the fragments. -/
  profilesDir : Path
  /-- The parameter library. -/
  paramsPath : Path
  /-- The schema of fragments. -/
  schemaPath : Path
  /-- The artifact. -/
  artifactPath : Path
  /-- Where the schema enumerates the parameters. -/
  schemaEnumPath : String
  /-- The name of the note files. -/
  noteFile : String
  /-- Whether the artifact is indented. -/
  pretty : Bool
  /-- How many ancestors a fragment may have. -/
  maxDepth : Nat
  /-- How many fragments are worked on at once. -/
  maxConcurrency : Nat
  /-- The generated documents. -/
  docs : DocsConfig
deriving DecidableEq, Repr

/-- The conventional place of the documents. -/
def DocsConfig.default : DocsConfig where
  root := ⟨"docs/content"⟩
  vehiclesPattern := "^[^/]*\\.Config/[^/]*\\.Automate/[^/]*\\.Supported_Vehicles\\.md$"
  parametersPattern := "^[^/]*\\.Config/[^/]*\\.Automate/[^/]*\\.Supported_Parameters\\.md$"
  parametersFallback := "3.Supported_Parameters.md"
  vehiclesTemplate := none
  parametersTemplate := none

namespace BuildConfig

/-- The conventional layout. -/
def default : BuildConfig where
  profilesDir := ⟨"vehicle_profiles"⟩
  paramsPath := ⟨".vehicle_profiles/params.json"⟩
  schemaPath := ⟨".vehicle_profiles/schema.json"⟩
  artifactPath := ⟨"vehicle_profiles.json"⟩
  schemaEnumPath := "properties.pids.items.properties.parameters.propertyNames.enum"
  noteFile := "note.md"
  pretty := true
  maxDepth := 16
  maxConcurrency := 32
  docs := .default

/-- A configuration whose relative paths are meant below a root directory. -/
def below (root : Path) (config : BuildConfig) : BuildConfig :=
  { config with
    profilesDir := root.join config.profilesDir
    paramsPath := root.join config.paramsPath
    schemaPath := root.join config.schemaPath
    artifactPath := root.join config.artifactPath
    docs := { config.docs with
      root := root.join config.docs.root
      vehiclesTemplate := config.docs.vehiclesTemplate.map root.join
      parametersTemplate := config.docs.parametersTemplate.map root.join } }

/-- The conventional layout below a root directory. -/
def forRoot (root : Path) : BuildConfig :=
  default.below root

/-- What no build can run with: no task at once, an empty segment in the path of the enumeration, a
blank name of the note files. -/
def defect? (config : BuildConfig) : Option ConfigDefect :=
  if config.maxConcurrency = 0 then some .noConcurrency
  else if (Text.splitAt '.' config.schemaEnumPath.toList).any List.isEmpty then
    some (.emptySegment config.schemaEnumPath)
  else if Text.isAllBlank config.noteFile then some .blankNoteFile
  else none

/-- Refuses a configuration that no build can run with. -/
def check (config : BuildConfig) : Except Failure Unit :=
  match config.defect? with
  | some defect => .error (.badConfig defect)
  | none => .ok ()

end BuildConfig

end LayeredProfiles
