import LayeredProfiles.CommandLine.Arguments
import LayeredProfiles.CommandLine.Report
import LayeredProfiles.Config.Reading

set_option autoImplicit false

/-!
# Running a command

A command runs under the configuration of the settings file, if there is one, and of the paths on
the command line, which count as they are given.

## Main definitions

* `Settings` — the settings that are in force.
* `Settings.config` — the configuration of a command.
* `Command.perform` — carries a command out.
* `CommandLine.run` — reads the arguments, carries the command out and reports.
-/

namespace LayeredProfiles

/-- The settings that are in force. -/
structure Settings where
  /-- Whether answers are documents. -/
  json : Bool
  /-- Whether the artifact is not indented. -/
  compact : Bool
  /-- The paths. -/
  path? : PathSetting → Option Path

/-- The settings that are in force: those behind the command, those before it, and those of the
environment. -/
def Settings.of (environment : OrderedMap String String) (before behind : Given) : Settings where
  json := before.json || behind.json
  compact := before.compact || behind.compact
  path? := fun setting =>
    (((OrderedMap.get? behind.paths setting).or (OrderedMap.get? before.paths setting)).or
      (OrderedMap.get? environment setting.variableName)).map Path.mk

namespace Settings

/-- The root directory: the current one if no other is set. -/
def root (settings : Settings) : Path :=
  (settings.path? .root).getD ⟨"."⟩

/-- The place of the settings file if no other is set. -/
def usualFile (settings : Settings) : Path :=
  settings.root.join ⟨"profilec.yaml"⟩

/-- The settings file: the one that is set, or else the usual one if it is there. -/
def file? (settings : Settings) (tree : FileTree) : Option Path :=
  (settings.path? .config).or
    (if tree.isFile settings.usualFile then some settings.usualFile else none)

/-- The configuration before the paths of the command line count. -/
def baseConfig (settings : Settings) (tree : FileTree) : Except Trouble BuildConfig :=
  match settings.file? tree with
  | none => .ok (.forRoot settings.root)
  | some file => (BuildConfig.load tree file settings.root).mapError (.notConfigured file)

/-- A configuration with the paths of the command line. -/
def override (settings : Settings) (config : BuildConfig) : BuildConfig :=
  { config with
    profilesDir := (settings.path? .profilesDir).getD config.profilesDir
    paramsPath := (settings.path? .params).getD config.paramsPath
    schemaPath := (settings.path? .schema).getD config.schemaPath
    artifactPath := (settings.path? .output).getD config.artifactPath
    docs := { config.docs with root := (settings.path? .docsRoot).getD config.docs.root }
    pretty := config.pretty && !settings.compact }

/-- The configuration of a command. -/
def config (settings : Settings) (tree : FileTree) : Except Trouble BuildConfig :=
  (settings.baseConfig tree).map settings.override

end Settings

/-- Carries a command out. The choices say in which order tasks end. -/
def Command.perform (command : Command) (choices : List Nat) :
    Build.Task (Except Trouble Outcome) := do
  match command with
  | .build => do
    let summary ← Build.all choices
    pure (.ok (.built summary))
  | .compile => do
    let (artifact, written) ← Build.outputsHalf choices
    pure (.ok (.compiled artifact.cars.length written))
  | .validate => do
    let fragments ← Build.validated choices
    pure (.ok (.validated fragments))
  | .syncSchema => do
    let updated ← Build.syncSchema
    pure (.ok (.synced (← get).config.schemaPath updated))
  | .check => do
    let stale ← Build.staleFiles choices
    pure (if stale.isEmpty then .ok .current else .error (.outOfDate stale))

namespace CommandLine

/-- How the program is used. -/
def usage : String :=
  "Vehicle profile compiler - build the profile artifact, docs and schema\n\n" ++
  "Usage: profilec [OPTIONS] <COMMAND>\n\n" ++
  "Commands: build, compile, validate, sync-schema, check, help\n\n" ++
  "Options: --json, --verbose, --root <ROOT>, --config <CONFIG>, --profiles-dir <PROFILES_DIR>,\n" ++
  "  --params <PARAMS>, --schema <SCHEMA>, --output <OUTPUT>, --docs-root <DOCS_ROOT>, --compact,\n" ++
  "  --help, --version\n"

/-- Carries a command out under settings, and reports. -/
def execute (command : Command) (settings : Settings) (choices : List Nat) (tree : FileTree) :
    Report × FileTree :=
  match settings.config tree with
  | .error trouble => (trouble.report settings.json, tree)
  | .ok config =>
    match Session.open? config tree with
    | .error failure => ((Trouble.failed failure).report settings.json, tree)
    | .ok session =>
      let (result, session) := (command.perform choices).runIn session
      let report :=
        match result with
        | .ok (.ok outcome) => outcome.report settings.json
        | .ok (.error trouble) => trouble.report settings.json
        | .error failure => (Trouble.failed failure).report settings.json
      (report, session.tree)

/-- Reads the arguments, carries the command out and reports. -/
def run (environment : OrderedMap String String) (arguments : List String) (choices : List Nat)
    (tree : FileTree) : Report × FileTree :=
  match Request.read environment arguments with
  | .run command before behind =>
    execute command (.of environment before behind) choices tree
  | .help => (⟨0, usage, ""⟩, tree)
  | .version => (⟨0, "profilec 0.1.0\n", ""⟩, tree)
  | .mistake => (⟨2, "", "error: the arguments are not understood\n\n" ++ usage⟩, tree)

end CommandLine

end LayeredProfiles
