import LayeredProfiles.Build.Outputs

set_option autoImplicit false

/-!
# Build sessions

A session carries out builds under one configuration. The parameter library is loaded when it is
first needed and kept from then on; a library that could not be loaded is looked for again the next
time.

## Main definitions

* `Session`, `Session.open?` — a session under a configuration that can be used.
* `Build.Task` — what a session can carry out.
* `Build.library`, `Build.compiled`, `Build.rendered`, `Build.emitted` — the steps of a build.
* `Build.syncSchema`, `Build.validated` — the work on the schema.
* `Build.all` — both, each to its end.
* `Build.staleFiles` — what a build would change.

## Implementation notes

The two halves of a build run at the same time. Here the first one is carried out to its end, and then
the second one, which is one of the ways in which their steps can follow each other. Which way it is
matters where a place of one half is also one of the other half, and a configuration may be such; under
the conventional layout it is not, and either half may come first. The other ways are those of
`Build.together`. If both halves fail, the failure of the second one counts.
-/

namespace LayeredProfiles

/-- A session under a configuration. -/
structure Session where
  /-- The configuration. -/
  config : BuildConfig
  /-- The parameter library, once it is loaded. -/
  library : Option ParameterLibrary
  /-- The files. -/
  tree : FileTree
deriving Repr

/-- A session under a configuration that can be used. -/
def Session.open? (config : BuildConfig) (tree : FileTree) : Except Failure Session := do
  config.check
  .ok ⟨config, none, tree⟩

/-- What a build did. -/
structure BuildSummary where
  /-- The number of profiles. -/
  profiles : Nat
  /-- The number of vehicles that are listed. -/
  documented : Nat
  /-- Whether the schema was written. -/
  schemaUpdated : Bool
  /-- The files that were written, the artifact first. -/
  written : List Path
deriving DecidableEq, Repr

namespace Build

/-- What a session can carry out. What it has changed when it fails stays changed. -/
abbrev Task (α : Type) := ExceptT Failure (StateM Session) α

/-- Runs a task in a session. -/
def Task.runIn {α : Type} (task : Task α) (session : Session) : Except Failure α × Session :=
  task.run.run session

/-- Carries out an operation on the files. -/
def onFiles {α : Type} (operation : FileOperation Failure α) : Task α := do
  let session ← get
  match operation.runOn session.tree with
  | (.ok value, tree) => do
    set { session with tree := tree }
    pure value
  | (.error failure, tree) => do
    set { session with tree := tree }
    throw failure

/-- Finds something out that depends on the configuration and the files. -/
def find {α : Type} (f : BuildConfig → FileTree → Except Failure α) : Task α := do
  let session ← get
  match f session.config session.tree with
  | .ok value => pure value
  | .error failure => throw failure

/-- Loads a parameter library. -/
def loadLibrary (config : BuildConfig) (tree : FileTree) : Except Failure ParameterLibrary := do
  ParameterLibrary.parse config.paramsPath (← tree.read config.paramsPath)

/-- The parameter library. -/
def library : Task ParameterLibrary := do
  match (← get).library with
  | some library => pure library
  | none => do
    let library ← find loadLibrary
    modify fun session => { session with library := some library }
    pure library

/-- Compiles all fragments. -/
def compiled (choices : List Nat) : Task Artifact := do
  let library ← library
  find fun config tree => compile config choices tree library

/-- Renders the outputs. -/
def rendered (artifact : Artifact) : Task Outputs := do
  let library ← library
  find fun config tree => render config tree library artifact

/-- Writes the outputs. -/
def emitted (outputs : Outputs) : Task (List Path) :=
  onFiles (emit outputs.files)

/-- Brings the schema in line with the library. -/
def syncSchema : Task Bool := do
  let library ← library
  let session ← get
  onFiles (session.config.schemaFile.sync library)

/-- Checks all fragments against the schema. -/
def validated (choices : List Nat) : Task Nat :=
  find fun config tree => validate config choices tree

/-- Compiles, renders and writes. -/
def outputsHalf (choices : List Nat) : Task (Artifact × List Path) := do
  let artifact ← compiled choices
  let outputs ← rendered artifact
  let written ← emitted outputs
  pure (artifact, written)

/-- Brings the schema in line and checks all fragments. -/
def schemaHalf (choices : List Nat) : Task Bool := do
  let updated ← syncSchema
  let _ ← validated choices
  pure updated

/-- Carries a task out and yields how it ended. -/
def attempt {α : Type} (task : Task α) : Task (Except Failure α) := fun session =>
  let (result, session) := task.runIn session
  (.ok result, session)

/-- A whole build: both halves, each to its end, the one that writes the outputs first. -/
def all (choices : List Nat) : Task BuildSummary := do
  let outputs ← attempt (outputsHalf choices)
  let schema ← attempt (schemaHalf choices)
  match outputs, schema with
  | .ok (artifact, written), .ok updated =>
    pure ⟨artifact.cars.length, artifact.documented.length, updated, written⟩
  | _, .error failure => throw failure
  | .error failure, .ok _ => throw failure

/-- The files that a build would change. -/
def staleFiles (choices : List Nat) : Task (List Path) := do
  let outputs ← rendered (← compiled choices)
  let stale ← find fun _ tree => staleOutputs tree outputs.files
  let library ← library
  let current ← find fun config tree => config.schemaFile.isCurrent tree library
  let session ← get
  pure (if current then stale else stale ++ [session.config.schemaPath])

end Build

end LayeredProfiles
