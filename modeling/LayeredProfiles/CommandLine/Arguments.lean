import LayeredProfiles.OrderedMap
import LayeredProfiles.Path.Basic
import LayeredProfiles.Text.Split

set_option autoImplicit false

/-!
# Arguments of the command line

The command line names a command and may give settings before and after it. The same settings may
be given on both sides; what stands after the command counts more. A path that is not given may come
from the environment.

## Main definitions

* `Command`, `PathSetting` — the commands and the paths that can be set.
* `Given` — the settings on one side of the command.
* `Request` — what the user asks for.
* `Request.read` — the request in the arguments and the environment.

## Implementation notes

The arguments are read from left to right, and the first thing that ends the reading counts: help,
the version, or a mistake. A setting waits for its value until the next argument; it may not begin
with a dash, unless it is a dash alone or comes behind two dashes. A path may not be empty, nor may
the environment offer an empty path where the arguments give none.
-/

namespace LayeredProfiles

/-- What the program can be asked to do. -/
inductive Command where
  /-- Compile, write the outputs, bring the schema in line and check all fragments. -/
  | build
  /-- Compile and write the outputs only. -/
  | compile
  /-- Check all fragments against the schema. -/
  | validate
  /-- Bring the schema in line with the library. -/
  | syncSchema
  /-- Report what a build would change. -/
  | check
deriving DecidableEq, Repr

namespace Command

/-- All commands. -/
def all : List Command := [.build, .compile, .validate, .syncSchema, .check]

/-- The name of a command. -/
def name : Command → String
  | .build => "build"
  | .compile => "compile"
  | .validate => "validate"
  | .syncSchema => "sync-schema"
  | .check => "check"

/-- The command of a name. -/
def ofName? (s : String) : Option Command :=
  all.find? fun command => command.name == s

end Command

/-- The paths that can be set. -/
inductive PathSetting where
  /-- The root directory. -/
  | root
  /-- The settings file. -/
  | config
  /-- The directory of fragments. -/
  | profilesDir
  /-- The parameter library. -/
  | params
  /-- The schema. -/
  | schema
  /-- The artifact. -/
  | output
  /-- The directory of documents. -/
  | docsRoot
deriving DecidableEq, Repr

namespace PathSetting

/-- All paths that can be set. -/
def all : List PathSetting := [.root, .config, .profilesDir, .params, .schema, .output, .docsRoot]

/-- The name of a setting, without the dashes in front. -/
def name : PathSetting → String
  | .root => "root"
  | .config => "config"
  | .profilesDir => "profiles-dir"
  | .params => "params"
  | .schema => "schema"
  | .output => "output"
  | .docsRoot => "docs-root"

/-- The name of a setting in the environment. -/
def variableName : PathSetting → String
  | .root => "PROFILEC_ROOT"
  | .config => "PROFILEC_CONFIG"
  | .profilesDir => "PROFILEC_PROFILES_DIR"
  | .params => "PROFILEC_PARAMS"
  | .schema => "PROFILEC_SCHEMA"
  | .output => "PROFILEC_OUTPUT"
  | .docsRoot => "PROFILEC_DOCS_ROOT"

/-- The setting of a name. -/
def ofName? (s : String) : Option PathSetting :=
  all.find? fun setting => setting.name == s

end PathSetting

/-- The settings on one side of the command. -/
structure Given where
  /-- Whether answers are to be documents. -/
  json : Bool
  /-- Whether the artifact is not to be indented. -/
  compact : Bool
  /-- The paths. -/
  paths : OrderedMap PathSetting String
deriving DecidableEq, Repr

/-- Nothing is given. -/
def Given.nothing : Given := ⟨false, false, []⟩

/-- What the user asks for. -/
inductive Request where
  /-- A command, with the settings before and behind it. -/
  | run (command : Command) (before behind : Given)
  /-- How the program is used. -/
  | help
  /-- Which program this is. -/
  | version
  /-- Something that the program does not understand. -/
  | mistake
deriving DecidableEq, Repr

/-- What ends the reading of arguments before a command is found. -/
abbrev Reading (α : Type) := Except Request α

namespace Given

/-- Takes a path, which may be given once and not be empty. -/
def takePath (given : Given) (setting : PathSetting) (value : String) : Reading Given :=
  if OrderedMap.contains given.paths setting || value == "" then .error .mistake
  else .ok { given with paths := OrderedMap.insert given.paths setting value }

/-- Takes a flag, which may be given once. -/
def takeFlag (given : Given) : String → Reading Given
  | "json" => if given.json then .error .mistake else .ok { given with json := true }
  | "compact" => if given.compact then .error .mistake else .ok { given with compact := true }
  | "verbose" => .ok given
  | "help" => .error .help
  | _ => .error .mistake

/-- Takes flags of one letter each. The version is known before the command only. -/
def takeLetters (atRoot : Bool) (given : Given) : List Char → Reading Given
  | [] => .ok given
  | 'v' :: rest => takeLetters atRoot given rest
  | 'h' :: _ => .error .help
  | 'V' :: _ => .error (if atRoot then .version else .mistake)
  | _ => .error .mistake

/-- Takes an argument behind its two dashes. Yields the path that waits for its value, too. -/
def takeNamed (atRoot : Bool) (given : Given) (argument : List Char) :
    Reading (Given × Option PathSetting) :=
  match Text.splitFirst? '=' argument with
  | some (name, value) =>
    match PathSetting.ofName? (String.ofList name) with
    | some setting => do
      let given ← given.takePath setting (String.ofList value)
      .ok (given, none)
    | none => .error .mistake
  | none =>
    let name := String.ofList argument
    match PathSetting.ofName? name with
    | some setting => .ok (given, some setting)
    | none =>
      if name = "version" ∧ atRoot then .error .version
      else (given.takeFlag name).map fun given => (given, none)

end Given

namespace Request

/-- Reads the names behind the word `help`. -/
def readHelp : List String → Request
  | [] | ["help"] => .help
  | [name] => if (Command.ofName? name).isSome then .help else .mistake
  | _ => .mistake

/-- Reads arguments up to a command, if one may follow, and yields the settings, the command and the
rest. The third argument is the path that waits for its value, and the fourth says that dashes have
lost their meaning. -/
def readSide (atRoot : Bool) :
    Given → (waiting : Option PathSetting) → (plain : Bool) → List String →
      Reading (Given × Option (Command × List String))
  | _, some _, _, [] => .error .mistake
  | given, none, _, [] => .ok (given, none)
  | given, some setting, plain, argument :: rest => do
    if argument = "--" ∧ !plain then readSide atRoot given (some setting) true rest
    else
      match argument.toList with
      | '-' :: _ :: _ =>
        if plain then do
          let given ← given.takePath setting argument
          readSide atRoot given none plain rest
        else .error .mistake
      | _ => do
        let given ← given.takePath setting argument
        readSide atRoot given none plain rest
  | _, none, true, _ :: _ => .error .mistake
  | given, none, false, argument :: rest =>
    match argument.toList with
    | ['-', '-'] => readSide atRoot given none true rest
    | '-' :: '-' :: name => do
      let (given, waiting) ← given.takeNamed atRoot name
      readSide atRoot given waiting false rest
    | '-' :: letter :: letters => do
      let given ← given.takeLetters atRoot (letter :: letters)
      readSide atRoot given none false rest
    | _ =>
      if !atRoot then .error .mistake
      else if argument = "help" then .error (readHelp rest)
      else
        match Command.ofName? argument with
        | some command => .ok (given, some (command, rest))
        | none => .error .mistake

/-- Whether the environment offers an empty path for which there is none among the arguments. -/
def offersEmpty (environment : OrderedMap String String) (given : Given) : Bool :=
  PathSetting.all.any fun setting =>
    !OrderedMap.contains given.paths setting &&
      OrderedMap.get? environment setting.variableName == some ""

/-- Reads both sides of the command. -/
def readSides (environment : OrderedMap String String) (arguments : List String) :
    Reading Request := do
  let (before, found) ← readSide true .nothing none false arguments
  match found with
  | none => .error .mistake
  | some (command, rest) => do
    let (behind, _) ← readSide false .nothing none false rest
    if offersEmpty environment before || offersEmpty environment behind then .error .mistake
    else .ok (.run command before behind)

/-- The request in the arguments and the environment. -/
def read (environment : OrderedMap String String) (arguments : List String) : Request :=
  match readSides environment arguments with
  | .ok request => request
  | .error request => request

end Request

end LayeredProfiles
