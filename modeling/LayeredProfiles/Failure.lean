import LayeredProfiles.Fragment.Defect
import LayeredProfiles.Json.Reader
import LayeredProfiles.Library.Defect
import LayeredProfiles.Path.Basic

set_option autoImplicit false

/-!
# Failures

Everything that can keep a build from its end, by cause. A failure that concerns one fragment only
is recoverable: the build goes on without that fragment.

## Main definitions

* `FileFault` — why an operation on a file failed.
* `Rejection` — a fragment that the schema rejects, with the reasons.
* `ConfigDefect` — why a configuration cannot be used.
* `Failure` — why a step of the build failed.
* `Failure.message` — the wording.
* `Failure.isRecoverable`, `Failure.concernsInheritance` — two classes of failures.
-/

namespace LayeredProfiles

/-- Why an operation on a file failed. -/
inductive FileFault where
  /-- Nothing is there. -/
  | missing
  /-- Something is there already. -/
  | exists
  /-- A path leads through a file. -/
  | notADirectory
  /-- A directory stands where a file is needed. -/
  | isADirectory
  /-- The directory is in use. -/
  | busy
  /-- The bytes of a file are not a text. -/
  | notText
  /-- No fragment is kept under a key. -/
  | noFragment
  /-- A template that the configuration names is not there. -/
  | noTemplate
  /-- A directory could not be listed. -/
  | listing (directory : Path) (reason : FileFault)
deriving DecidableEq, Repr

/-- The wording of a fault. -/
def FileFault.message : FileFault → String
  | .missing => "No such file or directory (os error 2)"
  | .exists => "File exists (os error 17)"
  | .notADirectory => "Not a directory (os error 20)"
  | .isADirectory => "Is a directory (os error 21)"
  | .busy => "Device or resource busy (os error 16)"
  | .notText => "stream did not contain valid UTF-8"
  | .noFragment => "fragment not found"
  | .noTemplate => "template not found"
  | .listing directory reason =>
    "IO error for operation on " ++ directory.text ++ ": " ++ reason.message

/-- The faults behind a fault, the nearest first. -/
def FileFault.reasons : FileFault → List FileFault
  | .listing _ reason => reason :: reason.reasons
  | _ => []

/-- A fragment that the schema rejects. -/
structure Rejection where
  /-- The fragment's file. -/
  path : Path
  /-- What the schema finds wrong. -/
  reasons : List String
deriving DecidableEq, Repr

/-- The wording of a rejection: the file, and a line for each reason. -/
def Rejection.message (r : Rejection) : String :=
  r.path.text ++ "\n" ++ String.join (r.reasons.map fun reason => "  - " ++ reason ++ "\n")

/-- Why a configuration cannot be used. -/
inductive ConfigDefect where
  /-- No task may run at all. -/
  | noConcurrency
  /-- The path of the enumeration has an empty segment. -/
  | emptySegment (enumPath : String)
  /-- The name of the note file is blank. -/
  | blankNoteFile
  /-- The file does not hold a configuration. -/
  | unreadable (file : Path)
deriving DecidableEq, Repr

/-- The wording of a defect of the configuration. -/
def ConfigDefect.message : ConfigDefect → String
  | .noConcurrency => "max_concurrency must be at least 1"
  | .emptySegment enumPath => "schema_enum_path '" ++ enumPath ++ "' has an empty segment"
  | .blankNoteFile => "note_file must not be empty"
  | .unreadable file => file.text

/-- Why a step of the build failed. -/
inductive Failure where
  /-- An operation on a file failed. -/
  | file (path : Path) (fault : FileFault)
  /-- A file does not hold a document. -/
  | notJson (path : Path) (error : Json.SyntaxError)
  /-- A document is not a parameter library. -/
  | badLibrary (path : Path) (defect : LibraryDefect)
  /-- A document is not a usable fragment. -/
  | badFragment (path : Path) (defect : FragmentDefect)
  /-- A fragment that another one builds on is not usable. -/
  | badAncestor (leaf ancestor : Path) (defect : FragmentDefect)
  /-- A fragment names a parameter that the library does not have. -/
  | unknownParameter (fragment : Path) (parameter : String)
  /-- A chain of references comes back to one of its members, which stands at both ends. -/
  | cycle (chain : List Path)
  /-- A chain of references is longer than allowed. -/
  | tooDeep (leaf : Path) (depth maxDepth : Nat)
  /-- Not exactly one file matches the place of a generated document. -/
  | noTarget (pattern : String) (root : Path) (found : Nat)
  /-- A configured pattern cannot be read. -/
  | badPattern (text : String)
  /-- A document is not a schema. -/
  | badSchema (path : Path)
  /-- The enumeration's path crosses a value that is not an object. -/
  | schemaPath (path : Path) (enumPath segment : String)
  /-- The schema rejects fragments. -/
  | rejected (rejections : List Rejection)
  /-- The configuration cannot be used. -/
  | badConfig (defect : ConfigDefect)
deriving DecidableEq, Repr

namespace Failure

/-- The wording of a failure. -/
def message : Failure → String
  | .file path fault => "IO error on " ++ path.text ++ ": " ++ fault.message
  | .notJson path error => "JSON error in " ++ path.text ++ ": " ++ error.message
  | .badLibrary path defect => "Invalid parameter library " ++ path.text ++ ": " ++ defect.message
  | .badFragment path defect => "Invalid profile fragment " ++ path.text ++ ": " ++ defect.message
  | .badAncestor leaf ancestor defect =>
    "Malformed ancestor " ++ ancestor.text ++ " of " ++ leaf.text ++ ": " ++ defect.message
  | .unknownParameter fragment parameter =>
    "Unknown parameter '" ++ parameter ++ "' in " ++ fragment.text
  | .cycle chain =>
    "Cyclic inheritance detected: " ++ " -> ".intercalate (chain.map Path.text)
  | .tooDeep leaf depth maxDepth =>
    "Inheritance depth exceeded for " ++ leaf.text ++ ": " ++ toString depth ++
      " levels (max: " ++ toString maxDepth ++ ")"
  | .noTarget pattern root found =>
    "Unable to determine document target for '" ++ pattern ++ "' under " ++ root.text ++ ": " ++
      toString found ++ " candidates"
  | .badPattern text => "Invalid pattern '" ++ text ++ "'"
  | .badSchema path => "Schema compilation error in " ++ path.text
  | .schemaPath path enumPath segment =>
    "Cannot set '" ++ enumPath ++ "' in " ++ path.text ++ ": '" ++ segment ++
      "' is not an object"
  | .rejected rejections =>
    "Schema validation failed for " ++ toString rejections.length ++ " fragment(s)"
  | .badConfig defect => "Configuration error: " ++ defect.message

/-- Whether the failure concerns one fragment only, so that a build can go on without it. -/
def isRecoverable : Failure → Bool
  | .badFragment .. => true
  | _ => false

/-- Whether the failure arises from following references between fragments. -/
def concernsInheritance : Failure → Bool
  | .cycle .. | .tooDeep .. | .badAncestor .. => true
  | _ => false

end Failure

end LayeredProfiles
