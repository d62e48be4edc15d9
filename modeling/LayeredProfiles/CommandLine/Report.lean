import LayeredProfiles.Build.Session

set_option autoImplicit false

/-!
# Reports

A command reports what it did, or what went wrong, in words or as a document. Words about a failure
go to the error stream, and so do the reasons behind it; a document always goes to the output.

## Main definitions

* `Report` — what is written to the two streams, and the exit code.
* `Outcome`, `Outcome.report` — what a command did, and how it is reported.
* `Trouble`, `Trouble.report` — what went wrong, and how it is reported.
-/

namespace LayeredProfiles

/-- What is written to the two streams, and the exit code. -/
structure Report where
  /-- The exit code. -/
  exitCode : Nat
  /-- What is written to the output. -/
  out : String
  /-- What is written to the error stream. -/
  err : String
deriving DecidableEq, Repr

/-- Paths in a document. -/
def Path.listToJson (paths : List Path) : Json :=
  .ofTexts (paths.map Path.text)

/-- A document on lines of its own. -/
def Json.toLines (document : Json) : String :=
  document.toPrettyText ++ "\n"

/-! ## What was done -/

/-- What a command did. -/
inductive Outcome where
  /-- A whole build. -/
  | built (summary : BuildSummary)
  /-- The outputs were written. -/
  | compiled (profiles : Nat) (written : List Path)
  /-- All fragments are accepted by the schema. -/
  | validated (fragments : Nat)
  /-- The schema is in line with the library. -/
  | synced (schema : Path) (updated : Bool)
  /-- Nothing would change. -/
  | current
deriving DecidableEq, Repr

namespace Outcome

/-- The lines about written files. -/
def writtenLines (written : List Path) : String :=
  String.join (written.map fun path => "  wrote " ++ path.text ++ "\n")

/-- A count in a document. -/
def count (n : Nat) : Json := .integer n

/-- An outcome in words. -/
def words : Outcome → String
  | .built summary =>
    "✓ Compiled " ++ toString summary.profiles ++ " profiles (" ++ toString summary.documented ++
      " listed in docs)\n" ++ writtenLines summary.written ++
      (if summary.schemaUpdated then "  schema parameter enumeration updated\n" else "")
  | .compiled profiles written =>
    "✓ Compiled " ++ toString profiles ++ " profiles\n" ++ writtenLines written
  | .validated fragments => "✓ All " ++ toString fragments ++ " fragments are valid\n"
  | .synced schema updated =>
    if updated then "✓ Updated " ++ schema.text ++ "\n"
    else "✓ " ++ schema.text ++ " already current\n"
  | .current => "✓ All outputs are up to date\n"

/-- The fields of an outcome as a document. -/
def fields : Outcome → List (String × Json)
  | .built summary =>
    [("profiles", count summary.profiles), ("documented", count summary.documented),
      ("schema_updated", .bool summary.schemaUpdated),
      ("written", Path.listToJson summary.written)]
  | .compiled profiles written =>
    [("profiles", count profiles), ("written", Path.listToJson written)]
  | .validated fragments => [("fragments", count fragments)]
  | .synced schema updated => [("schema", .text schema.text), ("updated", .bool updated)]
  | .current => [("stale", .array [])]

/-- The report of an outcome. -/
def report (outcome : Outcome) (json : Bool) : Report :=
  ⟨0, if json then (Json.object (("success", .bool true) :: outcome.fields)).toLines
      else outcome.words, ""⟩

end Outcome

/-! ## What went wrong -/

/-- What can go wrong with a command. -/
inductive Trouble where
  /-- A step of the build failed. -/
  | failed (failure : Failure)
  /-- The configuration could not be loaded. -/
  | notConfigured (file : Path) (failure : Failure)
  /-- Outputs are not up to date. -/
  | outOfDate (stale : List Path)
deriving DecidableEq, Repr

/-- The exit code of a failure. -/
def Failure.exitCode : Failure → Nat
  | .noTarget .. => 3
  | .rejected .. | .notJson .. | .badFragment .. | .badLibrary .. => 4
  | .cycle .. | .tooDeep .. | .badAncestor .. => 5
  | .unknownParameter .. => 6
  | _ => 1

/-- The reasons behind a failure, the nearest first. -/
def Failure.reasons : Failure → List String
  | .file _ fault => fault.message :: fault.reasons.map FileFault.message
  | .notJson _ error => [error.message]
  | _ => []

namespace Trouble

/-- The exit code. -/
def exitCode : Trouble → Nat
  | .failed failure | .notConfigured _ failure => failure.exitCode
  | .outOfDate _ => 2

/-- The wording. -/
def message : Trouble → String
  | .failed failure => failure.message
  | .notConfigured file _ => "Failed to load configuration from " ++ file.text
  | .outOfDate stale =>
    toString stale.length ++ " output(s) out of date; run `profilec build`"

/-- The reasons, the nearest first. -/
def reasons : Trouble → List String
  | .failed failure => failure.reasons
  | .notConfigured _ failure => failure.message :: failure.reasons
  | .outOfDate _ => []

/-- The fragments that the schema rejects, if that is the trouble. -/
def rejections? : Trouble → Option (List Rejection)
  | .failed (.rejected rejections) | .notConfigured _ (.rejected rejections) => some rejections
  | _ => none

/-- The outputs that are not up to date, if that is the trouble. -/
def stale? : Trouble → Option (List Path)
  | .outOfDate stale => some stale
  | _ => none

/-- The lines about a rejected fragment. -/
def rejectionLines (r : Rejection) : String :=
  "  " ++ r.path.text ++ "\n" ++
    String.join (r.reasons.map fun reason => "    • " ++ reason ++ "\n")

/-- Trouble in words. -/
def words (trouble : Trouble) : String :=
  "Error: " ++ trouble.message ++ "\n" ++
    String.join ((trouble.rejections?.getD []).map rejectionLines) ++
    String.join (trouble.reasons.map fun reason => "  Caused by: " ++ reason ++ "\n")

/-- A rejected fragment in a document. -/
def rejectionToJson (r : Rejection) : Json :=
  .object [("path", .text r.path.text), ("errors", .ofTexts r.reasons)]

/-- Trouble as a document. -/
def toJson (trouble : Trouble) : Json :=
  .object [("success", .bool false),
    ("error", .object (
      [("message", .text trouble.message), ("code", .integer trouble.exitCode)] ++
      (trouble.rejections?.map fun rejections =>
        ("failures", Json.array (rejections.map rejectionToJson))).toList ++
      (trouble.stale?.map fun stale => ("stale", Path.listToJson stale)).toList))]

/-- The report of trouble. In words, outputs that are not up to date are listed in the output. -/
def report (trouble : Trouble) (json : Bool) : Report :=
  if json then ⟨trouble.exitCode, trouble.toJson.toLines, ""⟩
  else
    ⟨trouble.exitCode,
      String.join ((trouble.stale?.getD []).map fun path => "  stale " ++ path.text ++ "\n"),
      trouble.words⟩

end Trouble

end LayeredProfiles
