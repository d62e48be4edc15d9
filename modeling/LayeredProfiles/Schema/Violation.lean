import LayeredProfiles.Failure
import LayeredProfiles.Json.Writer
import LayeredProfiles.Schema.Basic

set_option autoImplicit false

/-!
# Violations of a schema

Checking a value against a schema lists everything that is wrong with it, in the order in which the
schema reads its keywords; a value is acceptable if the list is empty.

## Main definitions

* `Violation`, `Violation.message` — what can be wrong with a value, with its wording.
* `Schema.violations` — everything that is wrong with a value.
* `Schema.reject?` — the rejection of a file that holds an unacceptable document.

## Implementation notes

Keywords that go through the fields of an object or the first items of a list call the checks of the
schemas there. These are tabulated first, so that the recursion follows the schema and not the value.
-/

namespace LayeredProfiles

/-- What can be wrong with a value. -/
inductive Violation where
  /-- The value is of another kind. -/
  | wrongKind (value : Json) (wanted : List ValueKind)
  /-- The value is not one of the options. -/
  | notAnOption (value : Json) (options : List Json)
  /-- The string is too short. -/
  | tooShort (value : Json) (limit : Nat)
  /-- The list is too short. -/
  | tooFew (value : Json) (limit : Nat)
  /-- A key is missing. -/
  | missing (key : String)
  /-- There are keys beyond those allowed. -/
  | unexpected (keys : List String)
  /-- Nothing may stand here. -/
  | forbidden (value : Json)
deriving DecidableEq, Repr

namespace Violation

/-- A number of things, with the word for one of them. -/
def counted (n : Nat) (noun : String) : String :=
  toString n ++ " " ++ noun ++ (if n = 1 then "" else "s")

/-- The options in a message: all if they are at most three, or else two and how many more. -/
def listed (options : List String) : String :=
  match options with
  | [] => ""
  | [a] => a
  | [a, b] => a ++ " or " ++ b
  | [a, b, c] => a ++ ", " ++ b ++ " or " ++ c
  | a :: b :: more => a ++ ", " ++ b ++ " or " ++ toString more.length ++ " other candidates"

/-- A name in double quotes. -/
def quotedName (kind : ValueKind) : String :=
  "\"" ++ kind.name ++ "\""

/-- The kinds in a message, in the order of their names. -/
def kindsText (wanted : List ValueKind) : String :=
  match wanted with
  | [kind] => "type " ++ quotedName kind
  | _ => "types " ++ ", ".intercalate ((ValueKind.all.filter wanted.contains).map quotedName)

/-- The wording of a violation. -/
def message : Violation → String
  | .wrongKind value wanted => value.toText ++ " is not of " ++ kindsText wanted
  | .notAnOption value options =>
    value.toText ++ " is not one of " ++ listed (options.map Json.toText)
  | .tooShort value limit => value.toText ++ " is shorter than " ++ counted limit "character"
  | .tooFew value limit => value.toText ++ " has less than " ++ counted limit "item"
  | .missing key => (Json.text key).toText ++ " is a required property"
  | .unexpected keys =>
    "Additional properties are not allowed (" ++
      ", ".intercalate (keys.map fun key => "'" ++ key ++ "'") ++
      (if keys.length = 1 then " was" else " were") ++ " unexpected)"
  | .forbidden value => "False schema does not allow " ++ value.toText

end Violation

namespace Schema

/-- What checks a value. -/
abbrev Check := Json → List Violation

/-- Checks that a value is of one of the kinds. -/
def checkKinds (wanted : List ValueKind) : Check := fun value =>
  if wanted.any fun kind => kind.admits value then [] else [.wrongKind value wanted]

/-- Checks that a value is one of the options. -/
def checkOptions (options : List Json) : Check := fun value =>
  if options.any value.agrees then [] else [.notAnOption value options]

/-- Checks the length of a string. -/
def checkLength (limit : Nat) : Check
  | .text s => if s.length < limit then [.tooShort (.text s) limit] else []
  | _ => []

/-- Checks the length of a list. -/
def checkCount (limit : Nat) : Check
  | .array items => if items.length < limit then [.tooFew (.array items) limit] else []
  | _ => []

/-- Checks that keys are there. -/
def checkRequired (keys : List String) : Check
  | .object fields => (keys.filter fun key => !OrderedMap.contains fields key).map .missing
  | _ => []

/-- Checks the fields of an object in the order of a table. -/
def checkTable (table : List (String × Check)) : Check
  | .object fields =>
    table.flatMap fun entry => ((OrderedMap.get? fields entry.1).map entry.2).getD []
  | _ => []

/-- Checks the fields of an object in their order by a table, and those that are not in the table by
the last argument. -/
def checkFields (table : List (String × Check)) (rest : Check) : Check
  | .object fields => fields.flatMap fun field => ((OrderedMap.get? table field.1).getD rest) field.2
  | _ => []

/-- Checks that an object has no keys but those of a table. -/
def checkNoOthers (table : List (String × Check)) : Check
  | .object fields =>
    let others := (OrderedMap.keys fields).filter fun key => !OrderedMap.contains table key
    if others.isEmpty then [] else [.unexpected others]
  | _ => []

/-- Checks that an object has no fields. -/
def checkNoFields : Check
  | .object (field :: _) => [.forbidden field.2]
  | _ => []

/-- Checks the keys of an object. A schema that accepts nothing forbids the object as a whole. -/
def checkNames (names : Schema) (check : Check) : Check
  | .object [] => []
  | .object fields =>
    match names with
    | .nothing => [.forbidden (.object fields)]
    | _ => fields.flatMap fun field => check (.text field.1)
  | _ => []

/-- Checks the first items of a list, each by the check at its position. -/
def checkHeads (checks : List Check) : Check
  | .array items => (checks.zip items).flatMap fun head => head.1 head.2
  | _ => []

/-- Checks the items of a list that follow the first ones. -/
def checkItems (skipped : Nat) (check : Check) : Check
  | .array items => (items.drop skipped).flatMap check
  | _ => []

mutual

/-- Everything that is wrong with a value. -/
def violations : Schema → Check
  | .anything => fun _ => []
  | .nothing => fun value => [.forbidden value]
  | .all keywords => fun value => allViolations keywords value

/-- What is wrong by any of the keywords. -/
def allViolations : List Keyword → Check
  | [] => fun _ => []
  | keyword :: rest => fun value => keywordViolations keyword value ++ allViolations rest value

/-- What is wrong by a keyword. -/
def keywordViolations : Keyword → Check
  | .kinds wanted => checkKinds wanted
  | .options values => checkOptions values
  | .minLength limit => checkLength limit
  | .minItems limit => checkCount limit
  | .required keys => checkRequired keys
  | .properties table => checkTable (tabulated table)
  | .noOthers table => fun value =>
    checkFields (tabulated table) (fun _ => []) value ++ checkNoOthers (tabulated table) value
  | .noFields => checkNoFields
  | .others table rest => checkFields (tabulated table) (violations rest)
  | .propertyNames names => checkNames names (violations names)
  | .prefixItems heads => checkHeads (checksOf heads)
  | .items skipped each => checkItems skipped (violations each)

/-- The checks of a table of schemas. -/
def tabulated : List (String × Schema) → List (String × Check)
  | [] => []
  | (key, schema) :: rest => (key, violations schema) :: tabulated rest

/-- The checks of a list of schemas. -/
def checksOf : List Schema → List Check
  | [] => []
  | schema :: rest => violations schema :: checksOf rest

end

/-- The schema that the document of a file holds. -/
def ofDocument (path : Path) (document : Json) : Except Failure Schema :=
  match ofJson? document with
  | some schema => .ok schema
  | none => .error (.badSchema path)

/-- The rejection of a document. -/
def reject? (schema : Schema) (path : Path) (document : Json) : Option Rejection :=
  match schema.violations document with
  | [] => none
  | found => some ⟨path, found.map Violation.message⟩

/-- The rejection of a text. A text that holds no document is rejected for that. -/
def rejectText? (schema : Schema) (path : Path) (input : String) : Option Rejection :=
  match Json.parse input with
  | .ok document => schema.reject? path document
  | .error e => some ⟨path, ["invalid JSON: " ++ e.message]⟩

/-- A document is not rejected exactly if nothing is wrong with it. -/
theorem reject?_eq_none_iff (schema : Schema) (path : Path) (document : Json) :
    schema.reject? path document = none ↔ schema.violations document = [] := by
  unfold reject?
  split <;> simp_all

end Schema

end LayeredProfiles
