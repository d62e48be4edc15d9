import LayeredProfiles.Failure
import LayeredProfiles.Fragment.Basic

set_option autoImplicit false

/-!
# Reading fragments

The fields of a document are read in their order, so that of several bad fields the first one is
reported. The table of requests has two forms: a list of requests with their codes, or a mapping
from codes to requests. In the mapping the code stands outside, so a code inside is dropped.

## Main definitions

* `PidEntry.ofItem?`, `PidEntry.ofField?` — a request in either form.
* `PidEntry.table?` — a table in either form.
* `Fragment.ofJson`, `Fragment.ofDocument` — the fragment that a document holds.
* `Fragment.parse` — the fragment that a text holds.
-/

namespace LayeredProfiles

/-! ## Requests -/

namespace PidEntry

/-- A value that has to be a string if it is there. -/
def optionalText? : Option Json → Option (Option String)
  | none | some .null => some none
  | some (.text s) => some (some s)
  | some _ => none

/-- A mapping from names to texts. -/
def expressions? (value : Json) : Option (OrderedMap String String) := do
  (← value.fields?).mapM fun field => do pure (field.1, ← field.2.text?)

/-- The fields whose keys are not among the known ones. -/
def fieldsBeyond (known : List String) (fields : OrderedMap String Json) :
    OrderedMap String Json :=
  fields.filter fun field => !known.contains field.1

/-- A request as an item of a list. -/
def ofItem? (item : Json) : Option PidEntry := do
  let fields ← item.fields?
  let code ← (← OrderedMap.get? fields "pid").text?
  let setup ← optionalText? (OrderedMap.get? fields "pid_init")
  let parameters ← expressions? (← OrderedMap.get? fields "parameters")
  some (.of code setup parameters (fieldsBeyond ["pid", "pid_init", "parameters"] fields))

/-- A request under its code. The last of the other keys takes the place of a code inside. -/
def ofField? (field : String × Json) : Option PidEntry := do
  let fields ← field.2.fields?
  let setup ← optionalText? (OrderedMap.get? fields "pid_init")
  let parameters ← expressions? (← OrderedMap.get? fields "parameters")
  let extra := fieldsBeyond ["pid_init", "parameters"] fields
  some (.of field.1 setup parameters (OrderedMap.swapErase extra "pid"))

/-- A table of requests in either form. -/
def table? : Json → Option (List PidEntry)
  | .array items => items.mapM ofItem?
  | .object fields => fields.mapM ofField?
  | _ => none

end PidEntry

/-! ## Fragments -/

namespace Fragment

/-- A string that a field must hold. -/
def requiredText : Json → Except FragmentDefect String
  | .text s => .ok s
  | other => .error (.wrongKind other .text)

/-- A string that a field may hold. -/
def optionalText : Json → Except FragmentDefect (Option String)
  | .null => .ok none
  | other => (requiredText other).map some

/-- A truth value that a field may hold. -/
def optionalTruth : Json → Except FragmentDefect (Option Bool)
  | .null => .ok none
  | .bool b => .ok (some b)
  | other => .error (.wrongKind other .truth)

/-- Any value but null. -/
def optionalValue : Json → Option Json
  | .null => none
  | other => some other

/-- Takes a field of the document into the fragment. -/
def readField (f : Fragment) (field : String × Json) : Except FragmentDefect Fragment :=
  let value := field.2
  match field.1 with
  | "car_model" => (requiredText value).map fun s => { f with carModel := s }
  | "init" => (optionalText value).map fun s => { f with init := s }
  | "extends" => (optionalText value).map fun s => { f with parent := s }
  | "pids" =>
    match PidEntry.table? value with
    | some table => .ok { f with pids := some table }
    | none => .error .unreadablePids
  | "add_to_docs" => (optionalTruth value).map fun b => { f with addToDocs := b }
  | "note" => (optionalText value).map fun s => { f with note := s }
  | "comment" => .ok { f with comment := optionalValue value }
  | _ => .ok { f with extra := f.extra ++ [field] }

/-- The fragment that a document holds. -/
def ofJson : Json → Except FragmentDefect Fragment
  | .object fields => fields.foldlM readField empty
  | _ => .error .notAnObject

/-- The fragment that the document of a file holds. -/
def ofDocument (path : Path) (document : Json) : Except Failure Fragment :=
  (ofJson document).mapError (.badFragment path)

/-- The fragment that the text of a file holds. -/
def parse (path : Path) (input : String) : Except Failure Fragment :=
  match Json.parse input with
  | .error e => .error (.notJson path e)
  | .ok document => ofDocument path document

end Fragment

end LayeredProfiles
