import LayeredProfiles.Json.Basic

set_option autoImplicit false

/-!
# Schemas

A schema says which documents are acceptable. It accepts everything, nothing, or whatever satisfies
a list of keywords, each of which speaks about documents of one kind only.

## Main definitions

* `ValueKind` — the kinds of values that a schema can ask for.
* `Schema`, `Keyword` — schemas and their keywords.
* `Schema.ofJson?` — the schema that a document holds.

## Implementation notes

A schema reads its keywords in a fixed order, whatever the order of the keys in its document. Keys
that are no keywords are ignored. A keyword with a value that it does not admit, anywhere in the
document, makes the document no schema.
-/

namespace LayeredProfiles

/-- The kinds of values that a schema can ask for. -/
inductive ValueKind where
  /-- Lists. -/
  | array
  /-- Truth values. -/
  | boolean
  /-- Whole numbers, however they are written. -/
  | integer
  /-- The value null. -/
  | null
  /-- Numbers. -/
  | number
  /-- Objects. -/
  | object
  /-- Strings. -/
  | string
deriving DecidableEq, Repr

namespace ValueKind

/-- All kinds, in the order of their names. -/
def all : List ValueKind :=
  [.array, .boolean, .integer, .null, .number, .object, .string]

/-- The name of a kind. -/
def name : ValueKind → String
  | .array => "array"
  | .boolean => "boolean"
  | .integer => "integer"
  | .null => "null"
  | .number => "number"
  | .object => "object"
  | .string => "string"

/-- The kind of a name. -/
def ofName? (s : String) : Option ValueKind :=
  all.find? fun kind => kind.name == s

/-- Whether a value is of a kind. -/
def admits (kind : ValueKind) (value : Json) : Bool :=
  match kind, value with
  | .array, .array _ => true
  | .boolean, .bool _ => true
  | .integer, value => value.wholeValue?.isSome
  | .null, .null => true
  | .number, .integer _ => true
  | .number, .double _ => true
  | .object, .object _ => true
  | .string, .text _ => true
  | _, _ => false

end ValueKind

mutual

/-- A schema. -/
inductive Schema where
  /-- Accepts every value. -/
  | anything
  /-- Accepts no value. -/
  | nothing
  /-- Accepts what satisfies all keywords. -/
  | all (keywords : List Keyword)

/-- A condition on values of one kind. -/
inductive Keyword where
  /-- A value is of one of the kinds. -/
  | kinds (wanted : List ValueKind)
  /-- A value is one of the options. -/
  | options (values : List Json)
  /-- A string has at least so many characters. -/
  | minLength (limit : Nat)
  /-- A list has at least so many items. -/
  | minItems (limit : Nat)
  /-- An object has the given keys. -/
  | required (keys : List String)
  /-- The fields of an object under the given keys satisfy the schemas there. -/
  | properties (table : List (String × Schema))
  /-- An object has no keys but those given, whose values satisfy the schemas there. -/
  | noOthers (table : List (String × Schema))
  /-- An object has no keys. -/
  | noFields
  /-- The other fields of an object satisfy a schema, too. -/
  | others (table : List (String × Schema)) (rest : Schema)
  /-- The keys of an object satisfy a schema. -/
  | propertyNames (names : Schema)
  /-- The first items of a list satisfy the schemas at their positions. -/
  | prefixItems (heads : List Schema)
  /-- The items of a list satisfy a schema, but for the first ones, as many as given. -/
  | items (skipped : Nat) (each : Schema)

end

namespace Schema

/-! ## Reading -/

/-- The keywords of a schema, by name. -/
structure Parts where
  /-- The kinds of values. -/
  kinds : Option (List ValueKind)
  /-- The options. -/
  options : Option (List Json)
  /-- The least number of characters. -/
  minLength : Option Nat
  /-- The least number of items. -/
  minItems : Option Nat
  /-- The keys that must be there. -/
  required : Option (List String)
  /-- The schemas of fields. -/
  properties : Option (List (String × Schema))
  /-- The schema of the other fields. -/
  others : Option Schema
  /-- The schema of keys. -/
  propertyNames : Option Schema
  /-- The schemas of the first items, by their positions. -/
  prefixItems : Option (List Schema)
  /-- The schema of the other items. -/
  items : Option Schema

/-- No keyword. -/
def Parts.none : Parts :=
  ⟨.none, .none, .none, .none, .none, .none, .none, .none, .none, .none⟩

/-- The number of items that are checked by their positions. -/
def Parts.positional (parts : Parts) : Nat :=
  (parts.prefixItems.map List.length).getD 0

/-- The keyword for the fields of objects. Other fields that may be anything need no keyword. -/
def Parts.fields (parts : Parts) : Option Keyword :=
  match parts.properties, parts.others with
  | .none, .none | .none, some .anything => .none
  | some table, .none | some table, some .anything => some (.properties table)
  | .none, some .nothing => some .noFields
  | some table, some .nothing => some (.noOthers table)
  | table, some rest => some (.others (table.getD []) rest)

/-- The keywords in the order in which they are read. -/
def Parts.keywords (parts : Parts) : List Keyword :=
  [parts.kinds.map .kinds, parts.options.map .options, parts.minLength.map .minLength,
    parts.minItems.map .minItems, parts.required.map .required, parts.fields,
    parts.propertyNames.map .propertyNames, parts.prefixItems.map .prefixItems,
    parts.items.map (.items parts.positional)].filterMap id

/-- The kinds that a value names: one, or several different ones. -/
def kinds? : Json → Option (List ValueKind)
  | .text name => (ValueKind.ofName? name).map fun kind => [kind]
  | .array names => do
    let kinds ← names.mapM fun name => name.text?.bind ValueKind.ofName?
    if kinds.Nodup ∧ kinds ≠ [] then some kinds else none
  | _ => none

/-- The options that a value lists. -/
def options? : Json → Option (List Json)
  | .array values => some values
  | _ => none

/-- The number that a value gives as a limit. -/
def limit? (value : Json) : Option Nat := do
  let n ← value.wholeValue?
  if 0 ≤ n then some n.toNat else none

/-- The different keys that a value lists. -/
def keys? (value : Json) : Option (List String) := do
  let keys ← value.texts?
  if keys.Nodup then some keys else none

mutual

/-- The schema that a document holds. -/
def ofJson? : Json → Option Schema
  | .bool true => some .anything
  | .bool false => some .nothing
  | .object fields => (readParts fields).map fun parts => .all parts.keywords
  | _ => none

/-- The keywords among fields. -/
def readParts : List (String × Json) → Option Parts
  | [] => some .none
  | (key, value) :: rest => do
    let parts ← readParts rest
    match key with
    | "type" => (kinds? value).map fun kinds => { parts with kinds := some kinds }
    | "enum" => (options? value).map fun values => { parts with options := some values }
    | "minLength" => (limit? value).map fun n => { parts with minLength := some n }
    | "minItems" => (limit? value).map fun n => { parts with minItems := some n }
    | "required" => (keys? value).map fun keys => { parts with required := some keys }
    | "properties" =>
      match value with
      | .object fields => (readTable fields).map fun table => { parts with properties := some table }
      | _ => none
    | "additionalProperties" => (ofJson? value).map fun s => { parts with others := some s }
    | "propertyNames" => (ofJson? value).map fun s => { parts with propertyNames := some s }
    | "prefixItems" =>
      match value with
      | .array (first :: more) =>
        (readList (first :: more)).map fun heads => { parts with prefixItems := some heads }
      | _ => none
    | "items" => (ofJson? value).map fun s => { parts with items := some s }
    | _ => some parts

/-- A table of schemas. -/
def readTable : List (String × Json) → Option (List (String × Schema))
  | [] => some []
  | (key, value) :: rest => do
    let schema ← ofJson? value
    let table ← readTable rest
    some ((key, schema) :: table)

/-- A list of schemas. -/
def readList : List Json → Option (List Schema)
  | [] => some []
  | value :: rest => do
    let schema ← ofJson? value
    let more ← readList rest
    some (schema :: more)

end

end Schema

end LayeredProfiles
