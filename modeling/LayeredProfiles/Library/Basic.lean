import LayeredProfiles.Failure

set_option autoImplicit false

/-!
# The parameter library

The library says what each parameter means and which settings go with it. Parameters stand in the
order in which their names first appear; a parameter that is defined twice has its last definition.

## Main definitions

* `ParameterDefinition` — what the library says about a parameter.
* `ParameterLibrary` — definitions by name, in order.
* `ParameterLibrary.ofDefinitions`, `ParameterLibrary.parse` — libraries from definitions and from
  the text of a file.
* `ParameterLibrary.get?`, `ParameterLibrary.names` — look-up and enumeration.
-/

namespace LayeredProfiles

/-- What the library says about a parameter. -/
structure ParameterDefinition where
  /-- The name of the parameter. -/
  name : String
  /-- What it means. -/
  description : Option String
  /-- The settings that go with it. -/
  settings : OrderedMap String Json
deriving DecidableEq, Repr

namespace ParameterDefinition

/-- The keys under which a description is looked for, in this order: the right one, then two
spellings found in older libraries. -/
def descriptionKeys : List String := ["description", "descripton", "desciption"]

/-- The description in an entry: the first string under one of the keys. -/
def descriptionIn? (fields : OrderedMap String Json) : Option String :=
  descriptionKeys.findSome? fun key => (OrderedMap.get? fields key).bind Json.text?

/-- The settings in an entry. -/
def settingsIn (name : String) (fields : OrderedMap String Json) :
    Except LibraryDefect (OrderedMap String Json) :=
  match OrderedMap.get? fields "settings" with
  | none | some .null => .ok []
  | some (.object settings) => .ok settings
  | some _ => .error (.settingsNotAnObject name)

/-- The definition in an entry. -/
def ofField (field : String × Json) : Except LibraryDefect ParameterDefinition :=
  match field.2 with
  | .object fields =>
    (settingsIn field.1 fields).map fun settings => ⟨field.1, descriptionIn? fields, settings⟩
  | _ => .error (.entryNotAnObject field.1)

end ParameterDefinition

/-- Definitions by name, in order. -/
structure ParameterLibrary where
  /-- The definitions under their names. -/
  entries : OrderedMap String ParameterDefinition
deriving DecidableEq, Repr

namespace ParameterLibrary

/-- The library of a list of definitions. -/
def ofDefinitions (definitions : List ParameterDefinition) : ParameterLibrary :=
  ⟨OrderedMap.ofList (definitions.map fun d => (d.name, d))⟩

/-- The library that a document holds. -/
def ofJson : Json → Except LibraryDefect ParameterLibrary
  | .object fields => (fields.mapM ParameterDefinition.ofField).map ofDefinitions
  | _ => .error .notAnObject

/-- The library that the text of a file holds. -/
def parse (path : Path) (input : String) : Except Failure ParameterLibrary :=
  match Json.parse input with
  | .error e => .error (.notJson path e)
  | .ok document => (ofJson document).mapError (.badLibrary path)

/-- The definition of a parameter. -/
def get? (library : ParameterLibrary) (name : String) : Option ParameterDefinition :=
  OrderedMap.get? library.entries name

/-- Whether a parameter is defined. -/
def contains (library : ParameterLibrary) (name : String) : Bool :=
  (library.get? name).isSome

/-- The names of the parameters, in order. -/
def names (library : ParameterLibrary) : List String :=
  OrderedMap.keys library.entries

/-- The definitions, in order. -/
def definitions (library : ParameterLibrary) : List ParameterDefinition :=
  library.entries.map Prod.snd

/-- The number of parameters. -/
def size (library : ParameterLibrary) : Nat :=
  library.entries.length

/-- Whether there is no parameter. -/
def isEmpty (library : ParameterLibrary) : Bool :=
  library.entries.isEmpty

/-- A parameter is defined exactly if its name is listed. -/
theorem contains_iff (library : ParameterLibrary) (name : String) :
    library.contains name = true ↔ name ∈ library.names :=
  OrderedMap.get?_isSome_iff library.entries name

end ParameterLibrary

end LayeredProfiles
