import LayeredProfiles.Fragment.Basic

set_option autoImplicit false

/-!
# Writing requests

## Main definitions

* `PidEntry.toJson` — a request as an item of a list: its code, its setup if it has one, its
  expressions, then the keys beyond the known ones.
* `PidEntry.tableToJson` — a table of requests as a list.
-/

namespace LayeredProfiles.PidEntry

/-- The field of a value that may be missing. -/
def optionalField (key : String) (value : Option String) : OrderedMap String Json :=
  (value.map fun s => (key, Json.text s)).toList

/-- A request as an item of a list. -/
def toJson (entry : PidEntry) : Json :=
  .object ((("pid", .text entry.code) :: optionalField "pid_init" entry.setup) ++
    ("parameters", .object (entry.parameters.map fun p => (p.1, .text p.2))) :: entry.extra)

/-- A table of requests as a list. -/
def tableToJson (table : List PidEntry) : Json :=
  .array (table.map toJson)

end LayeredProfiles.PidEntry
