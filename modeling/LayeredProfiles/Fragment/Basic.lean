import LayeredProfiles.Json.Basic

set_option autoImplicit false

/-!
# Fragments

A fragment describes one vehicle, or a base on which others build. Its table of requests lists, for
each request code, the expressions by which parameters are computed from the answer. Keys that a
fragment carries beyond the known ones are kept as they are, in their order.

## Main definitions

* `PidEntry`, `PidEntry.of` — a request and the expressions of the parameters that it carries.
* `Fragment` — a profile as it is written.
* `Fragment.listedInDocs` — whether the vehicle belongs in the document of supported vehicles.

## Implementation notes

A fragment without a table of requests differs from one with an empty table: the former may not
stand alone. A request carries the proof that no parameter and no other key stands in it twice.
-/

namespace LayeredProfiles

/-- A request and the expressions of the parameters that it carries. -/
structure PidEntry where
  /-- The code of the request. -/
  code : String
  /-- What is sent before the request. -/
  setup : Option String
  /-- The expression of each parameter. An empty one disables the parameter. -/
  parameters : OrderedMap String String
  /-- The keys beyond the known ones. -/
  extra : OrderedMap String Json
  /-- No parameter occurs twice. -/
  parameters_unique : OrderedMap.UniqueKeys parameters
  /-- No other key occurs twice. -/
  extra_unique : OrderedMap.UniqueKeys extra
deriving DecidableEq, Repr

/-- A request with the given expressions and other keys, of which a later one replaces an earlier
one of the same name. -/
def PidEntry.of (code : String) (setup : Option String) (expressions : List (String × String))
    (extra : List (String × Json)) : PidEntry where
  code := code
  setup := setup
  parameters := OrderedMap.ofList expressions
  extra := OrderedMap.ofList extra
  parameters_unique := OrderedMap.uniqueKeys_ofList expressions
  extra_unique := OrderedMap.uniqueKeys_ofList extra

/-- A request with nothing but the given expressions. -/
def PidEntry.ofExpressions (code : String) (expressions : List (String × String)) : PidEntry :=
  .of code none expressions []

/-- A profile as it is written. -/
structure Fragment where
  /-- The name of the vehicle. -/
  carModel : String
  /-- What is sent to set the adapter up. -/
  init : Option String
  /-- The fragment that this one builds on. -/
  parent : Option String
  /-- The table of requests, if there is one. -/
  pids : Option (List PidEntry)
  /-- Whether the vehicle is to be listed, if the fragment says so. -/
  addToDocs : Option Bool
  /-- What is to be said about the vehicle where it is listed. -/
  note : Option String
  /-- What authors want to say to each other. -/
  comment : Option Json
  /-- The keys beyond the known ones. -/
  extra : OrderedMap String Json
deriving DecidableEq, Repr

namespace Fragment

/-- The fragment that says nothing. -/
def empty : Fragment :=
  ⟨"", none, none, none, none, none, none, []⟩

/-- The name of the base that exists only to be built on. -/
def genericCarModel : String := "AAA: Generic"

/-- Whether the vehicle belongs in the document of supported vehicles: it does unless the fragment
denies it, and the generic base never does. -/
def listedInDocs (f : Fragment) : Bool :=
  f.addToDocs.getD true && f.carModel != genericCarModel

end Fragment

end LayeredProfiles
