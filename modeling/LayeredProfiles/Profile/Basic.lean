import LayeredProfiles.Fragment.Writing
import LayeredProfiles.Path.Basic

set_option autoImplicit false

/-!
# Profiles

A profile is what a fragment amounts to after its layers are merged and its parameters are joined
with their settings. It is written without what only the documents need: the note, whether it is
listed, and the key of its fragment.

## Main definitions

* `EnrichedParameter`, `ResolvedPid`, `ResolvedProfile` — the parts of a profile.
* `EnrichedParameter.toJson`, `ResolvedPid.toJson`, `ResolvedProfile.toJson` — the written form.
-/

namespace LayeredProfiles

/-- A parameter with its settings. -/
structure EnrichedParameter where
  /-- The name of the parameter. -/
  name : String
  /-- How it is computed from the answer to the request. -/
  expression : String
  /-- The settings that the library gives it. -/
  settings : OrderedMap String Json
deriving DecidableEq, Repr

/-- A request with its parameters. -/
structure ResolvedPid where
  /-- The code of the request. -/
  code : String
  /-- What is sent before the request. -/
  setup : Option String
  /-- The parameters that the answer carries. -/
  parameters : List EnrichedParameter
  /-- The keys beyond the known ones. -/
  extra : OrderedMap String Json
deriving DecidableEq, Repr

/-- A profile that is ready to be written. -/
structure ResolvedProfile where
  /-- The name of the vehicle. -/
  carModel : String
  /-- What is sent to set the adapter up. -/
  init : Option String
  /-- The table of requests. -/
  pids : List ResolvedPid
  /-- The leaf's keys beyond the known ones. -/
  extra : OrderedMap String Json
  /-- What is to be said about the vehicle where it is listed. -/
  note : Option String
  /-- Whether the vehicle is to be listed. -/
  listedInDocs : Bool
  /-- The key of the leaf. -/
  source : Path
deriving DecidableEq, Repr

/-- The keys of a parameter that its settings cannot have. -/
def EnrichedParameter.ownKeys : List String := ["name", "expression"]

/-- A parameter as it is written: name and expression, then the settings under other keys. -/
def EnrichedParameter.toJson (p : EnrichedParameter) : Json :=
  .object (("name", .text p.name) :: ("expression", .text p.expression) ::
    p.settings.filter fun setting => !ownKeys.contains setting.1)

/-- A request as it is written. -/
def ResolvedPid.toJson (pid : ResolvedPid) : Json :=
  .object ((("pid", .text pid.code) :: PidEntry.optionalField "pid_init" pid.setup) ++
    ("parameters", .array (pid.parameters.map EnrichedParameter.toJson)) :: pid.extra)

/-- A profile as it is written. -/
def ResolvedProfile.toJson (profile : ResolvedProfile) : Json :=
  .object ((("car_model", .text profile.carModel) :: PidEntry.optionalField "init" profile.init) ++
    ("pids", .array (profile.pids.map ResolvedPid.toJson)) :: profile.extra)

end LayeredProfiles
