import LayeredProfiles.Library.Basic
import LayeredProfiles.Profile.Artifact

set_option autoImplicit false

/-!
# Generated documents

A generated document starts with a banner that warns against changing it. Then comes a body that
somebody wrote, and then one row for each vehicle or parameter.

## Main definitions

* `Document.vehicleRows`, `Document.parameterRows` — the rows of the two documents.
* `Document.render` — banner, body and rows.
* `Document.vehiclesBody`, `Document.parametersBody` — the bodies if no others are configured.
-/

namespace LayeredProfiles.Document

/-- The warning at the top of a generated document. -/
def banner : String :=
  "<!--\n\n" ++
  "================================================================\n" ++
  "THIS FILE WAS GENERATED! DO NOT UPDATE OR YOUR CHANGES ARE LOST!\n" ++
  "================================================================\n\n" ++
  "-->\n"

/-- The body of the document of supported vehicles if no other is configured. -/
def vehiclesBody : String :=
  "# Supported Vehicles\n" ++
  "WiCAN vehicle profiles are available for the vehicles listed below. These profiles contain " ++
  "vehicle-specific parameters, primarily for electric vehicles, but in some cases, standard " ++
  "vehicles may also have specific parameters such as odometer readings or fuel level.\n\n" ++
  "If your vehicle is a non-electric or hybrid model, you can try scanning standard PIDs using " ++
  "the Automate tab:\n" ++
  "https://meatpihq.github.io/wican-fw/config/automate/usage#standard-pids\n"

/-- The body of the document of supported parameters if no other is configured. -/
def parametersBody : String :=
  "# Supported Parameters\n\n" ++
  "| Parameter | Description | Settings |\n" ++
  "| --- | --- | --- |\n"

/-- The row of a vehicle, with its note if it has one. -/
def vehicleRow (car : ResolvedProfile) : String :=
  match car.note with
  | some note => "- " ++ car.carModel ++ " " ++ note ++ "\n"
  | none => "- " ++ car.carModel ++ "\n"

/-- The rows of the listed vehicles, in the order of the artifact. -/
def vehicleRows (artifact : Artifact) : String :=
  String.join (artifact.documented.map vehicleRow)

/-- The value of a setting in a row. -/
def settingText : Json → String
  | .text s => s
  | value => value.toText

/-- The row of a parameter: its name, its description and its settings. -/
def parameterRow (definition : ParameterDefinition) : String :=
  let settings := definition.settings.map fun setting =>
    setting.1 ++ ": " ++ settingText setting.2
  "| `" ++ definition.name ++ "` | " ++ definition.description.getD "" ++ " | " ++
    ", ".intercalate settings ++ " |\n"

/-- The rows of the parameters, in the order of the library. -/
def parameterRows (library : ParameterLibrary) : String :=
  String.join (library.definitions.map parameterRow)

/-- Ends a body with a line break, unless it has one or is empty. -/
def withLineEnd (body : String) : String :=
  match body.toList.getLast? with
  | none => body
  | some c => if c = '\n' then body else body ++ "\n"

/-- A document of a body and rows. -/
def render (body rows : String) : String :=
  banner ++ withLineEnd body ++ rows

end LayeredProfiles.Document
