import LayeredProfiles.Layers.Origins
import LayeredProfiles.Library.Basic
import LayeredProfiles.Profile.Basic

set_option autoImplicit false

/-!
# Joining parameters with their settings

Each parameter of a merged fragment is looked up in the library. The first one that the library
does not have is reported, against the fragment that it comes from.

## Main definitions

* `EnrichedParameter.of` — a parameter with its settings.
* `ResolvedPid.of` — a request with its parameters.
* `ResolvedProfile.of` — the profile that a merged fragment amounts to.
-/

namespace LayeredProfiles

/-- A parameter with its settings, or its name if the library does not have it. -/
def EnrichedParameter.of (library : ParameterLibrary) (parameter : String × String) :
    Except String EnrichedParameter :=
  match library.get? parameter.1 with
  | some definition => .ok ⟨parameter.1, parameter.2, definition.settings⟩
  | none => .error parameter.1

/-- A request with its parameters, or the first name that the library does not have. -/
def ResolvedPid.of (library : ParameterLibrary) (entry : PidEntry) :
    Except String ResolvedPid := do
  let parameters ← entry.parameters.mapM (EnrichedParameter.of library)
  pure ⟨entry.code, entry.setup, parameters, entry.extra⟩

/-- The profile that a merged fragment amounts to. An unknown parameter is reported against the
fragment that it comes from, or else against the leaf. -/
def ResolvedProfile.of (source : Path) (merged : Fragment) (library : ParameterLibrary)
    (origins : Origins) : Except Failure ResolvedProfile :=
  match merged.pids with
  | none => .error (.badFragment source .noPids)
  | some table =>
    match table.mapM (ResolvedPid.of library) with
    | .error name => .error (.unknownParameter ((origins.of? name).getD source) name)
    | .ok pids =>
      .ok ⟨merged.carModel, merged.init, pids, merged.extra, merged.note, merged.listedInDocs,
        source⟩

end LayeredProfiles
