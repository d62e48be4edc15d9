import LayeredProfiles.Fragment.Basic
import LayeredProfiles.Json.Writer
import LayeredProfiles.Profile.Basic
import LayeredProfiles.Text.Lowercase

set_option autoImplicit false

/-!
# The artifact

The artifact holds all profiles in the order in which they are shown: by the name of the vehicle in
lower case, then by the name as it is, then by the key of the fragment.

## Main definitions

* `ResolvedProfile.compare` — the order of profiles.
* `Artifact`, `Artifact.ofProfiles` — profiles in their order.
* `Artifact.toText` — the written form.
* `Artifact.documented` — the profiles that are listed.

## Main results

* `Artifact.ofProfiles_perm` — the artifact holds exactly the given profiles.
-/

namespace LayeredProfiles

/-- The order of profiles. -/
def ResolvedProfile.compare (a b : ResolvedProfile) : Ordering :=
  ((Ord.compare (Text.lowercase a.carModel) (Text.lowercase b.carModel)).then
    (Ord.compare a.carModel b.carModel)).then (a.source.compare b.source)

/-- Profiles in their order. -/
structure Artifact where
  /-- The profiles. -/
  cars : List ResolvedProfile
deriving DecidableEq, Repr

namespace Artifact

/-- Puts profiles in their order. -/
def ofProfiles (profiles : List ResolvedProfile) : Artifact :=
  ⟨profiles.mergeSort fun a b => a.compare b != .gt⟩

/-- The artifact as a document. -/
def toJson (artifact : Artifact) : Json :=
  .object [("cars", .array (artifact.cars.map ResolvedProfile.toJson))]

/-- The text of the artifact, indented or compact. -/
def toText (artifact : Artifact) (pretty : Bool) : String :=
  if pretty then artifact.toJson.toPrettyText else artifact.toJson.toText

/-- The profiles that are listed. The generic base is never one of them. -/
def documented (artifact : Artifact) : List ResolvedProfile :=
  artifact.cars.filter fun car => car.listedInDocs && car.carModel != Fragment.genericCarModel

/-- The artifact holds exactly the given profiles. -/
theorem ofProfiles_perm (profiles : List ResolvedProfile) :
    (ofProfiles profiles).cars.Perm profiles :=
  List.mergeSort_perm profiles _

end Artifact

end LayeredProfiles
