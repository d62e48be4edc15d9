import LayeredProfiles.Profile.Artifact
import LayeredProfiles.Proofs.Path.Order
import Mathlib.Data.List.Nodup

set_option autoImplicit false

/-!
# The order of an artifact

Profiles are compared by three keys in turn. The comparison is a total order up to profiles with the
same name and the same fragment, so of profiles from distinct fragments there is only one list in
order: it does not matter in which order they were put together.

## Main definitions

* `ResolvedProfile.Precedes` — the order of profiles, spelt out.

## Main results

* `Artifact.pairwise_precedes` — an artifact is in order.
* `Artifact.ofProfiles_congr` — profiles from distinct fragments make one artifact only.
-/

namespace LayeredProfiles

namespace ResolvedProfile

/-- A profile does not come after another one: its name in lower case is the smaller one, or these
are the same and its name is the smaller one, or the names are the same and the components of its
key do not come after those of the other key. -/
def Precedes (a b : ResolvedProfile) : Prop :=
  Ord.compare (Text.lowercase a.carModel) (Text.lowercase b.carModel) = .lt ∨
    Text.lowercase a.carModel = Text.lowercase b.carModel ∧
      (Ord.compare a.carModel b.carModel = .lt ∨
        a.carModel = b.carModel ∧ a.source.le b.source = true)

/-- Profiles are ordered by their names in lower case, by their names and by their keys. -/
lemma compare_eq_compareLex :
    compare = compareLex (compareLex (compareOn fun car => Text.lowercase car.carModel)
      (compareOn carModel)) fun a b => Path.compare a.source b.source := rfl

instance : Std.TransCmp fun a b : ResolvedProfile => Path.compare a.source b.source where
  eq_swap := Std.OrientedCmp.eq_swap
  isLE_trans := Std.TransCmp.isLE_trans

instance : Std.TransCmp compare := by
  rw [compare_eq_compareLex]
  infer_instance

/-- Two profiles come at the same place only if their keys have the same components. -/
lemma components_eq_of_compare {a b : ResolvedProfile} (h : compare a b = .eq) :
    a.source.components = b.source.components :=
  Path.compare_eq_eq_iff.1 (Ordering.then_eq_eq.1 h).2

/-- What the comparison of profiles amounts to. -/
lemma isLE_compare_iff {a b : ResolvedProfile} : (a.compare b).isLE ↔ a.Precedes b := by
  have hle : a.source.le b.source = (a.source.compare b.source).isLE := by
    unfold Path.le
    cases a.source.compare b.source <;> rfl
  unfold ResolvedProfile.compare Precedes
  rw [hle]
  -- the table of letters is not to be looked into
  generalize Text.lowercase a.carModel = lowerA, Text.lowercase b.carModel = lowerB
  rw [Ordering.isLE_then_iff_or, Ordering.then_eq_lt, Ordering.then_eq_eq]
  simp only [Std.LawfulEqOrd.compare_eq_iff_eq, or_assoc, and_assoc, ← and_or_left]

end ResolvedProfile

namespace Artifact

/-- An artifact is in order. -/
lemma pairwise_isLE (profiles : List ResolvedProfile) :
    (ofProfiles profiles).cars.Pairwise fun a b => (a.compare b).isLE :=
  pairwise_mergeSort_isLE ResolvedProfile.compare profiles

/-- An artifact is in the order of names in lower case, names and keys. -/
lemma pairwise_precedes (profiles : List ResolvedProfile) :
    (ofProfiles profiles).cars.Pairwise ResolvedProfile.Precedes :=
  (pairwise_isLE profiles).imp ResolvedProfile.isLE_compare_iff.1

/-- **Profiles from distinct fragments make one artifact only**, in whatever order they are given.

**Proof sketch.** Both artifacts are in order and hold the same profiles. Where two of these come at
the same place, their keys have the same components, so they are one and the same. -/
lemma ofProfiles_congr {profiles others : List ResolvedProfile} (hperm : profiles.Perm others)
    (hnodup : (profiles.map fun car => car.source.components).Nodup) :
    ofProfiles profiles = ofProfiles others := by
  have hcars : (ofProfiles profiles).cars.Perm (ofProfiles others).cars :=
    ((ofProfiles_perm profiles).trans hperm).trans (ofProfiles_perm others).symm
  refine congrArg Artifact.mk ?_
  refine List.Perm.eq_of_pairwise ?_ (pairwise_isLE profiles) (pairwise_isLE others) hcars
  intro a b ha hb hab hba
  have hplace : a.compare b = .eq := Std.OrientedCmp.isLE_antisymm hab hba
  refine List.inj_on_of_nodup_map hnodup ((ofProfiles_perm profiles).subset ha) ?_
    (ResolvedProfile.components_eq_of_compare hplace)
  exact hperm.symm.subset ((ofProfiles_perm others).subset hb)

end Artifact

end LayeredProfiles
