import LayeredProfiles.Path.Basic
import Mathlib.Data.List.Pairwise
import Mathlib.Tactic.Lemma

set_option autoImplicit false

/-!
# The order of paths

Paths are ordered like words whose letters are their components. This is a total order of lists of
components, so two paths come at the same place exactly if they consist of the same components.

## Main definitions

* `Component.rank` — the place of a kind of component among the others.

## Main results

* `pairwise_mergeSort_isLE`, `mergeSort_eq_of_perm` — sorting by a comparison puts a list in its
  order, and there is only one if the items come one before the other.
* `Path.compareComponents_eq` — the order is the order of words.
* `Path.compare_eq_eq_iff` — which paths come at the same place.
* `Path.compareComponents_append_left` — what paths have in common at the front does not matter.
* `Path.pairwise_sort` — distinct paths in order.
-/

namespace LayeredProfiles

/-- Sorting by a comparison puts a list in its order. -/
lemma pairwise_mergeSort_isLE {α : Type} (cmp : α → α → Ordering) [Std.TransCmp cmp]
    (items : List α) :
    (items.mergeSort fun a b => cmp a b != .gt).Pairwise fun a b => (cmp a b).isLE := by
  have hle : (fun a b => cmp a b != .gt) = fun a b => (cmp a b).isLE := by
    funext a b
    cases cmp a b <;> rfl
  rw [hle]
  refine List.pairwise_mergeSort (fun a b c => Std.TransCmp.isLE_trans) (fun a b => ?_) items
  have hswap : cmp b a = (cmp a b).swap := Std.OrientedCmp.eq_swap
  rw [hswap]
  cases cmp a b <;> rfl

/-- Sorting finds the order in which the items come one before the other. -/
lemma mergeSort_eq_of_perm {α : Type} (cmp : α → α → Ordering) [Std.TransCmp cmp]
    {found items : List α} (hperm : found.Perm items)
    (hsorted : items.Pairwise fun a b => cmp a b = .lt) :
    (found.mergeSort fun a b => cmp a b != .gt) = items := by
  -- items that come at the same place are the same one, since two would come one before the other
  have hsame : ∀ ⦃a⦄, a ∈ items → ∀ ⦃b⦄, b ∈ items → cmp a b = .eq → a = b := by
    refine List.Pairwise.forall_of_forall_of_flip (fun _ _ _ => rfl) (hsorted.imp ?_)
      (hsorted.imp ?_)
    · intro a b hlt heq
      rw [hlt] at heq
      cases heq
    · intro a b hlt heq
      have hswap : cmp b a = (cmp a b).swap := Std.OrientedCmp.eq_swap
      rw [heq, hlt] at hswap
      cases hswap
  have hboth := (List.mergeSort_perm found fun a b => cmp a b != .gt).trans hperm
  refine List.Perm.eq_of_pairwise ?_ (pairwise_mergeSort_isLE cmp found)
    (hsorted.imp fun hlt => by rw [hlt]; rfl) hboth
  intro a b ha hb hab hba
  exact hsame (hboth.subset ha) hb (Std.OrientedCmp.isLE_antisymm hab hba)

namespace Component

/-- The place of a kind of component: root, dot, two dots, then names. -/
def rank : Component → Nat
  | .root => 0
  | .current => 1
  | .parent => 2
  | .name _ => 3

/-- Components are ordered by their kind, and names by their text. -/
lemma compare_eq_compareLex :
    compare = compareLex (compareOn rank) (compareOn text) := by
  funext a b
  cases a <;> cases b <;> rfl

instance : Std.TransCmp compare := by
  rw [compare_eq_compareLex]
  infer_instance

instance : Std.LawfulEqCmp compare where
  eq_of_compare {a b} h := by
    cases a <;> cases b <;> simp_all [compare]

end Component

namespace Path

/-- The order of lists of components is the order of words. -/
lemma compareComponents_eq : compareComponents = List.compareLex Component.compare := by
  funext a b
  induction a generalizing b with
  | nil => cases b <;> rfl
  | cons c as ih =>
    cases b with
    | nil => rfl
    | cons d bs => simp [compareComponents, List.compareLex_cons_cons, ih]

instance : Std.TransCmp compareComponents := by
  rw [compareComponents_eq]
  infer_instance

instance : Std.LawfulEqCmp compareComponents := by
  rw [compareComponents_eq]
  infer_instance

instance : Std.TransCmp compare where
  eq_swap {a b} := by
    unfold compare
    exact Std.OrientedCmp.eq_swap
  isLE_trans {a b c} hab hbc := by
    unfold compare at *
    exact Std.TransCmp.isLE_trans hab hbc

/-- Two paths come at the same place exactly if they consist of the same components. -/
lemma compare_eq_eq_iff {a b : Path} : compare a b = .eq ↔ a.components = b.components := by
  unfold compare
  exact Std.LawfulEqCmp.compare_eq_iff_eq

/-- Lists of components that start alike are ordered by what follows. -/
lemma compareComponents_append_left (front a b : List Component) :
    compareComponents (front ++ a) (front ++ b) = compareComponents a b := by
  induction front with
  | nil => rfl
  | cons c rest ih =>
    have hsame : c.compare c = .eq := Std.ReflCmp.compare_self
    simp only [List.cons_append, compareComponents]
    rw [hsame, ih]
    rfl

/-- Sorted paths of different components come one before the other. -/
lemma pairwise_sort {paths : List Path} (h : (paths.map components).Nodup) :
    (sort paths).Pairwise fun a b => compare a b = .lt := by
  have hdistinct : (sort paths).Pairwise fun a b => a.components ≠ b.components := by
    rw [← List.pairwise_map]
    exact ((List.mergeSort_perm paths le).map components).nodup_iff.2 h
  refine (pairwise_mergeSort_isLE compare paths).imp₂ (fun a b hle hne => ?_) hdistinct
  cases hcompare : compare a b with
  | lt => rfl
  | eq => exact absurd (compare_eq_eq_iff.1 hcompare) hne
  | gt => simp [hcompare] at hle

/-- Paths that come one before the other are different. -/
lemma nodup_of_pairwise {paths : List Path} (h : paths.Pairwise fun a b => compare a b = .lt) :
    paths.Nodup := by
  refine h.imp fun {a b} hlt => ?_
  rintro rfl
  have heq : compare a a = .eq := compare_eq_eq_iff.2 rfl
  rw [hlt] at heq
  cases heq

end Path

end LayeredProfiles
