import Mathlib.Data.List.Basic
import LayeredProfiles.Path.Normalized

set_option autoImplicit false

/-!
# Paths made of names

A name is what a directory can have an entry under: it is not empty, is no dot and no two dots, and
holds no slash. A path made of names consists of exactly these names, so it is normalized, and two
such paths are the same only if their names are.

## Main definitions

* `Path.IsName` — what a directory can have an entry under.

## Main results

* `Path.isName_of_mem_names` — what is left of a path when it is normalized are names.
* `Path.components_ofNames` — the components of a path made of names.
* `Path.normalized_ofNames` — such a path is normalized.
* `Path.ofNames_inj` — such a path has only one list of names.
-/

namespace LayeredProfiles.Path

/-- What a directory can have an entry under. -/
def IsName (name : String) : Prop :=
  '/' ∉ name.toList ∧ component? name.toList = some (.name name)

instance (name : String) : Decidable (IsName name) :=
  inferInstanceAs (Decidable (_ ∧ _))

/-- A name between two slashes means something. -/
lemma IsName.ne_void {name : String} (h : IsName name) :
    name.toList ≠ [] ∧ name.toList ≠ ['.'] := by
  have hcomponent := h.2
  constructor
  · intro hempty
    simp [component?, isVoid, hempty] at hcomponent
  · intro hdot
    simp [component?, isVoid, hdot] at hcomponent

/-- What is a name, said of its characters. -/
lemma isName_iff {name : String} : IsName name ↔
    '/' ∉ name.toList ∧ name.toList ≠ [] ∧ name.toList ≠ ['.'] ∧ name.toList ≠ ['.', '.'] := by
  refine and_congr_right fun _ => ?_
  unfold component? isVoid
  split_ifs with hvoid hdots
  · simp only [false_iff]
    rintro ⟨hempty, hdot, -⟩
    simp_all
  · simp [hdots]
  · simp_all

/-- A name that is continued is a name. -/
lemma IsName.append {name suffix : String} (h : IsName name) (hsuffix : '/' ∉ suffix.toList) :
    IsName (name ++ suffix) := by
  obtain ⟨hslash, hempty, hdot, hdots⟩ := isName_iff.1 h
  rw [isName_iff, String.toList_append]
  refine ⟨by simp [hslash, hsuffix], by simp [hempty], ?_, ?_⟩
  · cases hname : name.toList with
    | nil => exact absurd hname hempty
    | cons c rest => cases rest <;> simp_all
  · cases hname : name.toList with
    | nil => exact absurd hname hempty
    | cons c rest =>
      cases rest with
      | nil => simp_all
      | cons d more => cases more <;> simp_all

/-- The piece that a name stands for is the name. -/
lemma eq_toList_of_component? {piece : List Char} {name : String}
    (h : component? piece = some (.name name)) : piece = name.toList := by
  unfold component? at h
  split_ifs at h
  · cases h
  · rw [← Component.name.inj (Option.some.inj h), String.toList_ofList]

/-- The components of a path that are names are names. -/
lemma isName_of_mem_components {p : Path} {name : String} (h : .name name ∈ p.components) :
    IsName name := by
  have hsub : ∀ piece ∈ p.pieces.2, '/' ∉ piece := by
    intro piece hpiece
    have hsplit : piece ∈ Text.splitAt '/' p.text.toList := by
      unfold pieces at hpiece
      split at hpiece <;> simp_all
    exact Text.not_mem_of_mem_splitAt hsplit
  rcases List.mem_append.1 h with hfront | hrest
  · unfold pieces at hfront
    split at hfront <;> simp_all
  · obtain ⟨piece, hpiece, hcomponent⟩ := List.mem_filterMap.1 hrest
    have hname := eq_toList_of_component? hcomponent
    exact ⟨hname ▸ hsub piece hpiece, hname ▸ hcomponent⟩

/-- The names that are left of a path are names. -/
lemma isName_of_mem_names {p : Path} : ∀ name ∈ p.names, IsName name := by
  have hfold : ∀ (components : List Component) (stack : List String),
      (∀ name ∈ stack, IsName name) → (∀ name, .name name ∈ components → IsName name) →
      ∀ name ∈ foldNames stack components, IsName name := by
    intro components
    induction components with
    | nil => exact fun stack hstack _ => hstack
    | cons component rest ih =>
      intro stack hstack hcomponents
      refine ih (foldComponent stack component) (fun name hname => ?_)
        fun name hname => hcomponents name (List.mem_cons_of_mem _ hname)
      cases component with
      | root => exact hstack name hname
      | current => exact hstack name hname
      | parent => exact hstack name (List.mem_of_mem_drop hname)
      | name text =>
        rcases List.mem_cons.1 hname with rfl | hrest
        · exact hcomponents _ List.mem_cons_self
        · exact hstack name hrest
  intro name hname
  refine hfold p.components [] (by simp) (fun name => isName_of_mem_components) name ?_
  exact List.mem_reverse.1 hname

variable {names : List String}

/-- The pieces of a path made of names are the names. -/
lemma splitAt_ofNames (hne : names ≠ []) (h : ∀ name ∈ names, IsName name) :
    Text.splitAt '/' (ofNames names).text.toList = names.map String.toList := by
  have hsep : ∀ piece ∈ names.map String.toList, '/' ∉ piece := by
    intro piece hpiece
    obtain ⟨name, hname, rfl⟩ := List.mem_map.1 hpiece
    exact (h name hname).1
  rw [ofNames, String.toList_ofList]
  exact Text.splitAt_joinWith (by simpa using hne) hsep

/-- Nothing stands in front of a path made of names. -/
lemma pieces_ofNames (h : ∀ name ∈ names, IsName name) :
    (ofNames names).pieces = (none, names.map String.toList) := by
  cases names with
  | nil => rfl
  | cons first rest =>
    obtain ⟨hempty, hdot⟩ := (h first List.mem_cons_self).ne_void
    unfold pieces
    rw [splitAt_ofNames (List.cons_ne_nil first rest) h, List.map_cons]
    split <;> simp_all

/-- Each name stands for itself. -/
lemma filterMap_component? (h : ∀ name ∈ names, IsName name) :
    (names.map String.toList).filterMap component? = names.map .name := by
  rw [List.filterMap_map, ← List.filterMap_eq_map]
  exact List.filterMap_congr fun name hname => (h name hname).2

/-- A path made of names consists of these names. -/
lemma components_ofNames (h : ∀ name ∈ names, IsName name) :
    (ofNames names).components = names.map .name := by
  simp [components, pieces_ofNames h, filterMap_component? h]

/-- All names of a path made of names are left of it. -/
lemma names_ofNames (h : ∀ name ∈ names, IsName name) : (ofNames names).names = names :=
  names_eq_of_components (components_ofNames h)

/-- A path made of names is normalized. -/
lemma normalized_ofNames (h : ∀ name ∈ names, IsName name) :
    (ofNames names).normalized = ofNames names := by
  rw [normalized, names_ofNames h]

/-- A path made of names has only one list of names. -/
lemma ofNames_inj {others : List String} (h : ∀ name ∈ names, IsName name)
    (hothers : ∀ name ∈ others, IsName name) (hsame : ofNames names = ofNames others) :
    names = others := by
  have hcomponents : names.map Component.name = others.map Component.name := by
    rw [← components_ofNames h, ← components_ofNames hothers, hsame]
  exact List.map_injective_iff.2 (fun _ _ => Component.name.inj) hcomponents

end LayeredProfiles.Path
