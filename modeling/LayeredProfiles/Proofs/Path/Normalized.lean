import LayeredProfiles.Proofs.Path.Joining

set_option autoImplicit false

/-!
# Laws of normalized paths

Normalizing folds the components of a path onto a stack of names, from left to right. What stands at
the very front of a path, a slash or a dot, leaves the stack as it is, so only the pieces count.
Seen from a directory, a relative path therefore goes on with the stack that the directory leaves,
and it does not matter whether the directory is normalized before.

## Main results

* `Path.components_normalized` — a normalized path consists of names.
* `Path.normalized_normalized` — normalizing again changes nothing.
* `Path.foldNames_join` — folding goes on behind a directory.
* `Path.normalized_join` — a directory can be normalized before something is seen from it.
* `Path.relativeTo?_join_ofNames` — what is left of names that are seen from a directory.
-/

namespace LayeredProfiles.Path

variable {p dir : Path}

/-- A normalized path consists of the names that are left. -/
lemma components_normalized (p : Path) : p.normalized.components = p.names.map .name :=
  components_ofNames isName_of_mem_names

/-- The names that are left of a path stay when it is normalized. -/
lemma names_normalized (p : Path) : p.normalized.names = p.names :=
  names_ofNames isName_of_mem_names

/-- Normalizing again changes nothing. -/
lemma normalized_normalized (p : Path) : p.normalized.normalized = p.normalized := by
  rw [normalized, names_normalized, normalized]

/-- Paths have the same normalized form exactly if the same names are left of them. -/
lemma normalized_eq_iff {q : Path} : p.normalized = q.normalized ↔ p.names = q.names := by
  refine ⟨fun h => ?_, fun h => by rw [normalized, normalized, h]⟩
  exact ofNames_inj isName_of_mem_names isName_of_mem_names h

/-! ## Folding pieces -/

/-- The first piece of a path counts like any other one. -/
lemma foldNames_firstComponents (stack : List String) (piece : List Char) :
    foldNames stack (firstComponents piece) = foldNames stack (component? piece).toList := by
  unfold firstComponents
  split_ifs with hempty hdot
  · rw [hempty]
    rfl
  · rw [hdot]
    rfl
  · rfl

/-- Only the pieces of a path count. -/
lemma foldNames_components (stack : List String) (p : Path) :
    foldNames stack p.components = foldNames stack (p.split.filterMap component?) := by
  cases hsplit : p.split with
  | nil => exact absurd hsplit (Text.splitAt_ne_nil '/' p.text.toList)
  | cons first rest =>
    by_cases hempty : p.text = ""
    · rw [← hsplit, split_eq_singleton_nil_iff.2 hempty, components, pieces, hempty]
      rfl
    · rw [components_of_split hsplit hempty, filterMap_component?_cons, foldNames_append,
        foldNames_append, foldNames_firstComponents]

/-- The pieces in front of what is seen from a directory are those of the directory, but for an
empty one that is no component. -/
lemma filterMap_lead (dir : Path) :
    dir.lead.filterMap component? = dir.split.filterMap component? := by
  by_cases hempty : dir.text = ""
  · rw [split_eq_singleton_nil_iff.2 hempty, lead, if_pos hempty]
    rfl
  · rcases split_eq_lead_or hempty with hsplit | hsplit
    · rw [hsplit]
    · rw [hsplit, List.filterMap_append]
      exact (List.append_nil _).symm

/-- **Folding goes on behind a directory**: a relative path finds the names that the directory
leaves. -/
lemma foldNames_join (h : p.isAbsolute = false) (stack : List String) :
    foldNames stack (dir.join p).components =
      foldNames (foldNames stack dir.components) p.components := by
  rw [foldNames_components, foldNames_components stack dir, foldNames_components _ p, split_join h,
    List.filterMap_append, foldNames_append, filterMap_lead]

/-- A directory can be normalized before a relative path is seen from it. -/
lemma normalized_join (h : p.isAbsolute = false) :
    (dir.join p).normalized = (dir.normalized.join p).normalized := by
  have hstack : foldNames [] dir.normalized.components = foldNames [] dir.components := by
    rw [components_normalized, foldNames_map_name, List.append_nil, names, namesOf,
      List.reverse_reverse]
  unfold normalized names namesOf
  rw [foldNames_join h, foldNames_join h]
  exact congrArg (fun stack => ofNames (foldNames stack p.components).reverse) hstack.symm

/-! ## What is left behind a directory -/

/-- Behind a list of components, what follows it is left. -/
lemma dropComponents_append (base cs : List Component) :
    dropComponents base (base ++ cs) = some cs := by
  induction base with
  | nil => rfl
  | cons c rest ih => rw [List.cons_append, dropComponents, if_pos rfl, ih]

/-- Of names that are seen from a directory the names are left. -/
lemma relativeTo?_join_ofNames {names : List String} (h : ∀ name ∈ names, IsName name) :
    (dir.join (ofNames names)).relativeTo? dir = some (names.map .name) := by
  rw [relativeTo?, components_join_ofNames h, dropComponents_append]

end LayeredProfiles.Path
