import Mathlib.Data.List.Nodup
import LayeredProfiles.Fragment.Folder
import LayeredProfiles.Proofs.FileTree.WellNamed
import LayeredProfiles.Proofs.Path.Normalized
import LayeredProfiles.Proofs.Path.Order
import LayeredProfiles.Proofs.Steps

set_option autoImplicit false

/-!
# The fragments of a folder

A fragment of a folder is read from the text of its file. The keys of a folder are the names of its
fragment files, put in order. No key occurs twice, since a path made of names has only one list of
names.

## Main results

* `ProfileFolder.exists_parse_of_source` — what a fragment of a folder is read from.
* `ProfileFolder.keys_eq_ok_iff` — the keys of a folder.
* `ProfileFolder.nodup_keys` — no two files have the same key.
* `ProfileFolder.nodup_components_keys` — no two keys consist of the same components.
* `ProfileFolder.pairwise_pathOf` — the files of the keys come one before the other.
-/

namespace LayeredProfiles.ProfileFolder

variable {folder : ProfileFolder} {tree : FileTree} {keys : List Path}

/-- The text of a fragment is that of its file. -/
lemma readText_eq_ok_iff {key : Path} {text : String} :
    folder.readText tree key = .ok text ↔ tree.readText (folder.pathOf key) = .ok text := by
  unfold ProfileFolder.readText FileTree.read
  exact Steps.mapError_eq_ok_iff

/-- A fragment that loads was read from its text. -/
lemma exists_parse_of_source {key : Path} {f : Fragment} (h : folder.source tree key = .ok f) :
    ∃ text, folder.readText tree key = .ok text ∧ Fragment.parse key text = .ok f :=
  Steps.bind_eq_ok_iff.1 h

/-- A fragment is the same if its file is read alike. -/
lemma source_congr {after : FileTree} {key : Path}
    (h : after.readText (folder.pathOf key) = tree.readText (folder.pathOf key)) :
    folder.source after key = folder.source tree key := by
  unfold ProfileFolder.source ProfileFolder.readText FileTree.read
  rw [h]

/-- The keys of a folder are the names of the fragment files that a walk finds. -/
lemma keys_eq_ok_iff :
    folder.keys tree = .ok keys ↔ ∃ files, tree.walk folder.base = .ok files ∧
      keys = Path.sort ((files.filter fun file => file.2.extension? == some "json").map
        fun file => .ofNames file.1) := by
  unfold ProfileFolder.keys
  rw [Steps.bind_eq_ok_iff]
  simp only [Except.ok.injEq, eq_comm]

/-- No two files have the same key. -/
lemma nodup_keys (h : tree.WellNamed) (hkeys : folder.keys tree = .ok keys) : keys.Nodup := by
  obtain ⟨files, hwalk, rfl⟩ := keys_eq_ok_iff.1 hkeys
  have hfiles : (files.map Prod.fst).Nodup := FileTree.nodup_walk h hwalk
  refine (List.mergeSort_perm _ _).nodup_iff.2 ?_
  refine List.Nodup.map_on ?_ ((List.Nodup.of_map _ hfiles).filter _)
  intro file hfile other hother hsame
  have hnames := FileTree.isName_walk h hwalk (List.mem_of_mem_filter hfile)
  have hothers := FileTree.isName_walk h hwalk (List.mem_of_mem_filter hother)
  exact List.inj_on_of_nodup_map hfiles (List.mem_of_mem_filter hfile)
    (List.mem_of_mem_filter hother) (Path.ofNames_inj hnames hothers hsame)

/-- A key is made of names. -/
lemma exists_names_of_mem_keys (h : tree.WellNamed) (hkeys : folder.keys tree = .ok keys)
    {key : Path} (hkey : key ∈ keys) :
    ∃ names : List String, key = .ofNames names ∧ ∀ name ∈ names, Path.IsName name := by
  obtain ⟨files, hwalk, rfl⟩ := keys_eq_ok_iff.1 hkeys
  obtain ⟨file, hfile, rfl⟩ := List.mem_map.1 ((List.mergeSort_perm _ _).subset hkey)
  exact ⟨file.1, rfl, FileTree.isName_walk h hwalk (List.mem_of_mem_filter hfile)⟩

/-- No two keys consist of the same components. -/
lemma nodup_components_keys (h : tree.WellNamed) (hkeys : folder.keys tree = .ok keys) :
    (keys.map Path.components).Nodup := by
  refine List.Nodup.map_on ?_ (nodup_keys h hkeys)
  intro key hkey other hother hsame
  obtain ⟨names, rfl, hnames⟩ := exists_names_of_mem_keys h hkeys hkey
  obtain ⟨others, rfl, hothers⟩ := exists_names_of_mem_keys h hkeys hother
  rw [Path.components_ofNames hnames, Path.components_ofNames hothers] at hsame
  rw [List.map_injective_iff.2 (fun _ _ => Component.name.inj) hsame]

/-- The keys of a folder come one before the other. -/
lemma pairwise_keys (h : tree.WellNamed) (hkeys : folder.keys tree = .ok keys) :
    keys.Pairwise fun a b => Path.compare a b = .lt := by
  have hnodup := nodup_components_keys h hkeys
  obtain ⟨files, -, rfl⟩ := keys_eq_ok_iff.1 hkeys
  exact Path.pairwise_sort (((List.mergeSort_perm _ _).map _).nodup_iff.1 hnodup)

/-- The file of a key has the components of the folder in front of those of the normalized key. -/
lemma components_pathOf (key : Path) :
    (folder.pathOf key).components = folder.base.components ++ key.normalized.components := by
  rw [Path.components_normalized]
  exact Path.components_join_ofNames Path.isName_of_mem_names

/-- The files of the keys of a folder come one before the other. -/
lemma pairwise_pathOf (h : tree.WellNamed) (hkeys : folder.keys tree = .ok keys) :
    keys.Pairwise fun a b => Path.compare (folder.pathOf a) (folder.pathOf b) = .lt := by
  refine (pairwise_keys h hkeys).imp_of_mem ?_
  intro a b ha hb hlt
  obtain ⟨names, rfl, hnames⟩ := exists_names_of_mem_keys h hkeys ha
  obtain ⟨others, rfl, hothers⟩ := exists_names_of_mem_keys h hkeys hb
  unfold Path.compare
  rw [components_pathOf, components_pathOf, Path.normalized_ofNames hnames,
    Path.normalized_ofNames hothers, Path.compareComponents_append_left]
  exact hlt

end LayeredProfiles.ProfileFolder
