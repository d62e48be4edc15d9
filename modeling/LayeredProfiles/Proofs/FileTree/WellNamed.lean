import LayeredProfiles.FileTree.Reading
import LayeredProfiles.Proofs.Path.Names

set_option autoImplicit false

/-!
# Trees whose entries have names

In a file tree that stands for real files nothing is at two entries, and every location is made of
names. A walk through such a tree finds every file once.

## Main definitions

* `FileTree.WellNamed` — what holds of the entries of a tree that stands for real files.

## Main results

* `FileTree.mem_filesBelow_iff` — the files below a location.
* `FileTree.walk_eq_ok`, `FileTree.walk_of_resolve`, `FileTree.walk_eq_error` — how a walk ends.
* `FileTree.nodup_walk`, `FileTree.isName_walk` — a walk finds every file once, under names.
-/

namespace LayeredProfiles.FileTree

/-- Nothing is at two entries, and every location is made of names. -/
structure WellNamed (tree : FileTree) : Prop where
  /-- A location has only one entry. -/
  unique : OrderedMap.UniqueKeys tree.entries
  /-- Every location is made of names. -/
  named : ∀ location ∈ OrderedMap.keys tree.entries, ∀ name ∈ location, Path.IsName name

instance (tree : FileTree) : Decidable tree.WellNamed :=
  decidable_of_iff ((OrderedMap.keys tree.entries).Nodup ∧
      ∀ location ∈ OrderedMap.keys tree.entries, ∀ name ∈ location, Path.IsName name)
    ⟨fun h => ⟨h.1, h.2⟩, fun h => ⟨h.unique, h.named⟩⟩

/-- What is below a location starts with the names of the location. -/
lemma namesBelow?_eq_some_iff {base location names : Location} :
    namesBelow? base location = some names ↔ location = base ++ names := by
  induction base generalizing location with
  | nil => simp [namesBelow?]
  | cons name base ih =>
    cases location with
    | nil => simp [namesBelow?]
    | cons first rest =>
      by_cases hname : name = first
      · simp [namesBelow?, hname, ih]
      · simp [namesBelow?, hname, Ne.symm hname]

/-- The entry that makes a file one of those below a location. -/
lemma entry_of_filesBelow {base : Location} {entry : Location × Entry} {file : Location × Content}
    (h : (match entry.2, namesBelow? base entry.1 with
      | .file content, some names => some (names, content)
      | _, _ => none) = some file) :
    entry = (base ++ file.1, .file file.2) := by
  obtain ⟨location, kind⟩ := entry
  split at h
  · next content names hkind hnames =>
    cases h
    rw [show location = base ++ names from namesBelow?_eq_some_iff.1 hnames,
      show kind = .file content from hkind]
  · cases h

/-- The files below a location are the entries that start with its names. -/
lemma mem_filesBelow_iff {tree : FileTree} {base names : Location} {content : Content} :
    (names, content) ∈ tree.filesBelow base ↔
      (base ++ names, Entry.file content) ∈ tree.entries := by
  unfold filesBelow
  rw [List.mem_filterMap]
  constructor
  · rintro ⟨entry, hentry, hfile⟩
    exact entry_of_filesBelow hfile ▸ hentry
  · intro hentry
    refine ⟨_, hentry, ?_⟩
    have hnames : namesBelow? base (base ++ names) = some names := namesBelow?_eq_some_iff.2 rfl
    simp only [hnames]

variable {tree : FileTree}

/-- No two files below a location have the same names. -/
lemma nodup_filesBelow (h : tree.WellNamed) (base : Location) :
    ((tree.filesBelow base).map Prod.fst).Nodup := by
  have hentries : tree.entries.Pairwise fun a b => a.1 ≠ b.1 := List.pairwise_map.1 h.unique
  refine List.pairwise_map.2 (List.pairwise_filterMap.2 (hentries.imp ?_))
  intro a b hne file hfile other hother hsame
  rw [entry_of_filesBelow hfile, entry_of_filesBelow hother, hsame] at hne
  exact hne rfl

/-- The names of the files below a location are names. -/
lemma isName_filesBelow (h : tree.WellNamed) {base : Location} {file : Location × Content}
    (hfile : file ∈ tree.filesBelow base) : ∀ name ∈ file.1, Path.IsName name := by
  intro name hname
  have hentry := mem_filesBelow_iff.1 hfile
  refine h.named _ (OrderedMap.mem_keys_iff.2 ⟨_, hentry⟩) name ?_
  exact List.mem_append_right base hname

/-- What a walk finds: the files below a directory, or the file that it starts from. -/
lemma walk_eq_ok {directory : Path} {files : List (Location × Path)}
    (h : tree.walk directory = .ok files) :
    files = [([], directory)] ∨ ∃ base, files = (tree.filesBelow base).map fun file =>
      (file.1, directory.join (.ofNames file.1)) := by
  unfold walk at h
  dsimp only at h
  split at h
  · cases h
  · next base _ =>
    split at h
    · cases h
    · exact .inl (Except.ok.inj h).symm
    · exact .inr ⟨base, (Except.ok.inj h).symm⟩

/-- A walk through a directory finds the files below it. -/
lemma walk_of_resolve {directory : Path} {base : Location}
    (hresolve : tree.resolve directory = .ok base) (hdirectory : tree.at? base = some .directory) :
    tree.walk directory = .ok ((tree.filesBelow base).map fun file =>
      (file.1, directory.join (.ofNames file.1))) := by
  unfold walk
  rw [hresolve]
  dsimp only
  rw [hdirectory]

/-- A walk fails only because the directory cannot be listed. -/
lemma walk_eq_error {directory : Path} {failure : Failure}
    (h : tree.walk directory = .error failure) :
    ∃ reason, failure = .file directory (.listing directory reason) := by
  unfold walk at h
  dsimp only at h
  split at h
  · next reason _ => exact ⟨reason, (Except.error.inj h).symm⟩
  · split at h
    · exact ⟨.missing, (Except.error.inj h).symm⟩
    · cases h
    · cases h

/-- A walk finds no two files under the same names. -/
lemma nodup_walk (h : tree.WellNamed) {directory : Path} {files : List (Location × Path)}
    (hwalk : tree.walk directory = .ok files) : (files.map Prod.fst).Nodup := by
  rcases walk_eq_ok hwalk with rfl | ⟨base, rfl⟩
  · exact List.pairwise_singleton _ _
  · rw [List.map_map]
    exact nodup_filesBelow h base

/-- A walk finds files under names. -/
lemma isName_walk (h : tree.WellNamed) {directory : Path} {files : List (Location × Path)}
    (hwalk : tree.walk directory = .ok files) {file : Location × Path} (hfile : file ∈ files) :
    ∀ name ∈ file.1, Path.IsName name := by
  rcases walk_eq_ok hwalk with rfl | ⟨base, rfl⟩
  · rw [List.mem_singleton.1 hfile]
    exact fun name hname => absurd hname List.not_mem_nil
  · obtain ⟨found, hfound, rfl⟩ := List.mem_map.1 hfile
    exact isName_filesBelow h hfound

end LayeredProfiles.FileTree
