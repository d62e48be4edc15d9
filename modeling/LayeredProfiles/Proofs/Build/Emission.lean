import LayeredProfiles.Build.Outputs
import LayeredProfiles.Proofs.Schema.Synced

set_option autoImplicit false

/-!
# Writing files one after the other

Where the paths of some files lead does not change while the files are written. So they can be
written exactly if there are no directories in their places, and then each of them holds its text in
the end, unless a later one takes its place.

## Main definitions

* `PlacedFile` — a file and where its path leads.
* `PlacedFile.Settled` — a file that is as it would be written.
* `FileTree.written` — the tree in which files have been written.
* `SchemaFile.writes` — what is written to bring a schema in line.

## Main results

* `Build.runOn_emit_eq_ok_iff` — when files can be written, and what that does.
* `FileTree.rewritten_written`, `FileTree.settled_written` — what is changed by it.
* `FileTree.written_of_settled` — writing files again changes nothing.
* `SchemaFile.runOn_sync_eq_ok_iff` — bringing a schema in line writes it, if it writes anything.
-/

namespace LayeredProfiles

/-- An output and where its path leads: to a name in a directory. -/
structure PlacedFile extends RenderedFile where
  /-- The directory. -/
  base : Location
  /-- The name. -/
  name : String

namespace PlacedFile

/-- The location of the file. -/
def location (file : PlacedFile) : Location :=
  file.base ++ [file.name]

/-- The location of its temporary file. -/
def scratch (file : PlacedFile) : Location :=
  FileTree.scratch file.base file.name

/-- The path of the file leads there. -/
def Leads (tree : FileTree) (file : PlacedFile) : Prop :=
  tree.Spot file.path file.base file.name

/-- There is no directory in the place of the file or its temporary file. -/
def Clear (tree : FileTree) (file : PlacedFile) : Prop :=
  tree.at? file.scratch ≠ some .directory ∧ tree.at? file.location ≠ some .directory

/-- The file is as it would be written, and there is no temporary file. -/
def Settled (tree : FileTree) (file : PlacedFile) : Prop :=
  tree.at? file.scratch = none ∧ tree.at? file.location = some (.file (.text file.content))

variable {tree after : FileTree} {file : PlacedFile} {touched : List Location}

/-- A file that is as it would be written can be written. -/
lemma Settled.clear (h : file.Settled tree) : file.Clear tree := by
  simp [Clear, h.1, h.2]

/-- Paths lead to the same places while files change. -/
lemma Leads.rewritten (h : file.Leads tree) (hchanged : FileTree.Rewritten tree after touched) :
    file.Leads after :=
  hchanged.spot h

/-- Directories stay what they are while files change. -/
lemma clear_rewritten_iff (hchanged : FileTree.Rewritten tree after touched) :
    file.Clear after ↔ file.Clear tree := by
  simp only [Clear, ne_eq, hchanged.directory]

/-- A file that is as it would be written has that text. -/
lemma Settled.read_eq (h : file.Settled tree) (hleads : file.Leads tree) :
    tree.read file.path = .ok file.content := by
  have hresolve : tree.resolve file.path = .ok file.location := FileTree.Spot.resolve hleads
  refine Steps.mapError_eq_ok_iff.2 ?_
  unfold FileTree.readText
  rw [hresolve]
  dsimp only [bind, Except.bind]
  rw [h.2]

/-- The temporary file of a file is not in its place. -/
lemma scratch_ne_location (file : PlacedFile) : file.scratch ≠ file.location :=
  FileTree.scratch_ne file.base file.name

end PlacedFile

namespace FileTree

/-- The tree in which a file has been written. -/
def write (tree : FileTree) (file : PlacedFile) : FileTree :=
  tree.replaced file.base file.name file.content

/-- The tree in which files have been written one after the other. -/
def written (tree : FileTree) (files : List PlacedFile) : FileTree :=
  files.foldl write tree

/-- The locations that are touched when files are written. -/
def touchedBy (files : List PlacedFile) : List Location :=
  files.flatMap fun file => [file.location, file.scratch]

variable {tree : FileTree} {files : List PlacedFile}

/-- Some files and then others are written like all of them. -/
lemma written_append (files more : List PlacedFile) :
    (tree.written files).written more = tree.written (files ++ more) :=
  List.foldl_append.symm

/-- Writing one file changes it and its temporary file only. -/
lemma rewritten_write {file : PlacedFile} (hleads : file.Leads tree) (hclear : file.Clear tree) :
    Rewritten tree (tree.write file) [file.location, file.scratch] :=
  rewritten_replaced hleads hclear.1 hclear.2 file.content

/-- Writing files changes them and their temporary files only. -/
lemma rewritten_written (hleads : ∀ file ∈ files, file.Leads tree)
    (hclear : ∀ file ∈ files, file.Clear tree) :
    Rewritten tree (tree.written files) (touchedBy files) := by
  induction files generalizing tree with
  | nil => exact Rewritten.refl tree
  | cons file rest ih =>
    have hone := rewritten_write (hleads file List.mem_cons_self) (hclear file List.mem_cons_self)
    refine hone.trans (ih (fun other hother => ?_) fun other hother => ?_)
    · exact (hleads other (List.mem_cons_of_mem _ hother)).rewritten hone
    · exact (PlacedFile.clear_rewritten_iff hone).2 (hclear other (List.mem_cons_of_mem _ hother))

/-! ## What is there in the end -/

/-- Writing a file puts its text in its place and takes its temporary file away. -/
lemma at?_write (file : PlacedFile) (location : Location) :
    (tree.write file).at? location =
      if file.location = location then some (.file (.text file.content))
      else if file.scratch = location then none
      else tree.at? location :=
  at?_replaced file.content location

/-- Where no file is written, nothing appears. -/
lemma at?_written_eq_none {location : Location} (h : tree.at? location = none)
    (hother : ∀ file ∈ files, file.location ≠ location) :
    (tree.written files).at? location = none := by
  induction files generalizing tree with
  | nil => exact h
  | cons file rest ih =>
    refine ih ?_ fun other hmem => hother other (List.mem_cons_of_mem _ hmem)
    rw [at?_write, if_neg (hother file List.mem_cons_self), h, ite_self]

/-- Where nothing is written or taken away, everything stays. -/
lemma at?_written_of_ne {location : Location}
    (h : ∀ file ∈ files, file.location ≠ location ∧ file.scratch ≠ location) :
    (tree.written files).at? location = tree.at? location := by
  induction files generalizing tree with
  | nil => rfl
  | cons file rest ih =>
    obtain ⟨hfile, hscratch⟩ := h file List.mem_cons_self
    change ((tree.write file).written rest).at? location = _
    rw [ih fun other hother => h other (List.mem_cons_of_mem _ hother), at?_write, if_neg hfile,
      if_neg hscratch]

/-- Files whose places are different from each other and from those of their temporary files are as
they should be when they have been written. -/
lemma settled_written (hdistinct : (files.map PlacedFile.location).Nodup)
    (hscratch : ∀ file ∈ files, ∀ other ∈ files, other.location ≠ file.scratch) :
    ∀ file ∈ files, file.Settled (tree.written files) := by
  induction files generalizing tree with
  | nil => exact fun file hfile => absurd hfile List.not_mem_nil
  | cons first rest ih =>
    obtain ⟨hfirst, hrest⟩ := List.nodup_cons.1 hdistinct
    intro file hfile
    change file.Settled ((tree.write first).written rest)
    rcases List.mem_cons.1 hfile with rfl | hmem
    -- no file after the first one is in its place or in that of its temporary file
    · constructor
      · refine at?_written_eq_none ?_ fun other hother =>
          hscratch file hfile other (List.mem_cons_of_mem _ hother)
        rw [at?_write, if_neg file.scratch_ne_location.symm, if_pos rfl]
      · rw [at?_written_of_ne fun other hother => ⟨?_, ?_⟩, at?_write, if_pos rfl]
        · exact fun hsame => hfirst (List.mem_map.2 ⟨other, hother, hsame⟩)
        · exact (hscratch other (List.mem_cons_of_mem _ hother) file hfile).symm
    · exact ih hrest (fun a ha b hb => hscratch a (List.mem_cons_of_mem _ ha) b
        (List.mem_cons_of_mem _ hb)) file hmem

/-- Writing files that are as they should be changes nothing. -/
lemma written_of_settled (h : ∀ file ∈ files, file.Settled tree) : tree.written files = tree := by
  induction files with
  | nil => rfl
  | cons file rest ih =>
    obtain ⟨hscratch, hlocation⟩ := h file List.mem_cons_self
    change (tree.replaced file.base file.name file.content).written rest = tree
    rw [replaced_of_at? hscratch hlocation]
    exact ih fun other hother => h other (List.mem_cons_of_mem _ hother)

end FileTree

namespace Build

variable {tree after : FileTree} {files : List PlacedFile} {paths : List Path}

/-- A file is replaced if there are no directories in the way. -/
lemma runOn_replace_eq_ok_iff {file : PlacedFile} (hleads : file.Leads tree) :
    (FileOperation.replace file.path file.content).runOn tree = (.ok (), after) ↔
      file.Clear tree ∧ after = tree.write file := by
  rw [FileTree.Spot.runOn_replace hleads]
  unfold PlacedFile.Clear PlacedFile.scratch PlacedFile.location FileTree.write
  split_ifs with hscratch hlocation
  · simp [hscratch]
  · simp [hlocation]
  · simp [hscratch, hlocation, eq_comm]

/-- **Writing files one after the other** succeeds exactly if there are no directories in the
way. -/
theorem runOn_emit_eq_ok_iff (hleads : ∀ file ∈ files, file.Leads tree) :
    (emit (files.map PlacedFile.toRenderedFile)).runOn tree = (.ok paths, after) ↔
      (∀ file ∈ files, file.Clear tree) ∧ paths = files.map (fun file => file.path) ∧
        after = tree.written files := by
  induction files generalizing tree after paths with
  | nil =>
    rw [List.map_nil, emit, FileOperation.runOn_pure]
    simp [FileTree.written, eq_comm]
  | cons file rest ih =>
    have hfile := hleads file List.mem_cons_self
    rw [List.map_cons, emit, FileOperation.runOn_bind, List.forall_mem_cons]
    rcases hreplace : (FileOperation.replace file.path file.content).runOn tree with
      ⟨failure | ⟨⟩, between⟩
    · have hblocked : ¬ file.Clear tree := fun hclear => by
        rw [(runOn_replace_eq_ok_iff hfile).2 ⟨hclear, rfl⟩] at hreplace
        cases hreplace
      simp [hblocked]
    · obtain ⟨hclear, rfl⟩ := (runOn_replace_eq_ok_iff hfile).1 hreplace
      have hone := FileTree.rewritten_write hfile hclear
      have hrest : ∀ other ∈ rest, other.Leads (tree.write file) := fun other hother =>
        (hleads other (List.mem_cons_of_mem _ hother)).rewritten hone
      -- writing a file puts no directory in the way of the others
      have hclears : (∀ other ∈ rest, other.Clear (tree.write file)) ↔
          ∀ other ∈ rest, other.Clear tree :=
        forall₂_congr fun other _ => PlacedFile.clear_rewritten_iff hone
      dsimp only
      rw [FileOperation.runOn_bind]
      constructor
      · intro h
        rcases hemit : (emit (rest.map PlacedFile.toRenderedFile)).runOn (tree.write file) with
          ⟨failure | others, last⟩
        · rw [hemit] at h
          cases h
        · rw [hemit] at h
          obtain ⟨hall, rfl, rfl⟩ := (ih hrest).1 hemit
          cases h
          exact ⟨⟨hclear, hclears.1 hall⟩, rfl, rfl⟩
      · rintro ⟨⟨-, hall⟩, rfl, rfl⟩
        rw [(ih hrest).2 ⟨hclears.2 hall, rfl, rfl⟩]
        rfl

end Build

namespace SchemaFile

variable {tree after : FileTree} {library : ParameterLibrary} {updated : Bool}

/-- What is written to bring a schema in line: the document, if it has changed. -/
def writes (file : SchemaFile) (updated : Bool) (document : Json) : List RenderedFile :=
  if updated then [⟨file.path, textOf document⟩] else []

/-- Bringing a schema in line writes what has to be written. -/
lemma runOn_sync (file : SchemaFile) :
    (file.sync library).runOn tree =
      match file.withNames tree library with
      | .ok (changed, document) =>
        let wrote := (Build.emit (file.writes changed document)).runOn tree
        (wrote.1.map fun _ => changed, wrote.2)
      | .error failure => (.error failure, tree) := by
  rw [runOn_sync_eq_replace]
  rcases file.withNames tree library with failure | ⟨_ | _, document⟩
  · rfl
  · rfl
  · dsimp only [writes]
    rw [if_pos rfl, Build.emit, FileOperation.runOn_bind]
    rcases (FileOperation.replace file.path (textOf document)).runOn tree with ⟨_ | _, _⟩ <;> rfl

/-- Bringing a schema in line succeeds if the document can be had and what has to be written can be
written. -/
lemma runOn_sync_eq_ok_iff {file : SchemaFile} :
    (file.sync library).runOn tree = (.ok updated, after) ↔
      ∃ document paths, file.withNames tree library = .ok (updated, document) ∧
        (Build.emit (file.writes updated document)).runOn tree = (.ok paths, after) := by
  rw [runOn_sync]
  rcases file.withNames tree library with failure | ⟨changed, document⟩
  · simp
  · dsimp only
    constructor
    · rcases hemit : (Build.emit (file.writes changed document)).runOn tree with
        ⟨failure | paths, wrote⟩
      · exact fun h => nomatch congrArg Prod.fst h
      · rintro ⟨⟩
        exact ⟨document, paths, rfl, hemit⟩
    · rintro ⟨_, paths, ⟨⟩, hemit⟩
      rw [hemit]
      rfl

end SchemaFile

end LayeredProfiles
