import LayeredProfiles.FileTree.Reading
import LayeredProfiles.Proofs.FileTree.Resolution

set_option autoImplicit false

/-!
# Trees that differ in some files

A build changes a few files and nothing else. Whatever does not look at these files finds the same
as before: paths lead to the same places, and below a location that is spared the same files are
listed and read.

## Main definitions

* `FileTree.Rewritten` — a tree that differs from another one in the files at some locations.

## Main results

* `FileTree.readText_congr` — what is read depends on what is at the end of a path only.
* `FileTree.rewritten_put`, `FileTree.rewritten_remove` — what the operations on a single file
  change.
* `FileTree.Rewritten.trans` — one change after another.
* `FileTree.Rewritten.walk`, `FileTree.Rewritten.readText_join` — what is spared is found as before.
-/

namespace LayeredProfiles.FileTree

/-- The second tree differs from the first one in the files at some locations only. There may be no
file at such a location in one of the trees, but there is never a directory. -/
structure Rewritten (before after : FileTree) (touched : List Location) : Prop where
  /-- Paths are resolved from the same place. -/
  current : after.current = before.current
  /-- The directories are the same. -/
  directory : ∀ l, after.at? l = some .directory ↔ before.at? l = some .directory
  /-- Elsewhere is what was there before. -/
  elsewhere : ∀ l, l ∉ touched → after.at? l = before.at? l
  /-- Below a location that is spared the same files are listed. -/
  filesBelow : ∀ base, (∀ l ∈ touched, ¬ base <+: l) → after.filesBelow base = before.filesBelow base
  /-- If the first tree stands for real files, the second one does. -/
  grounded : before.Grounded → after.Grounded

/-- What is read is the text of a file at the end of the path. -/
lemma readText_eq_ok_iff {tree : FileTree} {path : Path} {text : String} :
    tree.readText path = .ok text ↔
      ∃ location, tree.resolve path = .ok location ∧
        tree.at? location = some (.file (.text text)) := by
  refine Steps.bind_eq_ok_iff.trans (exists_congr fun location => and_congr_right fun _ => ?_)
  constructor
  · intro hread
    split at hread <;> simp_all
  · intro hfile
    rw [hfile]

/-- A path that leads to the same place in two trees is read alike if the same is there. -/
lemma readText_congr {before after : FileTree} {path : Path} {location : Location}
    (hbefore : before.resolve path = .ok location) (hafter : after.resolve path = .ok location)
    (hsame : after.at? location = before.at? location) :
    after.readText path = before.readText path := by
  unfold readText
  rw [hbefore, hafter]
  dsimp only [bind, Except.bind]
  rw [hsame]

/-! ## Single files -/

section Single

variable {tree : FileTree} {base : Location} {name : String}

/-- What is taken away is not there any more. -/
lemma at?_remove {location : Location} (h : location ≠ []) (other : Location) :
    (tree.remove location).at? other = if location = other then none else tree.at? other := by
  cases other with
  | nil => simp [at?, h]
  | cons first rest => exact OrderedMap.get?_erase tree.entries location (first :: rest)

/-- What is put somewhere is there and nowhere else. -/
lemma at?_put_eq {location : Location} (h : location ≠ []) (entry : Entry) (other : Location) :
    (tree.put location entry).at? other =
      if location = other then some entry else tree.at? other := by
  split
  · next hsame => exact hsame ▸ at?_put tree h entry
  · next hother => exact at?_put_of_ne tree hother entry

/-- A location has no names below another one exactly if it does not start with that one. -/
lemma namesBelow?_eq_none_iff {location : Location} :
    namesBelow? base location = none ↔ ¬ base <+: location := by
  constructor
  · rintro hnone ⟨names, hnames⟩
    rw [namesBelow?_eq_some_iff.2 hnames.symm] at hnone
    cases hnone
  · intro hprefix
    rw [Option.eq_none_iff_forall_ne_some]
    intro names hnames
    exact hprefix ⟨names, (namesBelow?_eq_some_iff.1 hnames).symm⟩

/-- Leaving out an entry that is not below a location leaves the files below it. -/
lemma filesBelow_remove {location : Location} (h : ¬ base <+: location) :
    (tree.remove location).filesBelow base = tree.filesBelow base := by
  unfold filesBelow remove OrderedMap.erase
  rw [List.filterMap_filter]
  refine List.filterMap_congr fun entry _ => ?_
  split
  · rfl
  · next hkey =>
    have hlocation : entry.1 = location := by simpa using hkey
    rw [hlocation, namesBelow?_eq_none_iff.2 h]
    split <;> simp_all

/-- Writing an entry that is not below a location leaves the files below it. -/
lemma filesBelow_put {location : Location} (h : ¬ base <+: location) (entry : Entry) :
    (tree.put location entry).filesBelow base = tree.filesBelow base := by
  have hnone := namesBelow?_eq_none_iff.2 h
  unfold filesBelow put
  dsimp only
  induction tree.entries with
  | nil => simp [OrderedMap.insert, hnone]
  | cons first rest ih =>
    obtain ⟨key, value⟩ := first
    unfold OrderedMap.insert
    split
    · next hkey => simp [hkey, hnone]
    · rw [List.filterMap_cons, List.filterMap_cons, ih]

/-- A directory is made of names. -/
lemma Grounded.isName_of_directory (h : tree.Grounded)
    (hdirectory : tree.at? base = some .directory) :
    ∀ n ∈ base, Path.IsName n := by
  intro n hn
  exact h.named base (mem_keys_of_at? (List.ne_nil_of_mem hn) hdirectory) n hn

/-- Putting something into a directory keeps a tree one of real files, unless a directory is put
away. -/
lemma Grounded.put (h : tree.Grounded) (hname : Path.IsName name)
    (hbase : tree.at? base = some .directory) {entry : Entry}
    (hentry : tree.at? (base ++ [name]) = some .directory → entry = .directory) :
    (tree.put (base ++ [name]) entry).Grounded := by
  have hkeys : ∀ l ∈ OrderedMap.keys (tree.put (base ++ [name]) entry).entries,
      l ∈ OrderedMap.keys tree.entries ∨ l = base ++ [name] := by
    intro l hl
    unfold FileTree.put at hl
    rw [OrderedMap.keys_insert] at hl
    split at hl
    · exact .inl hl
    · simpa using hl
  have hkeep : ∀ l, tree.at? l = some .directory →
      (tree.put (base ++ [name]) entry).at? l = some .directory := by
    intro l hl
    rw [at?_put_eq (by simp)]
    split_ifs with hsame
    · rw [hentry (by rwa [hsame])]
    · exact hl
  refine ⟨⟨OrderedMap.uniqueKeys_insert h.unique _ _, fun l hl => ?_⟩, fun l hl => ?_⟩
  · rcases hkeys l hl with hold | rfl
    · exact h.named l hold
    · intro n hn
      rcases List.mem_append.1 hn with hn | hn
      · exact h.isName_of_directory hbase n hn
      · exact List.mem_singleton.1 hn ▸ hname
  · rcases hkeys l hl with hold | rfl
    · exact ⟨(h.rooted l hold).1, hkeep _ (h.rooted l hold).2⟩
    · exact ⟨by simp, hkeep _ (by simpa using hbase)⟩

/-- Taking a file away keeps a tree one of real files. -/
lemma Grounded.remove (h : tree.Grounded) {location : Location} (hne : location ≠ [])
    (hfile : tree.at? location ≠ some .directory) : (tree.remove location).Grounded := by
  have hkeys : ∀ l ∈ OrderedMap.keys (tree.remove location).entries,
      l ∈ OrderedMap.keys tree.entries := by
    intro l hl
    obtain ⟨entry, hentry⟩ := OrderedMap.mem_keys_iff.1 hl
    exact OrderedMap.mem_keys_iff.2 ⟨entry, List.mem_of_mem_filter hentry⟩
  refine ⟨⟨OrderedMap.uniqueKeys_filter h.unique _, fun l hl => h.named l (hkeys l hl)⟩,
    fun l hl => ?_⟩
  obtain ⟨hroot, habove⟩ := h.rooted l (hkeys l hl)
  refine ⟨hroot, ?_⟩
  -- what is taken away is no directory, so it is above nothing
  rw [at?_remove hne, if_neg fun hsame => hfile (by rwa [hsame]), habove]

/-- Writing a file into a directory changes this file only. -/
lemma rewritten_put (hname : Path.IsName name) (hbase : tree.at? base = some .directory)
    (hfile : tree.at? (base ++ [name]) ≠ some .directory) (content : Content) :
    Rewritten tree (tree.put (base ++ [name]) (.file content)) [base ++ [name]] where
  current := rfl
  directory := fun l => by
    rw [at?_put_eq (by simp)]
    split
    · next hsame => simp [← hsame, hfile]
    · rfl
  elsewhere := fun l hl => at?_put_of_ne tree (fun hsame => hl (by simp [hsame])) _
  filesBelow := fun other hother => filesBelow_put (hother _ (by simp)) _
  grounded := fun h => h.put hname hbase fun hdirectory => absurd hdirectory hfile

/-- Taking a file away changes this file only. -/
lemma rewritten_remove {location : Location} (hne : location ≠ [])
    (hfile : tree.at? location ≠ some .directory) :
    Rewritten tree (tree.remove location) [location] where
  current := rfl
  directory := fun l => by
    rw [at?_remove hne]
    split
    · next hsame => simp [← hsame, hfile]
    · rfl
  elsewhere := fun l hl => by
    rw [at?_remove hne, if_neg fun hsame => hl (by simp [hsame])]
  filesBelow := fun base hbase => filesBelow_remove (hbase _ (by simp))
  grounded := fun h => h.remove hne hfile

end Single

namespace Rewritten

variable {before after last : FileTree} {touched more : List Location}

/-! ## Several files -/

/-- A tree that is left as it is differs in no file. -/
lemma refl (tree : FileTree) : Rewritten tree tree [] where
  current := rfl
  directory := fun _ => Iff.rfl
  elsewhere := fun _ _ => rfl
  filesBelow := fun _ _ => rfl
  grounded := id

/-- One change after another changes the files that one of them changes. -/
lemma trans (h : Rewritten before after touched) (hnext : Rewritten after last more) :
    Rewritten before last (touched ++ more) where
  current := hnext.current.trans h.current
  directory := fun l => (hnext.directory l).trans (h.directory l)
  elsewhere := fun l hl => by
    rw [List.mem_append, not_or] at hl
    rw [hnext.elsewhere l hl.2, h.elsewhere l hl.1]
  filesBelow := fun base hbase => by
    rw [hnext.filesBelow base fun l hl => hbase l (List.mem_append_right _ hl),
      h.filesBelow base fun l hl => hbase l (List.mem_append_left _ hl)]
  grounded := fun hgrounded => hnext.grounded (h.grounded hgrounded)

/-- More locations may be allowed to differ. -/
lemma mono (h : Rewritten before after touched) (hsub : touched ⊆ more) :
    Rewritten before after more where
  current := h.current
  directory := h.directory
  elsewhere := fun l hl => h.elsewhere l fun hmem => hl (hsub hmem)
  filesBelow := fun base hbase => h.filesBelow base fun l hl => hbase l (hsub hl)
  grounded := h.grounded

/-! ## What is found as before -/

/-- Spots stay where they are. -/
lemma spot (h : Rewritten before after touched) {path : Path} {base : Location} {name : String}
    (hspot : before.Spot path base name) : after.Spot path base name :=
  hspot.mono h.current fun l => (h.directory l).2

/-- Paths lead where they led before. -/
lemma resolve_iff (h : Rewritten before after touched) {path : Path} {location : Location} :
    after.resolve path = .ok location ↔ before.resolve path = .ok location :=
  ⟨resolve_mono h.current.symm fun l => (h.directory l).1,
    resolve_mono h.current fun l => (h.directory l).2⟩

/-- A file that is spared is read as before. -/
lemma readText_eq_ok_iff (h : Rewritten before after touched) {path : Path} {text : String}
    (hspared : ∀ location, before.resolve path = .ok location → location ∉ touched) :
    after.readText path = .ok text ↔ before.readText path = .ok text := by
  -- a path resolves in both trees or in neither, so both directions come down to this
  have hread : ∀ location, before.resolve path = .ok location →
      after.readText path = before.readText path := by
    intro location hlocation
    exact readText_congr hlocation (h.resolve_iff.2 hlocation)
      (h.elsewhere location (hspared location hlocation))
  constructor
  · intro htext
    obtain ⟨location, hlocation, -⟩ := Steps.bind_eq_ok_iff.1 htext
    rwa [← hread location (h.resolve_iff.1 hlocation)]
  · intro htext
    obtain ⟨location, hlocation, -⟩ := Steps.bind_eq_ok_iff.1 htext
    rwa [hread location hlocation]

/-- What is seen from a directory is looked for where it was before. -/
lemma reach (h : Rewritten before after touched) {dir : Path} {location : Location}
    (hreach : before.reach dir = .ok location) : after.reach dir = .ok location :=
  follow_mono h.current (fun l => (h.directory l).2) hreach

section Spared

variable {base : Location}

/-- Below a location that is spared is what was there before. -/
lemma at?_append (h : Rewritten before after touched) (hspared : ∀ l ∈ touched, ¬ base <+: l)
    (names : List String) : after.at? (base ++ names) = before.at? (base ++ names) :=
  h.elsewhere _ fun hmem => hspared _ hmem (List.prefix_append base names)

/-- Going on does not lead out of a location unless it goes up. -/
lemma exists_append_of_step {tree : FileTree} {piece : List Char} (hup : piece ≠ ['.', '.'])
    {names : List String} {next : Location} (h : tree.step (base ++ names) piece = .ok next) :
    ∃ more, next = base ++ more := by
  unfold step at h
  rw [directory_of_step h] at h
  simp only [hup, if_false] at h
  split at h
  · exact ⟨names, (Except.ok.inj h).symm⟩
  · exact ⟨names ++ [String.ofList piece], by rw [← Except.ok.inj h, List.append_assoc]⟩

/-- Going on below a location that is spared ends as before, as long as it does not go up. -/
lemma foldlM_step (h : Rewritten before after touched) (hspared : ∀ l ∈ touched, ¬ base <+: l)
    {pieces : List (List Char)} (hpieces : ∀ piece ∈ pieces, piece ≠ ['.', '.'])
    (names : List String) :
    pieces.foldlM after.step (base ++ names) = pieces.foldlM before.step (base ++ names) ∧
      ∀ location, pieces.foldlM before.step (base ++ names) = .ok location →
        ∃ more, location = base ++ more := by
  induction pieces generalizing names with
  | nil => exact ⟨rfl, fun location hlocation => ⟨names, (Except.ok.inj hlocation).symm⟩⟩
  | cons piece rest ih =>
    have hrest := fun names => ih (fun p hp => hpieces p (List.mem_cons_of_mem _ hp)) names
    have hstep : after.step (base ++ names) piece = before.step (base ++ names) piece := by
      rw [step, step, h.at?_append hspared]
    rw [List.foldlM_cons, List.foldlM_cons, hstep]
    cases hbefore : before.step (base ++ names) piece with
    | error fault => exact ⟨rfl, by rintro location ⟨⟩⟩
    | ok next =>
      obtain ⟨more, rfl⟩ := exists_append_of_step (hpieces piece List.mem_cons_self) hbefore
      exact hrest more

/-- A file below a directory that is spared is read as before. -/
lemma readText_join (h : Rewritten before after touched) {dir p : Path}
    (hreach : before.reach dir = .ok base) (hspared : ∀ l ∈ touched, ¬ base <+: l)
    (hrelative : p.isAbsolute = false) (hpieces : ∀ piece ∈ p.split, piece ≠ ['.', '.']) :
    after.readText (dir.join p) = before.readText (dir.join p) := by
  unfold FileTree.readText
  by_cases hne : (dir.join p).text = ""
  · rw [FileTree.resolve, FileTree.resolve, if_pos hne, if_pos hne]
    rfl
  obtain ⟨hsame, hbelow⟩ := h.foldlM_step hspared hpieces []
  rw [List.append_nil] at hsame hbelow
  rw [resolve_join hrelative hne, resolve_join hrelative hne, hreach, h.reach hreach]
  change (p.split.foldlM after.step base >>= _) = (p.split.foldlM before.step base >>= _)
  rw [hsame]
  cases hlocation : p.split.foldlM before.step base with
  | error fault => rfl
  | ok location =>
    obtain ⟨names, rfl⟩ := hbelow location hlocation
    dsimp only [bind, Except.bind]
    rw [h.at?_append hspared]

/-- A directory that is spared is listed as before. -/
lemma walk (h : Rewritten before after touched) {dir : Path}
    (hresolve : before.resolve dir = .ok base) (hspared : ∀ l ∈ touched, ¬ base <+: l) :
    after.walk dir = before.walk dir := by
  have hat := h.at?_append hspared []
  rw [List.append_nil] at hat
  unfold FileTree.walk
  rw [hresolve, h.resolve_iff.2 hresolve]
  dsimp only
  rw [hat, h.filesBelow base hspared]

end Spared

end Rewritten

end LayeredProfiles.FileTree
