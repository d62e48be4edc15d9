import LayeredProfiles.Proofs.FileTree.Replacement

set_option autoImplicit false

/-!
# What replacing a file can touch

Replacing a file touches the file and the temporary one beside it, and no other file, whether it
succeeds or fails and wherever it fails. Beyond that it makes directories, but only where nothing
was. This holds in every tree and for every path, also for one that leads nowhere yet, so a path is
given a location here by its text alone: a path that leads somewhere leads there.

## Main definitions

* `FileTree.placeOf` — the location that a path names.
* `FileTree.fileAt?` — what the file at a location holds.
* `FileTree.Spares` — a tree with the same files as another one, but for some locations.
* `FileTree.Kept`, `FileTree.Grown` — a tree in which directories have been made.
* `FileTree.directoriesAbove` — the directories that are made for a file.
* `FileOperation.Confined` — an operation that changes no file but those at some locations.
* `FileOperation.draft` — all of a replacement but its last step.
* `FileOperation.Ready` — a tree in which a file can be replaced.

## Main results

* `FileTree.eq_placeOf_of_resolve` — a path that leads somewhere leads to the location it names.
* `FileTree.readText_of_spares` — a text is read as before while its place is spared.
* `FileOperation.Confined.bind` — one operation after another.
* `FileTree.grown_makeAll`, `FileOperation.grown_prepare` — making directories makes nothing else.
* `FileOperation.at?_draft`, `FileOperation.runOn_draft_of_replace_eq_error` — all but the last step,
  and a last step that fails.
* `FileOperation.exists_ready_of_replace_eq_ok` — the tree in which a file is replaced.
* `FileOperation.confined_replace`, `FileOperation.spares_of_replace_eq_error`,
  `FileOperation.of_replace_eq_ok` — what replacing a file does.
-/

namespace LayeredProfiles

namespace FileTree

/-! ## The location that a path names -/

/-- The location that a piece of a path names, seen from another one. -/
def stride (location : Location) (piece : List Char) : Location :=
  if Path.isVoid piece then location
  else if piece = ['.', '.'] then location.dropLast
  else location ++ [String.ofList piece]

/-- The location that a path names, whether or not it leads there. -/
def placeOf (tree : FileTree) (path : Path) : Location :=
  path.split.foldl stride (tree.start path)

variable {tree between after : FileTree} {base location : Location} {path : Path}
  {touched : List Location}

/-- A piece that leads somewhere leads to the location that it names. -/
lemma eq_stride_of_step {piece : List Char} (h : tree.step base piece = .ok location) :
    location = stride base piece := by
  unfold step at h
  rw [directory_of_step h] at h
  unfold stride
  dsimp only at h
  split_ifs at h ⊢ <;> exact (Except.ok.inj h).symm

/-- Pieces that lead somewhere lead to the location that they name. -/
lemma eq_foldl_stride_of_foldlM {pieces : List (List Char)}
    (h : pieces.foldlM tree.step base = .ok location) : location = pieces.foldl stride base := by
  induction pieces generalizing base with
  | nil => exact (Except.ok.inj h).symm
  | cons piece rest ih =>
    rw [List.foldlM_cons, Steps.bind_eq_ok_iff] at h
    obtain ⟨next, hstep, hrest⟩ := h
    rw [List.foldl_cons, ← eq_stride_of_step hstep]
    exact ih hrest

/-- A path that leads somewhere leads to the location that it names. -/
lemma eq_placeOf_of_resolve (h : tree.resolve path = .ok location) :
    location = tree.placeOf path := by
  exact eq_foldl_stride_of_foldlM (follow_of_resolve h)

/-- A path that leads to a name in a directory names the location of the name. -/
lemma Spot.placeOf_eq {name : String} (h : tree.Spot path base name) :
    tree.placeOf path = base ++ [name] :=
  (eq_placeOf_of_resolve h.resolve).symm

/-- Pieces that mean nothing name the location where they are. -/
lemma foldl_stride_of_isVoid {pieces : List (List Char)}
    (h : ∀ piece ∈ pieces, Path.isVoid piece = true) (location : Location) :
    pieces.foldl stride location = location := by
  have hstay : ∀ l, ∀ piece ∈ pieces, stride l piece = l := fun l piece hpiece =>
    if_pos (h piece hpiece)
  rw [List.foldl_ext _ _ _ hstay, List.foldl_fixed]

/-- A name names what is under it. -/
lemma stride_of_isName {name : String} (h : Path.IsName name) (location : Location) :
    stride location name.toList = location ++ [name] := by
  have hdots := (Path.isName_iff.1 h).2.2.2
  simp [stride, h.isVoid_eq_false, hdots]

/-- Slashes at the end of a path do not matter for the location that it names. -/
lemma foldl_stride_corePieces :
    (corePieces path).foldl stride (tree.start path) = tree.placeOf path := by
  obtain ⟨slashes, hcore, hempty⟩ := exists_split_eq_corePieces path
  have hvoid : ∀ piece ∈ slashes, Path.isVoid piece = true := by
    intro piece hpiece
    rw [hempty piece hpiece]
    rfl
  rw [placeOf, hcore, List.foldl_append, foldl_stride_of_isVoid hvoid]

/-- A path that ends in a name and its temporary file name locations beside each other. -/
lemma exists_placeOf_of_fileName? (tree : FileTree) {name : String} (h : path.fileName? = some name) :
    ∃ base, tree.placeOf path = base ++ [name] ∧
      tree.placeOf (FileOperation.temporary path) = scratch base name := by
  obtain ⟨hname, before, tail, hsplit, htail⟩ := Path.exists_split_of_fileName? h
  obtain ⟨-, dir, voids, hparent, rfl, hvoids, habsolute⟩ :=
    Path.exists_parent? hsplit hname htail
  refine ⟨dir.lead.foldl stride (tree.start path), ?_, ?_⟩
  · rw [placeOf, hsplit, List.foldl_append, List.foldl_append, foldl_stride_of_isVoid hvoids,
      List.foldl_cons, stride_of_isName hname, foldl_stride_of_isVoid htail]
  · have hother : Path.IsName (name ++ ".tmp") := hname.append (by decide)
    have hself : (⟨name ++ ".tmp"⟩ : Path) = .ofNames [name ++ ".tmp"] := by
      simp [Path.ofNames, Text.joinWith]
    have htemporary : FileOperation.temporary path = dir.join (.ofNames [name ++ ".tmp"]) := by
      rw [FileOperation.temporary, Path.withFileName, h, hparent, ← hself]
      rfl
    have hall : ∀ n ∈ [name ++ ".tmp"], Path.IsName n := by simpa using hother
    have hstart : tree.start dir = tree.start path := by rw [start, start, habsolute]
    rw [placeOf, htemporary, start_join (Path.isAbsolute_ofNames hall), hstart,
      Path.split_join_ofNames (by simp) hall, List.foldl_append]
    exact stride_of_isName hother _

/-- Names that are seen from a directory name what is under them there. -/
lemma placeOf_join_of_reach {dir : Path} {names : List String} (h : tree.reach dir = .ok base)
    (hne : names ≠ []) (hnames : ∀ name ∈ names, Path.IsName name) :
    tree.placeOf (dir.join (.ofNames names)) = base ++ names := by
  have hstep : ∀ l : Location, (names.map String.toList).foldl stride l = l ++ names := by
    clear hne
    induction names with
    | nil => simp
    | cons name rest ih =>
      obtain ⟨hname, hrest⟩ := List.forall_mem_cons.1 hnames
      intro l
      rw [List.map_cons, List.foldl_cons, stride_of_isName hname, ih hrest, List.append_assoc,
        List.singleton_append]
  rw [placeOf, Path.split_join_ofNames hne hnames, List.foldl_append, hstep,
    start_join (Path.isAbsolute_ofNames hnames)]
  exact congrArg (· ++ names) (eq_foldl_stride_of_foldlM h).symm

/-- Where a path leads depends on nothing but where it is looked at from. -/
lemma placeOf_congr (h : after.current = tree.current) (path : Path) :
    after.placeOf path = tree.placeOf path := by
  rw [placeOf, placeOf, start, start, h]

/-! ## Trees with the same files -/

/-- What the file at a location holds, if there is one. -/
def fileAt? (tree : FileTree) (location : Location) : Option Content :=
  match tree.at? location with
  | some (.file content) => some content
  | _ => none

/-- The second tree has the same files as the first one, but for those at some locations. -/
structure Spares (before after : FileTree) (touched : List Location) : Prop where
  /-- Paths are resolved from the same place. -/
  current : after.current = before.current
  /-- Elsewhere are the files that were there before. -/
  fileAt? : ∀ l, l ∉ touched → after.fileAt? l = before.fileAt? l

/-- A tree has its own files. -/
lemma Spares.refl (tree : FileTree) : tree.Spares tree touched :=
  ⟨rfl, fun _ _ => rfl⟩

/-- One change after another. -/
lemma Spares.trans (h : tree.Spares between touched) (hnext : between.Spares after touched) :
    tree.Spares after touched where
  current := hnext.current.trans h.current
  fileAt? l hl := (hnext.fileAt? l hl).trans (h.fileAt? l hl)

/-- More may be touched. -/
lemma Spares.mono (h : tree.Spares after touched) {more : List Location} (hmore : touched ⊆ more) :
    tree.Spares after more :=
  ⟨h.current, fun l hl => h.fileAt? l fun htouched => hl (hmore htouched)⟩

/-- Putting something at a location spares the other ones. -/
lemma spares_put (location : Location) (entry : Entry) :
    tree.Spares (tree.put location entry) [location] where
  current := rfl
  fileAt? l hl := by
    have hother : location ≠ l := fun hsame => hl (by simp [hsame])
    rw [FileTree.fileAt?, at?_put_of_ne tree hother, FileTree.fileAt?]

/-- A tree that differs in some files spares the others. -/
lemma Rewritten.spares (h : tree.Rewritten after touched) : tree.Spares after touched where
  current := h.current
  fileAt? l hl := by rw [FileTree.fileAt?, h.elsewhere l hl, FileTree.fileAt?]

/-- A file that holds something is there. -/
lemma at?_of_fileAt?_eq_some {content : Content}
    (h : tree.fileAt? location = some content) : tree.at? location = some (.file content) := by
  unfold fileAt? at h
  split at h
  · next found hfound => rw [hfound, Option.some.inj h]
  · cases h

/-- A text is read as before while the directories stay and its place is spared. -/
lemma readText_of_spares {text : String} (hspared : tree.Spares after touched)
    (hdirectory : ∀ l, tree.at? l = some .directory → after.at? l = some .directory)
    (hread : tree.readText path = .ok text) (hplace : tree.placeOf path ∉ touched) :
    after.readText path = .ok text := by
  obtain ⟨location, hresolve, hfile⟩ := readText_eq_ok_iff.1 hread
  refine readText_eq_ok_iff.2 ⟨location, resolve_mono hspared.current hdirectory hresolve, ?_⟩
  rw [← eq_placeOf_of_resolve hresolve] at hplace
  refine at?_of_fileAt?_eq_some ?_
  rw [hspared.fileAt? location hplace, fileAt?, hfile]

/-! ## Trees in which directories have been made -/

/-- A location has what it had before, or there is a directory where there was nothing. -/
def Kept (before after : FileTree) (location : Location) : Prop :=
  after.at? location = before.at? location ∨
    before.at? location = none ∧ after.at? location = some .directory

/-- The second tree has all that the first one has, and directories at some of the given locations
where there was nothing. -/
structure Grown (before after : FileTree) (made : List Location) : Prop where
  /-- Paths are resolved from the same place. -/
  current : after.current = before.current
  /-- Nothing is changed but for the directories. -/
  at? : ∀ l, after.at? l = before.at? l ∨
    l ∈ made ∧ before.at? l = none ∧ after.at? l = some .directory
  /-- If the first tree stands for real files, the second one does. -/
  grounded : before.Grounded → after.Grounded

variable {made more : List Location}

/-- A file that is kept holds what it held. -/
lemma Kept.fileAt?_eq (h : tree.Kept after location) :
    after.fileAt? location = tree.fileAt? location := by
  unfold fileAt?
  rcases h with hsame | ⟨hnone, hdirectory⟩
  · rw [hsame]
  · rw [hnone, hdirectory]

/-- What is kept elsewhere and not touched is kept. -/
lemma Kept.trans (h : tree.Kept between location) (hnext : between.Kept after location) :
    tree.Kept after location := by
  rcases h with hsame | ⟨hnone, hdirectory⟩
  · unfold Kept
    rwa [← hsame]
  · refine .inr ⟨hnone, ?_⟩
    rcases hnext with hsame | ⟨hfree, -⟩
    · rw [hsame, hdirectory]
    · rw [hdirectory] at hfree
      cases hfree

namespace Grown

/-- A tree has all that it has. -/
lemma refl (tree : FileTree) : tree.Grown tree made :=
  ⟨rfl, fun _ => .inl rfl, id⟩

/-- Every location is kept. -/
lemma kept (h : tree.Grown after made) (location : Location) : tree.Kept after location :=
  (h.at? location).imp_right And.right

/-- Directories may be made at more locations. -/
lemma mono (h : tree.Grown after made) (hmore : made ⊆ more) : tree.Grown after more :=
  ⟨h.current, fun l => (h.at? l).imp_right fun hmade => ⟨hmore hmade.1, hmade.2⟩, h.grounded⟩

/-- Directories can be made one after another. -/
lemma trans (h : tree.Grown between made) (hnext : between.Grown after made) :
    tree.Grown after made where
  current := hnext.current.trans h.current
  at? l := by
    rcases hnext.at? l with hsame | ⟨hmade, -⟩
    · rw [hsame]
      exact h.at? l
    · exact ((h.kept l).trans (hnext.kept l)).imp_right fun hnew => ⟨hmade, hnew⟩
  grounded hgrounded := hnext.grounded (h.grounded hgrounded)

/-- A tree in which directories have been made has the same files. -/
lemma spares (h : tree.Grown after made) : tree.Spares after touched :=
  ⟨h.current, fun l _ => (h.kept l).fileAt?_eq⟩

end Grown

/-- A path that is not empty and has slashes only starts at the root. -/
lemma isAbsolute_of_corePieces_eq_nil (hne : path.text ≠ "") (h : corePieces path = []) :
    path.isAbsolute = true := by
  obtain ⟨slashes, hcore, hempty⟩ := exists_split_eq_corePieces path
  rw [h, List.nil_append] at hcore
  obtain ⟨first, rest, hsplit⟩ :=
    List.exists_cons_of_ne_nil (Text.splitAt_ne_nil '/' path.text.toList)
  change path.split = first :: rest at hsplit
  obtain rfl : first = [] := hempty first (by simp [← hcore, hsplit])
  unfold Path.isAbsolute Path.pieces
  cases rest with
  | nil => exact absurd (Path.split_eq_singleton_nil_iff.1 hsplit) hne
  | cons =>
    rw [← Path.split, hsplit]
    rfl

/-- A directory is made at the location that the path names. -/
lemma grown_of_makeDirectory (hne : path.text ≠ "") (h : tree.makeDirectory path = .ok after) :
    tree.Grown after [tree.placeOf path] := by
  obtain ⟨location, hfollow, hmade⟩ := Steps.bind_eq_ok_iff.1 h
  split at hmade
  · next hnone =>
    obtain rfl := Except.ok.inj hmade
    have hroot : location ≠ [] := by
      rintro rfl
      cases hnone
    have hplace : location = tree.placeOf path :=
      (eq_foldl_stride_of_foldlM hfollow).trans foldl_stride_corePieces
    refine ⟨rfl, fun l => ?_, fun hgrounded => ?_⟩
    · rw [at?_put_eq hroot]
      split_ifs with hsame
      · exact .inr ⟨by simp [← hplace, hsame], hsame ▸ hnone, rfl⟩
      · exact .inl rfl
    · have hpieces : corePieces path ≠ [] := by
        intro hnil
        rw [follow, hnil, start, if_pos (isAbsolute_of_corePieces_eq_nil hne hnil)] at hfollow
        exact hroot (Except.ok.inj hfollow).symm
      have hslash : ∀ piece ∈ corePieces path, '/' ∉ piece := fun piece hpiece =>
        Path.slash_not_mem_of_mem_split ((List.rdropWhile_prefix List.isEmpty _).subset hpiece)
      obtain ⟨-, base, name, -, -, rfl, hname, hbase⟩ :=
        hgrounded.exists_name_of_foldlM hslash hpieces hfollow (by simp [hnone])
      exact hgrounded.put hname hbase fun _ => rfl
  · cases hmade

/-- Directories are made at the locations that their paths name. -/
lemma grown_makeAll (tree : FileTree) {paths : List Path} (hne : ∀ path ∈ paths, path.text ≠ "") :
    tree.Grown (FileOperation.runOn (makeAll paths) tree).2 (paths.map tree.placeOf) := by
  induction paths generalizing tree with
  | nil => exact .refl tree
  | cons path above ih =>
    obtain ⟨hpath, habove⟩ := List.forall_mem_cons.1 hne
    unfold makeAll
    rw [FileOperation.runOn_get_bind]
    split
    · next made hmade => exact (grown_of_makeDirectory hpath hmade).mono (by simp)
    -- the directories above are made first, and then it is tried again
    · have hfirst := (ih tree habove).mono (List.subset_cons_self (tree.placeOf path) _)
      rw [FileOperation.runOn_bind]
      rcases hrun : FileOperation.runOn (makeAll above) tree with ⟨failure | ⟨⟩, between⟩
      all_goals rw [hrun] at hfirst
      · exact hfirst
      · dsimp only
        rw [FileOperation.runOn_get_bind]
        split
        · next made hmade =>
          have hlast := grown_of_makeDirectory hpath hmade
          rw [placeOf_congr hfirst.current] at hlast
          exact hfirst.trans (hlast.mono (by simp))
        · split <;> exact hfirst
    · split <;> exact .refl tree

/-- The directories above a file, the nearest first. -/
def directoriesAbove (path : Path) : List Path :=
  match path.parent? with
  | none => []
  | some parent => ancestors (parent.text.length + 1) parent

/-- The empty path is not among the directories above a path. -/
lemma text_ne_of_mem_ancestors {fuel : ℕ} {dir : Path} (h : dir ∈ ancestors fuel path) :
    dir.text ≠ "" := by
  induction fuel generalizing path with
  | zero => exact absurd h List.not_mem_nil
  | succ fuel ih =>
    unfold ancestors at h
    split at h
    · exact absurd h List.not_mem_nil
    · next parent hparent =>
      rcases List.mem_cons.1 h with rfl | hrest
      · intro hempty
        obtain rfl : dir = ⟨""⟩ := by rw [← hempty]
        cases hparent
      · exact ih hrest

/-! ## Single steps -/

/-- A text is written to the location that the path names. -/
lemma writeText_eq_ok {text : String} (h : tree.writeText path text = .ok after) :
    tree.placeOf path ≠ [] ∧ after = tree.put (tree.placeOf path) (.file (.text text)) := by
  obtain ⟨location, hresolve, hwritten⟩ := Steps.bind_eq_ok_iff.1 h
  obtain rfl := eq_placeOf_of_resolve hresolve
  split at hwritten
  · cases hwritten
  · next hfree =>
    refine ⟨fun hroot => hfree ?_, (Except.ok.inj hwritten).symm⟩
    rw [hroot]
    rfl

/-- A text is not written to a directory. -/
lemma at?_ne_directory_of_writeText {text : String} (h : tree.writeText path text = .ok after) :
    tree.at? (tree.placeOf path) ≠ some .directory := by
  obtain ⟨location, hresolve, hwritten⟩ := Steps.bind_eq_ok_iff.1 h
  obtain rfl := eq_placeOf_of_resolve hresolve
  split at hwritten
  · cases hwritten
  · next hfree => exact hfree

/-- A file is moved to a name in a directory, where there is no directory. -/
lemma exists_spot_of_moveFile {source target : Path} (h : tree.moveFile source target = .ok after) :
    ∃ base name content, tree.Spot target base name ∧
      tree.at? (tree.placeOf source) = some (.file content) ∧
      tree.at? (base ++ [name]) ≠ some .directory ∧
      after = if tree.placeOf source = base ++ [name] then tree
        else (tree.remove (tree.placeOf source)).put (base ++ [name]) (.file content) := by
  obtain ⟨origin, horigin, hmoved⟩ := Steps.bind_eq_ok_iff.1 h
  obtain rfl := eq_placeOf_of_resolve horigin
  dsimp only at hmoved
  split at hmoved
  · cases hmoved
  next hne =>
  split at hmoved
  · cases hmoved
  next last before hcore =>
  obtain ⟨base, hfollow, hmoved⟩ := Steps.bind_eq_ok_iff.1 hmoved
  obtain ⟨destination, hstep, hmoved⟩ := Steps.bind_eq_ok_iff.1 hmoved
  split at hmoved
  · cases hmoved
  next hmeans =>
  split at hmoved
  · cases hmoved
  next hslash =>
  -- without a slash at the end no piece is left out
  have hpieces : corePieces target = before.reverse ++ [last] := by
    rw [← List.reverse_reverse (corePieces target), hcore, List.reverse_cons]
  obtain ⟨slashes, hsplit, hempty⟩ := exists_split_eq_corePieces target
  rw [hpieces] at hsplit
  obtain rfl : slashes = [] := by
    rcases List.eq_nil_or_concat slashes with hnone | ⟨init, piece, rfl⟩
    · exact hnone
    · obtain rfl : piece = [] := hempty piece (by simp)
      rw [List.concat_eq_append, ← List.append_assoc] at hsplit
      exact absurd (Path.getLast?_of_split_eq_concat_nil hne hsplit) hslash
  rw [List.append_nil] at hsplit
  have hcomponent : Path.component? last = some (.name (String.ofList last)) := by
    unfold Path.component? at hmeans ⊢
    split_ifs at hmeans ⊢ <;> simp_all
  have hname : Path.IsName (String.ofList last) := by
    rw [Path.IsName, String.toList_ofList]
    refine ⟨Path.slash_not_mem_of_mem_split (p := target) ?_, hcomponent⟩
    rw [hsplit]
    simp
  have hspot : tree.Spot target base (String.ofList last) :=
    ⟨hname, directory_of_step hstep, before.reverse, by rw [hsplit, String.toList_ofList], hfollow⟩
  obtain rfl : destination = base ++ [String.ofList last] := by
    have hnamed := step_of_isName hname hspot.directory
    rw [String.toList_ofList, hstep] at hnamed
    exact Except.ok.inj hnamed
  split at hmoved
  · cases hmoved
  · cases hmoved
  · cases hmoved
  · next content hfile hfree =>
    refine ⟨base, _, content, hspot, hfile, hfree, ?_⟩
    split at hmoved
    · next hsame => rw [if_pos hsame, Except.ok.inj hmoved]
    · next hother => rw [if_neg hother, Except.ok.inj hmoved]

/-- In a tree of real files a text is written to a name in a directory. -/
lemma Grounded.exists_name_of_writeText {text : String} (hgrounded : tree.Grounded)
    (h : tree.writeText path text = .ok after) :
    ∃ base name, tree.placeOf path = base ++ [name] ∧ Path.IsName name ∧
      tree.at? base = some .directory := by
  obtain ⟨location, hresolve, -⟩ := Steps.bind_eq_ok_iff.1 h
  obtain rfl := eq_placeOf_of_resolve hresolve
  obtain ⟨-, base, name, -, -, hplace, hname, hbase⟩ :=
    hgrounded.exists_name_of_foldlM (fun _ => Path.slash_not_mem_of_mem_split)
      (Text.splitAt_ne_nil '/' path.text.toList) (follow_of_resolve hresolve) (at?_ne_directory_of_writeText h)
  exact ⟨base, name, hplace, hname, hbase⟩

/-- Moving a file changes its old place and its new one only, and its text is read there. -/
lemma of_moveFile_eq_ok {source target : Path} (h : tree.moveFile source target = .ok after) :
    tree.Rewritten after [tree.placeOf target, tree.placeOf source] ∧
      ∀ text, tree.fileAt? (tree.placeOf source) = some (.text text) →
        after.readText target = .ok text := by
  obtain ⟨base, name, content, hspot, hfile, hfree, rfl⟩ := exists_spot_of_moveFile h
  have htext : ∀ text, tree.fileAt? (tree.placeOf source) = some (.text text) →
      content = .text text := by
    intro text hthere
    rw [fileAt?, hfile] at hthere
    exact Option.some.inj hthere
  rw [hspot.placeOf_eq]
  split
  · next hsame =>
    refine ⟨(Rewritten.refl tree).mono (List.nil_subset _), fun text hthere => ?_⟩
    rw [hsame, htext text hthere] at hfile
    exact readText_eq_ok_iff.2 ⟨_, hspot.resolve, hfile⟩
  · have hroot : tree.placeOf source ≠ [] := by
      intro hroot
      rw [hroot] at hfile
      cases hfile
    have hno : tree.at? (tree.placeOf source) ≠ some .directory := by simp [hfile]
    have hremoved := rewritten_remove hroot hno
    have hput := rewritten_put hspot.isName ((hremoved.directory base).2 hspot.directory)
      ((hremoved.directory _).not.2 hfree) content
    refine ⟨(hremoved.trans hput).mono (by simp), fun text hthere => ?_⟩
    rw [htext text hthere] at hput ⊢
    exact readText_eq_ok_iff.2 ⟨_, (hput.spot (hremoved.spot hspot)).resolve,
      at?_put _ (by simp) _⟩

end FileTree

namespace FileOperation

variable {ε α β : Type} {tree after : FileTree} {touched : List Location} {path : Path}

/-- Run on a tree, an operation changes no file but those at some locations, whether it succeeds or
fails. -/
def Confined (operation : FileOperation ε α) (tree : FileTree) (touched : List Location) : Prop :=
  tree.Spares (operation.runOn tree).2 touched

/-- What is spared when an operation has been run. -/
lemma Confined.spares {operation : FileOperation ε α} (h : operation.Confined tree touched)
    {result : Except ε α} (hrun : operation.runOn tree = (result, after)) :
    tree.Spares after touched := by
  unfold Confined at h
  rwa [hrun] at h

/-- More may be touched. -/
lemma Confined.mono {operation : FileOperation ε α} (h : operation.Confined tree touched)
    {more : List Location} (hmore : touched ⊆ more) : operation.Confined tree more :=
  FileTree.Spares.mono h hmore

/-- An operation without steps touches nothing. -/
lemma confined_pure (value : α) : (pure value : FileOperation ε α).Confined tree touched :=
  FileTree.Spares.refl tree

/-- A step that only looks touches nothing. -/
lemma confined_look (action : FileTree → Except ε α) : (look action).Confined tree touched := by
  unfold Confined
  rw [runOn_look]
  exact FileTree.Spares.refl tree

/-- One operation after another touches what they touch. -/
lemma Confined.bind {operation : FileOperation ε α} {next : α → FileOperation ε β}
    (h : operation.Confined tree touched)
    (hnext : ∀ value after, operation.runOn tree = (.ok value, after) →
      tree.Spares after touched → (next value).Confined after touched) :
    (operation >>= next).Confined tree touched := by
  unfold Confined at *
  rw [runOn_bind]
  rcases hrun : operation.runOn tree with ⟨failure | value, after⟩
  · rw [hrun] at h
    exact h
  · rw [hrun] at h
    exact h.trans (hnext value after hrun h)

/-- A step touches what it touches if it does not fail. -/
lemma confined_change {action : FileTree → Except ε FileTree}
    (h : ∀ after, action tree = .ok after → tree.Spares after touched) :
    (change action).Confined tree touched := by
  unfold Confined
  rw [runOn_change]
  cases haction : action tree with
  | error failure => exact FileTree.Spares.refl tree
  | ok after => exact h after haction

/-- Reporting against a path touches nothing more. -/
lemma Confined.onPath {operation : FileOperation FileFault α}
    (h : operation.Confined tree touched) : (onPath path operation).Confined tree touched := by
  unfold Confined
  rw [runOn_onPath]
  exact h

/-! ## Replacing a file -/

/-- Making the directories above a file makes nothing else. -/
lemma grown_prepare (tree : FileTree) (path : Path) :
    tree.Grown ((prepare path).runOn tree).2
      ((FileTree.directoriesAbove path).map tree.placeOf) := by
  unfold prepare FileTree.directoriesAbove
  cases path.parent? with
  | none => exact .refl tree
  | some parent =>
    dsimp only
    split
    · exact .refl tree
    · rw [runOn_onPath]
      exact FileTree.grown_makeAll tree fun _ => FileTree.text_ne_of_mem_ancestors

/-- Making the directories above a file changes no file. -/
lemma confined_prepare (path : Path) : (prepare path).Confined tree touched :=
  (grown_prepare tree path).spares

/-- Writing a text touches the file that it is written to. -/
lemma confined_writeText (path : Path) (text : String) :
    (onPath path (change fun tree => tree.writeText path text)).Confined tree
      [tree.placeOf path] := by
  refine (confined_change fun written hwritten => ?_).onPath
  obtain ⟨-, rfl⟩ := FileTree.writeText_eq_ok hwritten
  exact FileTree.spares_put _ _

/-- All of a replacement but its last step: the text is in the temporary file. -/
def draft (path : Path) (text : String) : FileOperation Failure Unit := do
  prepare path
  onPath (temporary path) (change fun tree => tree.writeText (temporary path) text)

/-- The last step of a replacement moves the temporary file to its place. -/
lemma replace_eq_draft_bind (path : Path) (text : String) :
    replace path text = (draft path text >>= fun _ =>
      onPath path (change fun tree => tree.moveFile (temporary path) path)) :=
  (bind_assoc _ _ _).symm

/-- All but the last step touches the temporary file only. -/
lemma confined_draft (path : Path) (text : String) :
    (draft path text).Confined tree [tree.placeOf (temporary path)] := by
  refine (confined_prepare path).bind fun _ ready _ hready => ?_
  rw [← FileTree.placeOf_congr hready.current]
  exact confined_writeText (temporary path) text

/-- But for the temporary file, what is there before the last step was there when the directories
had been made. -/
lemma at?_draft {text : String} {location : Location}
    (h : location ≠ tree.placeOf (temporary path)) :
    ((draft path text).runOn tree).2.at? location = ((prepare path).runOn tree).2.at? location := by
  have hready := grown_prepare tree path
  unfold draft
  rw [runOn_bind]
  rcases hrun : (prepare path).runOn tree with ⟨failure | ⟨⟩, ready⟩
  · rfl
  · rw [hrun] at hready
    dsimp only
    rw [runOn_onPath_change]
    split
    · next written hwritten =>
      obtain ⟨-, rfl⟩ := FileTree.writeText_eq_ok hwritten
      rw [FileTree.placeOf_congr hready.current]
      exact FileTree.at?_put_of_ne ready h.symm _
    · rfl

/-- If replacing a file fails, its last step has changed nothing. -/
lemma runOn_draft_of_replace_eq_error {text : String} {failure : Failure}
    (h : (replace path text).runOn tree = (.error failure, after)) :
    ((draft path text).runOn tree).2 = after := by
  rw [replace_eq_draft_bind, runOn_bind_eq_error_iff] at h
  rcases h with hfail | ⟨⟨⟩, written, hwritten, hmove⟩
  · rw [hfail]
  · rw [runOn_onPath_change] at hmove
    split at hmove
    · cases hmove
    · cases hmove
      rw [hwritten]

/-- The directories above a file have been made, the path leads to a name in one of them, and there
is no directory in the way of the file or its temporary file. -/
structure Ready (tree ready : FileTree) (path : Path) (base : Location) (name : String) : Prop where
  /-- The directories have been made. -/
  prepared : (prepare path).runOn tree = (.ok (), ready)
  /-- Nothing else has been made. -/
  grown : tree.Grown ready ((FileTree.directoriesAbove path).map tree.placeOf)
  /-- The path leads to a name in a directory. -/
  spot : ready.Spot path base name
  /-- The path names the location of the name. -/
  place : tree.placeOf path = base ++ [name]
  /-- The temporary file is beside it. -/
  scratch : tree.placeOf (temporary path) = FileTree.scratch base name
  /-- There is no directory in the place of the temporary file. -/
  scratch_free : ready.at? (FileTree.scratch base name) ≠ some .directory
  /-- There is no directory in the place of the file. -/
  place_free : ready.at? (base ++ [name]) ≠ some .directory

/-- A file is replaced in a tree that is ready for it. -/
lemma exists_ready_of_replace_eq_ok {text : String}
    (h : (replace path text).runOn tree = (.ok (), after)) :
    ∃ ready base name, Ready tree ready path base name ∧
      after = ready.replaced base name text := by
  obtain ⟨⟨⟩, ready, hready, hrest⟩ := runOn_bind_eq_ok_iff.1 h
  obtain ⟨⟨⟩, written, hwrite, hmove⟩ := runOn_bind_eq_ok_iff.1 hrest
  rw [runOn_onPath_change_eq_ok_iff] at hwrite hmove
  obtain ⟨hscratch, rfl⟩ := FileTree.writeText_eq_ok hwrite
  obtain ⟨base, name, -, hwritten, -, -, -⟩ := FileTree.exists_spot_of_moveFile hmove
  -- writing a file makes no directory, so the path led there before
  have hspot : ready.Spot path base name := by
    have hcurrent : ready.current = (ready.put (ready.placeOf (temporary path))
      (.file (.text text))).current := rfl
    refine hwritten.mono hcurrent fun l hl => ?_
    rw [FileTree.at?_put_eq hscratch] at hl
    split_ifs at hl
    · cases hl
    · exact hl
  have hagain : (replace path text).runOn ready = (.ok (), after) := by
    unfold replace
    rw [runOn_bind, hspot.runOn_prepare]
    exact hrest
  have hgrown := grown_prepare tree path
  rw [hready] at hgrown
  rw [hspot.runOn_replace] at hagain
  split_ifs at hagain with htemporary hfile
  · cases hagain
  · cases hagain
  · refine ⟨ready, base, name, ⟨hready, hgrown, hspot, ?_, ?_, htemporary, hfile⟩,
      (Prod.mk.inj hagain).2.symm⟩
    · rw [← FileTree.placeOf_congr hgrown.current, hspot.placeOf_eq]
    · rw [← FileTree.placeOf_congr hgrown.current, hspot.temporary.placeOf_eq, FileTree.scratch]

/-- If replacing a file succeeds, its place has a file with the text. -/
lemma at?_of_replace_eq_ok {text : String} (h : (replace path text).runOn tree = (.ok (), after)) :
    after.at? (tree.placeOf path) = some (.file (.text text)) := by
  obtain ⟨ready, base, name, hready, rfl⟩ := exists_ready_of_replace_eq_ok h
  rw [hready.place, FileTree.at?_replaced, if_pos rfl]

/-- **If replacing a file fails**, it has touched the temporary file at most. -/
theorem spares_of_replace_eq_error {text : String} {failure : Failure}
    (h : (replace path text).runOn tree = (.error failure, after)) :
    tree.Spares after [tree.placeOf (temporary path)] :=
  runOn_draft_of_replace_eq_error h ▸ confined_draft path text

/-- **If replacing a file succeeds**, the file holds the text, and no other file but the temporary
one has been touched. -/
theorem of_replace_eq_ok {text : String} (h : (replace path text).runOn tree = (.ok (), after)) :
    tree.Spares after [tree.placeOf path, tree.placeOf (temporary path)] ∧
      after.fileAt? (tree.placeOf path) = some (.text text) := by
  refine ⟨?_, by rw [FileTree.fileAt?, at?_of_replace_eq_ok h]⟩
  obtain ⟨ready, base, name, hready, rfl⟩ := exists_ready_of_replace_eq_ok h
  have hrewritten :=
    FileTree.rewritten_replaced hready.spot hready.scratch_free hready.place_free text
  rw [hready.place, hready.scratch]
  exact hready.grown.spares.trans hrewritten.spares

/-- Replacing a file touches it and its temporary file only. -/
lemma confined_replace (path : Path) (text : String) :
    (replace path text).Confined tree [tree.placeOf path, tree.placeOf (temporary path)] := by
  unfold Confined
  rcases hrun : (replace path text).runOn tree with ⟨failure | ⟨⟩, after⟩
  · exact (spares_of_replace_eq_error hrun).mono (by simp)
  · exact (of_replace_eq_ok hrun).1

end FileOperation

end LayeredProfiles
