import LayeredProfiles.Proofs.FileTree.Rewritten

set_option autoImplicit false

/-!
# Replacing files

A file is replaced by way of a temporary one beside it. Where a path leads to a name in a directory,
the directories above it are there already, so what happens is said by two questions: is there a
directory in the place of the temporary file, and is there one in the place of the file? If not,
then the file holds the text, the temporary file is gone, and nothing else is changed.

## Main definitions

* `FileTree.scratch` — where the temporary file of a file is.
* `FileTree.replaced` — the tree in which a file has been replaced.

## Main results

* `FileOperation.runOn_bind`, `FileOperation.runOn_get_bind`, `FileOperation.runOn_bind_eq_ok_iff`,
  `FileOperation.runOn_bind_eq_error_iff` — one operation after another.
* `FileTree.Spot.runOn_replace` — what replacing a file does.
* `FileTree.at?_replaced`, `FileTree.rewritten_replaced` — what is changed by it.
* `FileTree.replaced_of_at?` — replacing a file by itself changes nothing.
-/

namespace LayeredProfiles

/-! ## Running operations -/

namespace FileOperation

variable {ε α β : Type}

/-- An operation runs on the tree that the one before it leaves. -/
lemma runOn_bind (operation : FileOperation ε α) (next : α → FileOperation ε β) (tree : FileTree) :
    (operation >>= next).runOn tree =
      match operation.runOn tree with
      | (.ok value, after) => (next value).runOn after
      | (.error failure, after) => (.error failure, after) := by
  unfold runOn
  rw [ExceptT.run_bind, StateT.run_bind]
  rcases operation.run.run tree with ⟨_ | _, _⟩ <;> rfl

/-- What follows a look at the tree is run on the tree. -/
lemma runOn_get_bind (next : FileTree → FileOperation ε α) (tree : FileTree) :
    (get >>= next).runOn tree = (next tree).runOn tree :=
  runOn_bind get next tree

/-- One operation after another succeeds if both do. -/
lemma runOn_bind_eq_ok_iff {operation : FileOperation ε α} {next : α → FileOperation ε β}
    {tree after : FileTree} {value : β} :
    (operation >>= next).runOn tree = (.ok value, after) ↔
      ∃ found between, operation.runOn tree = (.ok found, between) ∧
        (next found).runOn between = (.ok value, after) := by
  rw [runOn_bind]
  rcases operation.runOn tree with ⟨failure | found, between⟩
  · simp
  · simp [eq_comm, and_assoc]

/-- One operation after another fails if the first one does, or if the second one does on the tree
that the first one leaves. -/
lemma runOn_bind_eq_error_iff {operation : FileOperation ε α} {next : α → FileOperation ε β}
    {tree after : FileTree} {failure : ε} :
    (operation >>= next).runOn tree = (.error failure, after) ↔
      operation.runOn tree = (.error failure, after) ∨
        ∃ found between, operation.runOn tree = (.ok found, between) ∧
          (next found).runOn between = (.error failure, after) := by
  rw [runOn_bind]
  rcases operation.runOn tree with ⟨failure | found, between⟩
  · simp
  · simp [eq_comm, and_assoc]

/-- An operation without steps leaves the tree as it is. -/
lemma runOn_pure (value : α) (tree : FileTree) :
    (pure value : FileOperation ε α).runOn tree = (.ok value, tree) :=
  rfl

/-- A step that fails leaves the tree as it is. -/
lemma runOn_change (action : FileTree → Except ε FileTree) (tree : FileTree) :
    (change action).runOn tree =
      match action tree with
      | .ok after => (.ok (), after)
      | .error failure => (.error failure, tree) := by
  rw [change, runOn_get_bind]
  cases action tree <;> rfl

/-- A step that only looks leaves the tree as it is. -/
lemma runOn_look (action : FileTree → Except ε α) (tree : FileTree) :
    (look action).runOn tree = (action tree, tree) := by
  rw [look, runOn_get_bind]
  cases action tree <;> rfl

/-- Reporting against a path changes the failure only. -/
lemma runOn_onPath (path : Path) (operation : FileOperation FileFault α) (tree : FileTree) :
    (onPath path operation).runOn tree =
      ((operation.runOn tree).1.mapError (Failure.file path), (operation.runOn tree).2) := by
  unfold onPath runOn
  rw [ExceptT.run_adapt, StateT.run_map]
  rfl

/-- A step that is reported against a path yields the tree that it makes, or leaves it as it is. -/
lemma runOn_onPath_change (path : Path) (action : FileTree → Except FileFault FileTree)
    (tree : FileTree) :
    (onPath path (change action)).runOn tree =
      match action tree with
      | .ok after => (.ok (), after)
      | .error fault => (.error (.file path fault), tree) := by
  rw [runOn_onPath, runOn_change]
  cases action tree <;> rfl

/-- A step that is reported against a path succeeds if it yields a tree. -/
lemma runOn_onPath_change_eq_ok_iff {path : Path} {action : FileTree → Except FileFault FileTree}
    {tree after : FileTree} :
    (onPath path (change action)).runOn tree = (.ok (), after) ↔ action tree = .ok after := by
  rw [runOn_onPath_change]
  cases action tree <;> simp

end FileOperation

namespace FileTree

/-- Where the temporary file of a file is. -/
def scratch (base : Location) (name : String) : Location :=
  base ++ [name ++ ".tmp"]

/-- The tree in which a file has been replaced: the temporary file was written and then moved to its
place. -/
def replaced (tree : FileTree) (base : Location) (name text : String) : FileTree :=
  ((tree.put (scratch base name) (.file (.text text))).remove (scratch base name)).put
    (base ++ [name]) (.file (.text text))

variable {tree : FileTree} {base : Location} {name : String} {path : Path}

/-! ## Single steps -/

/-- A directory that is there is not made. -/
lemma makeDirectory_of_resolve {dir : Path} (h : tree.resolve dir = .ok base)
    (hdirectory : tree.at? base = some .directory) : tree.makeDirectory dir = .error .exists := by
  have hfollow := follow_of_resolve h
  obtain ⟨slashes, hcore, hempty⟩ := exists_split_eq_corePieces dir
  rw [hcore, follow, List.foldlM_append, Steps.bind_eq_ok_iff] at hfollow
  obtain ⟨location, hlocation, hrest⟩ := hfollow
  have hvoid : ∀ piece ∈ slashes, Path.isVoid piece = true := by
    intro piece hpiece
    rw [hempty piece hpiece]
    rfl
  rw [← foldlM_step_of_isVoid hvoid hrest] at hlocation
  unfold makeDirectory follow
  rw [hlocation]
  dsimp only [bind, Except.bind]
  rw [hdirectory]

/-- Where a directory is there, none is made. -/
lemma runOn_makeDirectories {dir : Path} (h : tree.resolve dir = .ok base)
    (hdirectory : tree.at? base = some .directory) :
    FileOperation.runOn (makeDirectories dir) tree = (.ok (), tree) := by
  have hthere : tree.isDirectory dir = true := by simp [isDirectory, lookup?, h, hdirectory]
  unfold makeDirectories ancestors
  split
  · rfl
  · unfold makeAll
    rw [FileOperation.runOn_get_bind, makeDirectory_of_resolve h hdirectory]
    dsimp only
    rw [if_pos hthere]
    rfl

/-- The directories above a spot are there. -/
lemma Spot.runOn_prepare (h : tree.Spot path base name) :
    (FileOperation.prepare path).runOn tree = (.ok (), tree) := by
  obtain ⟨-, dir, hparent, hreach⟩ := h.exists_parent?
  unfold FileOperation.prepare
  rw [hparent]
  dsimp only
  split
  · rfl
  · next hne =>
    rw [FileOperation.runOn_onPath,
      runOn_makeDirectories (resolve_of_reach hne hreach h.directory) h.directory]
    rfl

/-- The temporary file of a spot is beside it. -/
lemma Spot.temporary (h : tree.Spot path base name) :
    tree.Spot (FileOperation.temporary path) base (name ++ ".tmp") := by
  rw [FileOperation.temporary, h.exists_parent?.1]
  exact h.beside (h.isName.append (by decide))

/-- Writing to a spot needs that there is no directory. -/
lemma Spot.writeText_eq (h : tree.Spot path base name) (text : String) :
    tree.writeText path text =
      if tree.at? (base ++ [name]) = some .directory then .error .isADirectory
      else .ok (tree.put (base ++ [name]) (.file (.text text))) := by
  unfold writeText
  rw [h.resolve]
  dsimp only [bind, Except.bind]
  split <;> simp_all

/-- A file is moved to another spot in its directory unless there is a directory in that place. -/
lemma Spot.moveFile_eq {source : Path} {other : String} (h : tree.Spot path base name)
    (hsource : tree.Spot source base other) (hother : other ≠ name) {content : Content}
    (hfile : tree.at? (base ++ [other]) = some (.file content)) :
    tree.moveFile source path =
      if tree.at? (base ++ [name]) = some .directory then .error .isADirectory
      else .ok ((tree.remove (base ++ [other])).put (base ++ [name]) (.file content)) := by
  obtain ⟨before, hsplit, hfollow⟩ := h.leads
  obtain ⟨hcore, hslash⟩ := h.corePieces_eq
  have hne : path.text ≠ "" := by
    intro hempty
    have hresolve := h.resolve
    rw [FileTree.resolve, if_pos hempty] at hresolve
    cases hresolve
  have hdots := (Path.isName_iff.1 h.isName).2.2.2
  have hmoved : base ++ [other] ≠ base ++ [name] := by simpa using hother
  unfold moveFile
  rw [hsource.resolve, hcore, hsplit, List.reverse_concat]
  simp only [bind, Except.bind, hne, if_false, List.reverse_reverse, hfollow,
    step_of_isName h.isName h.directory, h.isName.2, reduceCtorEq, hdots, or_self, hslash, hfile,
    hmoved]
  split <;> simp_all

/-! ## Replacing a file -/

/-- A file and its temporary file have different names. -/
lemma append_tmp_ne (name : String) : name ++ ".tmp" ≠ name := by
  intro h
  have hlength := congrArg String.length h
  simp at hlength

/-- A file and its temporary file are at different places. -/
lemma scratch_ne (base : Location) (name : String) : scratch base name ≠ base ++ [name] := by
  simp [scratch]

/-- **What replacing a file does**: it fails without a change if there is a directory in the place
of the temporary file, it leaves the temporary file if there is a directory in the place of the
file, and else it replaces the file. -/
theorem Spot.runOn_replace (h : tree.Spot path base name) (text : String) :
    (FileOperation.replace path text).runOn tree =
      if tree.at? (scratch base name) = some .directory then
        (.error (.file (FileOperation.temporary path) .isADirectory), tree)
      else if tree.at? (base ++ [name]) = some .directory then
        (.error (.file path .isADirectory), tree.put (scratch base name) (.file (.text text)))
      else (.ok (), tree.replaced base name text) := by
  unfold FileOperation.replace
  rw [FileOperation.runOn_bind, h.runOn_prepare]
  dsimp only
  rw [FileOperation.runOn_bind, FileOperation.runOn_onPath, FileOperation.runOn_change,
    h.temporary.writeText_eq, ← scratch]
  by_cases hscratch : tree.at? (scratch base name) = some .directory
  · rw [if_pos hscratch, if_pos hscratch]
    rfl
  · rw [if_neg hscratch, if_neg hscratch]
    dsimp only [Except.mapError]
    -- the temporary file is written, so what it is moved to is found as before
    have hwritten : Rewritten tree (tree.put (scratch base name) (.file (.text text)))
        [scratch base name] := rewritten_put h.temporary.isName h.directory hscratch (.text text)
    have hfile : (tree.put (scratch base name) (.file (.text text))).at? (scratch base name) =
        some (.file (.text text)) := at?_put tree (by simp [scratch]) _
    rw [FileOperation.runOn_onPath, FileOperation.runOn_change,
      (hwritten.spot h).moveFile_eq (hwritten.spot h.temporary) (append_tmp_ne name) hfile,
      at?_put_of_ne tree (scratch_ne base name)]
    by_cases hdirectory : tree.at? (base ++ [name]) = some .directory
    · rw [if_pos hdirectory, if_pos hdirectory]
      rfl
    · rw [if_neg hdirectory, if_neg hdirectory]
      rfl

/-- Replacing a file changes it and takes its temporary file away. -/
lemma at?_replaced (text : String) (location : Location) :
    (tree.replaced base name text).at? location =
      if base ++ [name] = location then some (.file (.text text))
      else if scratch base name = location then none
      else tree.at? location := by
  unfold replaced
  rw [at?_put_eq (by simp), at?_remove (by simp [scratch]), at?_put_eq (by simp [scratch])]
  split_ifs <;> rfl

/-- Replacing a file changes nothing but it and its temporary file. -/
lemma rewritten_replaced (h : tree.Spot path base name)
    (hscratch : tree.at? (scratch base name) ≠ some .directory)
    (hfile : tree.at? (base ++ [name]) ≠ some .directory) (text : String) :
    Rewritten tree (tree.replaced base name text) [base ++ [name], scratch base name] := by
  have hwritten := rewritten_put h.temporary.isName h.directory hscratch (.text text)
  have hne : scratch base name ≠ [] := by simp [scratch]
  have hremoved := rewritten_remove hne ((hwritten.directory _).not.2 hscratch)
  have hboth := hwritten.trans hremoved
  have hmoved := rewritten_put h.isName ((hboth.directory base).2 h.directory)
    ((hboth.directory _).not.2 hfile) (.text text)
  exact (hboth.trans hmoved).mono (by simp [scratch])

/-- Replacing a file by itself changes nothing, if there is no temporary file. -/
lemma replaced_of_at? {text : String} (hscratch : tree.at? (scratch base name) = none)
    (hfile : tree.at? (base ++ [name]) = some (.file (.text text))) :
    tree.replaced base name text = tree := by
  rw [at?_eq_get? (by simp [scratch]), OrderedMap.get?_eq_none_iff] at hscratch
  rw [at?_eq_get? (by simp)] at hfile
  obtain ⟨entries, current⟩ := tree
  -- the temporary file is added and taken away, and the file is put where it is
  unfold replaced put remove
  dsimp only at *
  rw [OrderedMap.erase_insert_of_not_mem hscratch, OrderedMap.insert_of_get? hfile]

end FileTree

end LayeredProfiles
