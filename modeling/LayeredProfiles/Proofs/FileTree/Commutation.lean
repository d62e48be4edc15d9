import LayeredProfiles.Proofs.FileTree.Replacement
import LayeredProfiles.Proofs.OrderedMap

set_option autoImplicit false

/-!
# Operations in either order

Two operations commute on a tree if it does not matter which of them comes first: each yields what it
yields by itself, and they leave the same tree. A step that only looks commutes with whatever does not
change what it sees. Two files can be replaced in either order if neither they nor their temporary
files get in each other's way and one of them is there already. If neither were there, the one that
comes first would get the first entry.

## Main definitions

* `FileOperation.Commute` — the order of two operations does not matter.

## Main results

* `FileOperation.Commute.bind`, `FileOperation.Commute.look_bind` — operations that are put together.
* `FileTree.Spot.rewritten_replace` — what replacing a file can change, even if it fails.
* `FileTree.Spot.commute_replace` — two files are replaced in either order.
-/

namespace LayeredProfiles

namespace FileOperation

variable {ε α β γ : Type}

/-- What changes nothing may follow an operation without changing what it leaves. -/
lemma runOn_bind_snd (operation : FileOperation ε α) {next : α → FileOperation ε β}
    (h : ∀ value after, ((next value).runOn after).2 = after) (tree : FileTree) :
    ((operation >>= next).runOn tree).2 = (operation.runOn tree).2 := by
  rw [runOn_bind]
  rcases operation.runOn tree with ⟨failure | value, after⟩
  · rfl
  · exact h value after

/-- The order of two operations on a tree does not matter, whether they succeed or fail. -/
structure Commute (a : FileOperation ε α) (b : FileOperation ε β) (tree : FileTree) : Prop where
  /-- The first one yields the same after the second one. -/
  left : (a.runOn (b.runOn tree).2).1 = (a.runOn tree).1
  /-- The second one yields the same after the first one. -/
  right : (b.runOn (a.runOn tree).2).1 = (b.runOn tree).1
  /-- They leave the same tree. -/
  tree_eq : (b.runOn (a.runOn tree).2).2 = (a.runOn (b.runOn tree).2).2

namespace Commute

variable {a : FileOperation ε α} {b : FileOperation ε β} {next : α → FileOperation ε γ}
  {tree : FileTree}

/-- Commuting does not depend on which operation is named first. -/
lemma symm (h : a.Commute b tree) : b.Commute a tree :=
  ⟨h.right, h.left, h.tree_eq.symm⟩

/-- An operation without steps commutes with every other one. -/
lemma pure (value : α) : (Pure.pure value : FileOperation ε α).Commute b tree :=
  ⟨rfl, rfl, rfl⟩

/-- A step that only looks commutes with what does not change what it sees. -/
lemma look {action : FileTree → Except ε α} (h : action (b.runOn tree).2 = action tree) :
    (FileOperation.look action).Commute b tree := by
  constructor
  · rw [runOn_look, runOn_look, h]
  · rw [runOn_look]
  · rw [runOn_look, runOn_look]

/-- After another operation that commutes with it, an operation yields what it does otherwise and leaves
what the other one leaves after it. -/
lemma runOn_after (h : a.Commute b tree) :
    a.runOn (b.runOn tree).2 = ((a.runOn tree).1, (b.runOn (a.runOn tree).2).2) :=
  Prod.ext h.left h.tree_eq.symm

/-- An operation and what follows it commute with another one if both do, each on the tree on which it
runs. -/
lemma bind (h : a.Commute b tree)
    (hnext : ∀ value after, a.runOn tree = (.ok value, after) → (next value).Commute b after) :
    (a >>= next).Commute b tree := by
  have hright := h.right
  have hother := h.runOn_after
  rcases hrun : a.runOn tree with ⟨failure | value, after⟩ <;> rw [hrun] at hright hother
  · refine ⟨?_, ?_, ?_⟩
    · rw [runOn_bind, runOn_bind, hrun, hother]
    · rw [runOn_bind, hrun]
      exact hright
    · rw [runOn_bind, runOn_bind, hrun, hother]
  · -- what follows runs on the tree that the other operation leaves after the first one
    have hrest := hnext value after hrun
    refine ⟨?_, ?_, ?_⟩
    · rw [runOn_bind, runOn_bind, hrun, hother]
      exact hrest.left
    · rw [runOn_bind, hrun]
      exact hrest.right.trans hright
    · rw [runOn_bind, runOn_bind, hrun, hother]
      exact hrest.tree_eq

/-- A step that only looks and what follows it commute with another operation if that one does not
change what is seen and what follows commutes with it. -/
lemma look_bind {action : FileTree → Except ε α} (h : action (b.runOn tree).2 = action tree)
    (hnext : ∀ value, action tree = .ok value → (next value).Commute b tree) :
    (FileOperation.look action >>= next).Commute b tree := by
  refine (look h).bind fun value after hrun => ?_
  rw [runOn_look] at hrun
  obtain ⟨hvalue, rfl⟩ := Prod.mk.inj hrun
  exact hnext value hvalue

end Commute

end FileOperation

namespace FileTree

variable {tree : FileTree} {path place : Path} {base above : Location} {name other : String}

/-- What replacing a file can change: the file and its temporary file, even if it fails. -/
lemma Spot.rewritten_replace (h : tree.Spot path base name) (text : String) :
    Rewritten tree ((FileOperation.replace path text).runOn tree).2
      [base ++ [name], scratch base name] := by
  rw [h.runOn_replace]
  split_ifs with hscratch hfile
  · exact (Rewritten.refl tree).mono (by simp)
  · have hwritten := rewritten_put h.temporary.isName h.directory hscratch (.text text)
    exact hwritten.mono (by simp [scratch])
  · exact rewritten_replaced h hscratch hfile text

/-- Whether a file can be replaced depends on the directories only. -/
lemma Spot.replace_fst_eq {after : FileTree} {touched : List Location} (h : tree.Spot path base name)
    (hchanged : Rewritten tree after touched) (text : String) :
    ((FileOperation.replace path text).runOn after).1 =
      ((FileOperation.replace path text).runOn tree).1 := by
  rw [h.runOn_replace, (hchanged.spot h).runOn_replace]
  simp only [hchanged.directory]
  split_ifs <;> rfl

section Apart

variable {location : Location}

/-- Something is put beside a file that is there before the file is replaced or after that. -/
lemma put_replaced (hfile : above ++ [other] ≠ location) (hscratch : scratch above other ≠ location)
    (hthere : tree.at? (above ++ [other]) ≠ none) (entry : Entry) (text : String) :
    (tree.put location entry).replaced above other text =
      (tree.replaced above other text).put location entry := by
  have hkey : above ++ [other] ∈
      OrderedMap.keys (OrderedMap.erase tree.entries (scratch above other)) := by
    rw [at?_eq_get? (by simp)] at hthere
    rw [← OrderedMap.get?_isSome_iff, OrderedMap.get?_erase, if_neg (scratch_ne above other)]
    exact Option.isSome_iff_ne_none.2 hthere
  unfold replaced put remove
  dsimp only
  rw [OrderedMap.erase_insert_self, OrderedMap.erase_insert_self,
    OrderedMap.erase_insert_of_ne hscratch.symm, OrderedMap.insert_comm hfile.symm hkey]

/-- Something else is taken away before a file is replaced or after that. -/
lemma remove_replaced (hfile : above ++ [other] ≠ location) (text : String) :
    (tree.remove location).replaced above other text =
      (tree.replaced above other text).remove location := by
  unfold replaced put remove
  dsimp only
  rw [OrderedMap.erase_insert_self, OrderedMap.erase_insert_self,
    OrderedMap.erase_insert_of_ne hfile, OrderedMap.erase_comm]

end Apart

section Pair

variable (h : tree.Spot path base name) (hplace : tree.Spot place above other)
  (hapart : ∀ l ∈ [base ++ [name], scratch base name],
    above ++ [other] ≠ l ∧ scratch above other ≠ l)
  {content : Content} (hthere : tree.at? (above ++ [other]) = some (.file content))

include h hplace hapart hthere

/-- What replacing a file does can be done when another file has been replaced that was there. -/
lemma Spot.runOn_replace_replaced (hclear : tree.at? (scratch above other) ≠ some .directory)
    (text more : String) :
    ((FileOperation.replace path text).runOn (tree.replaced above other more)).2 =
      ((FileOperation.replace path text).runOn tree).2.replaced above other more := by
  obtain ⟨⟨hfile, hbeside⟩, hleft, hscratch⟩ : (above ++ [other] ≠ base ++ [name] ∧
      scratch above other ≠ base ++ [name]) ∧ above ++ [other] ≠ scratch base name ∧
      scratch above other ≠ scratch base name := by simpa using hapart
  have hwrote := rewritten_replaced hplace hclear (by simp [hthere]) more
  have hfirst : tree.at? (above ++ [other]) ≠ none := by simp [hthere]
  rw [(hwrote.spot h).runOn_replace, h.runOn_replace]
  simp only [hwrote.directory]
  split_ifs
  · rfl
  · exact (put_replaced hleft hscratch hfirst _ more).symm
  · -- the temporary file is put and taken away, and then the file is put
    have hput : (tree.put (scratch base name) (.file (.text text))).at? (above ++ [other]) ≠ none := by
      rwa [at?_put_of_ne tree hleft.symm]
    have hremoved : ((tree.put (scratch base name) (.file (.text text))).remove
        (scratch base name)).at? (above ++ [other]) ≠ none := by
      rwa [at?_remove (by simp [scratch]), if_neg hleft.symm]
    change FileTree.put (FileTree.remove (FileTree.put (tree.replaced above other more) _ _) _) _ _ =
      (FileTree.put (FileTree.remove (FileTree.put tree _ _) _) _ _).replaced above other more
    rw [put_replaced hfile hbeside hremoved, remove_replaced hleft,
      put_replaced hleft hscratch hfirst]

/-- **Two files are replaced in either order** if neither they nor their temporary files are in the
same places and the second file is there already.

**Proof sketch.** Replacing a file puts no directory anywhere and takes none away, so each of the two
succeeds or fails as it does by itself. The second file keeps its entry, so what is put or taken away
elsewhere does not move it. -/
lemma Spot.commute_replace (text more : String) :
    (FileOperation.replace path text).Commute (FileOperation.replace place more) tree := by
  have hfirst := h.rewritten_replace text
  have hsecond := hplace.rewritten_replace more
  refine ⟨h.replace_fst_eq hsecond text, hplace.replace_fst_eq hfirst more, ?_⟩
  -- a file is there, so no directory is in its place
  have hfile : tree.at? (above ++ [other]) ≠ some .directory := by simp [hthere]
  rw [(hfirst.spot hplace).runOn_replace, hplace.runOn_replace]
  simp only [hfirst.directory, if_neg hfile]
  split_ifs with hblocked
  · rfl
  · exact (h.runOn_replace_replaced hplace hapart hthere hblocked text more).symm

end Pair

end FileTree

end LayeredProfiles
