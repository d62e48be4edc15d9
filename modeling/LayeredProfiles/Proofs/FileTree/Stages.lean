import LayeredProfiles.Proofs.FileTree.Effects

set_option autoImplicit false

/-!
# Replacing a file step by step

A file is replaced in three steps: the directories above it are made, the text is written to a
temporary file, and that is moved to its place. Each of them may fail, and one may also be
interrupted after any of them. Whatever happens, there is never a part of the text at the place of
the file: it has what it had, or all of the text.

There is one exception. A path may lead through the place that it names, as `b/../b` does. If nothing
is there, the directories that are made include one at that place, which then cannot be replaced.

## Main definitions

* `FileOperation.stages` — the three steps, each with those before it.
* `FileTree.LeadsThrough` — a path leads through the place that it names.

## Main results

* `FileOperation.Ready.of_replaced`, `FileOperation.kept_of_replace_eq_error` — what is there after a
  success and after a failure.
* `FileOperation.at?_stage` — what is at the place of the file after each step.
* `FileOperation.replace_stages` — what replacing a file leaves behind, for any tree and any path.
* `FileOperation.stages_sampleLoop` — the exception.
-/

namespace LayeredProfiles

/-- A path leads through the place that it names: it is that of a directory above. -/
def FileTree.LeadsThrough (tree : FileTree) (path : Path) : Prop :=
  tree.placeOf path ∈ (FileTree.directoriesAbove path).map tree.placeOf

namespace FileOperation

variable {tree after : FileTree} {path : Path} {text : String}

/-- Replacing a file, up to the end of each of its three steps. -/
def stages (path : Path) (text : String) : List (FileOperation Failure Unit) :=
  [prepare path, draft path text, replace path text]

/-- If replacing a file fails, all is kept but for the temporary file. -/
lemma kept_of_replace_eq_error {failure : Failure}
    (h : (replace path text).runOn tree = (.error failure, after)) {location : Location}
    (hlocation : location ≠ tree.placeOf (temporary path)) : tree.Kept after location := by
  have hkept := (grown_prepare tree path).kept location
  rw [← runOn_draft_of_replace_eq_error h]
  unfold FileTree.Kept at hkept ⊢
  rwa [at?_draft hlocation]

/-- In a tree that is ready for it, a file is replaced so that it is read, the temporary file is gone,
and all else is kept. -/
lemma Ready.of_replaced {ready : FileTree} {base : Location} {name : String}
    (h : Ready tree ready path base name) (text : String) :
    (ready.replaced base name text).readText path = .ok text ∧
      (ready.replaced base name text).at? (tree.placeOf (temporary path)) = none ∧
      (tree.Grounded → (ready.replaced base name text).Grounded) ∧
      ∀ l, l ≠ tree.placeOf path → l ≠ tree.placeOf (temporary path) →
        tree.Kept (ready.replaced base name text) l := by
  have hrewritten := FileTree.rewritten_replaced h.spot h.scratch_free h.place_free text
  rw [h.place, h.scratch]
  refine ⟨?_, ?_, fun hgrounded => hrewritten.grounded (h.grown.grounded hgrounded), ?_⟩
  · refine FileTree.readText_eq_ok_iff.2 ⟨_, (hrewritten.spot h.spot).resolve, ?_⟩
    rw [FileTree.at?_replaced, if_pos rfl]
  · rw [FileTree.at?_replaced, if_neg (FileTree.scratch_ne base name).symm, if_pos rfl]
  · intro l hplace hscratch
    have hsame := hrewritten.elsewhere l (by simp [hplace, hscratch])
    exact (h.grown.kept l).trans (.inl hsame)

/-- After each of the three steps the place of the file has what it has when the directories have
been made, or the text. -/
lemma at?_stage {stage : FileOperation Failure Unit} (hstage : stage ∈ stages path text)
    (hne : tree.placeOf path ≠ tree.placeOf (temporary path)) :
    (stage.runOn tree).2.at? (tree.placeOf path) =
        ((prepare path).runOn tree).2.at? (tree.placeOf path) ∨
      (stage.runOn tree).2.at? (tree.placeOf path) = some (.file (.text text)) := by
  obtain rfl | rfl | rfl : stage = prepare path ∨ stage = draft path text ∨
      stage = replace path text := by simpa [stages] using hstage
  · exact .inl rfl
  · exact .inl (at?_draft hne)
  · rcases hrun : (replace path text).runOn tree with ⟨failure | ⟨⟩, after⟩
    · rw [← runOn_draft_of_replace_eq_error hrun]
      exact .inl (at?_draft hne)
    · exact .inr (at?_of_replace_eq_ok hrun)

/-- A directory that is made at the place of the file cannot be replaced. -/
lemma exists_error_of_directory
    (h : ((prepare path).runOn tree).2.at? (tree.placeOf path) = some .directory) (text : String) :
    ∃ failure after, (replace path text).runOn tree = (.error failure, after) := by
  rcases hrun : (replace path text).runOn tree with ⟨failure | ⟨⟩, after⟩
  · exact ⟨failure, after, rfl⟩
  · obtain ⟨ready, base, name, hready, -⟩ := exists_ready_of_replace_eq_ok hrun
    rw [hready.prepared, hready.place] at h
    exact absurd h hready.place_free

/-- **Replacing a file leaves no part of a text behind.** Take a tree that stands for real files, a
path that ends in a name, and a text. The temporary file is at another place than the file.

If replacing the file succeeds, then the text is what is read under the path, there is no temporary
file, and the directories above are there. If it fails, the place of the file is one of those where
all is kept. In both cases all else is kept: every other location has what it had, unless a directory
was made there where nothing was, so every other file holds what it held.

After each of the three steps, whether or not it fails, the place of the file has exactly what it
had, or a file with all of the text. There is one exception: if nothing was there and the path leads
through that place, there may be a directory that was made, and then replacing the file fails.

**Proof sketch.** Making directories puts nothing but directories where nothing was
(`FileTree.grown_makeAll`). The second step writes to the temporary file only (`at?_draft`), and the
third one changes nothing if it fails (`runOn_draft_of_replace_eq_error`). It succeeds only if the
path leads to a name in a directory, and there it replaces the file (`exists_ready_of_replace_eq_ok`,
`Ready.of_replaced`). -/
theorem replace_stages (path : Path) {name : String} (hname : path.fileName? = some name)
    (hgrounded : tree.Grounded) (text : String) :
    tree.placeOf path ≠ tree.placeOf (temporary path) ∧
    (∀ after, (replace path text).runOn tree = (.ok (), after) →
      after.readText path = .ok text ∧ after.at? (tree.placeOf (temporary path)) = none ∧
      (∀ above, above <+: tree.placeOf path → above ≠ tree.placeOf path →
        after.at? above = some .directory) ∧
      ∀ l, l ≠ tree.placeOf path → l ≠ tree.placeOf (temporary path) → tree.Kept after l) ∧
    (∀ failure after, (replace path text).runOn tree = (.error failure, after) →
      ∀ l, l ≠ tree.placeOf (temporary path) → tree.Kept after l) ∧
    ∀ stage ∈ stages path text, ∀ result after, stage.runOn tree = (result, after) →
      after.at? (tree.placeOf path) = tree.at? (tree.placeOf path) ∨
      after.at? (tree.placeOf path) = some (.file (.text text)) ∨
      (tree.at? (tree.placeOf path) = none ∧ tree.LeadsThrough path ∧
        after.at? (tree.placeOf path) = some .directory ∧
        ∃ failure last, (replace path text).runOn tree = (.error failure, last)) := by
  obtain ⟨base, hplace, htemporary⟩ := FileTree.exists_placeOf_of_fileName? tree hname
  have hne : tree.placeOf path ≠ tree.placeOf (temporary path) := by
    rw [hplace, htemporary]
    exact (FileTree.scratch_ne base name).symm
  refine ⟨hne, fun after h => ?_, fun failure after h l hl => kept_of_replace_eq_error h hl, ?_⟩
  · have htext := at?_of_replace_eq_ok h
    obtain ⟨ready, base, name, hready, rfl⟩ := exists_ready_of_replace_eq_ok h
    obtain ⟨hread, hgone, hafter, hkept⟩ := hready.of_replaced text
    refine ⟨hread, hgone, ?_, hkept⟩
    -- the file is there, and in a tree of real files it is inside all of these
    rintro above ⟨names, hnames⟩ hproper
    have hsome : names ≠ [] := fun hnil => hproper (by rw [← hnames, hnil, List.append_nil])
    rw [← hnames] at htext
    exact (hafter hgrounded).directory_above hsome htext
  · intro stage hstage result after hrun
    have hlast := at?_stage hstage hne
    rw [hrun] at hlast
    rcases hlast with hsame | htext
    · rcases (grown_prepare tree path).at? (tree.placeOf path) with
        hkept | ⟨hthrough, hnone, hdirectory⟩
      · exact .inl (hsame.trans hkept)
      · exact .inr (.inr ⟨hnone, hthrough, hsame.trans hdirectory,
          exists_error_of_directory hdirectory text⟩)
    · exact .inr (.inl htext)

/-- A tree with a file, an old temporary file beside it, and another file. -/
def sampleDesk : FileTree :=
  ⟨[(["w"], .directory), (["w", "a"], .file (.text "old")), (["w", "a.tmp"], .file (.text "left")),
    (["w", "c"], .file (.binary [255]))], ["w"]⟩

/-- A file is replaced under a path for which a directory is made, and one is not replaced whose
directory would be a file. -/
theorem replace_stages_sampleDesk :
    sampleDesk.Grounded ∧
      (∃ after, (replace ⟨"n/../a"⟩ "new").runOn sampleDesk = (.ok (), after) ∧
        after.readText ⟨"n/../a"⟩ = .ok "new" ∧ after.at? ["w", "a.tmp"] = none ∧
        sampleDesk.Kept after ["w", "n"] ∧ sampleDesk.Kept after ["w", "c"]) ∧
      ∃ failure after, (replace ⟨"c/d"⟩ "new").runOn sampleDesk = (.error failure, after) ∧
        sampleDesk.Kept after ["w", "c"] := by
  have hgrounded : sampleDesk.Grounded := by decide +kernel
  have hplace : sampleDesk.placeOf ⟨"n/../a"⟩ = ["w", "a"] := by decide
  have hscratch : sampleDesk.placeOf (temporary ⟨"n/../a"⟩) = ["w", "a.tmp"] := by decide +kernel
  have hother : sampleDesk.placeOf (temporary ⟨"c/d"⟩) = ["w", "c", "d.tmp"] := by decide +kernel
  obtain ⟨-, hreplaced, -⟩ := replace_stages ⟨"n/../a"⟩ rfl hgrounded "new"
  obtain ⟨-, -, hfailed, -⟩ := replace_stages ⟨"c/d"⟩ rfl hgrounded "new"
  rw [hplace, hscratch] at hreplaced
  rw [hother] at hfailed
  have hok : ((replace ⟨"n/../a"⟩ "new").runOn sampleDesk).1 = .ok () := by decide +kernel
  have herror : ((replace ⟨"c/d"⟩ "new").runOn sampleDesk).1 = .error (.file ⟨"c"⟩ .exists) := by
    decide +kernel
  rcases hsuccess : (replace ⟨"n/../a"⟩ "new").runOn sampleDesk with ⟨result, after⟩
  rcases hfailure : (replace ⟨"c/d"⟩ "new").runOn sampleDesk with ⟨outcome, left⟩
  rw [hsuccess] at hok
  rw [hfailure] at herror
  obtain rfl : result = .ok () := hok
  obtain rfl : outcome = .error (.file ⟨"c"⟩ .exists) := herror
  obtain ⟨hread, hgone, -, hkept⟩ := hreplaced after hsuccess
  exact ⟨hgrounded, ⟨after, rfl, hread, hgone, hkept _ (by decide) (by decide),
    hkept _ (by decide) (by decide)⟩, _, left, rfl, hfailed _ left hfailure _ (by decide)⟩

/-- The tree with nothing but the directory from which paths are resolved. -/
def sampleLoop : FileTree := .empty ["w"]

/-- A path that leads through its own place, where nothing is: after the first step there is a
directory, which is neither what was there nor a file with the text. -/
theorem stages_sampleLoop :
    sampleLoop.Grounded ∧ (⟨"b/../b"⟩ : Path).fileName? = some "b" ∧
      sampleLoop.placeOf ⟨"b/../b"⟩ = ["w", "b"] ∧ sampleLoop.at? ["w", "b"] = none ∧
      ((prepare ⟨"b/../b"⟩).runOn sampleLoop).2.at? ["w", "b"] = some .directory ∧
      ¬ ∀ stage ∈ stages ⟨"b/../b"⟩ "x", ∀ result after,
        stage.runOn sampleLoop = (result, after) →
          after.at? (sampleLoop.placeOf ⟨"b/../b"⟩) =
            sampleLoop.at? (sampleLoop.placeOf ⟨"b/../b"⟩) ∨
          after.at? (sampleLoop.placeOf ⟨"b/../b"⟩) = some (.file (.text "x")) := by
  have hplace : sampleLoop.placeOf ⟨"b/../b"⟩ = ["w", "b"] := by decide
  have hnone : sampleLoop.at? ["w", "b"] = none := by decide
  have hmade : ((prepare ⟨"b/../b"⟩).runOn sampleLoop).2.at? ["w", "b"] = some .directory := by
    decide +kernel
  refine ⟨by decide +kernel, by decide, hplace, hnone, hmade, fun hclean => ?_⟩
  rcases hrun : (prepare ⟨"b/../b"⟩).runOn sampleLoop with ⟨result, made⟩
  rw [hrun] at hmade
  have hfirst := hclean _ (by simp [stages]) result made hrun
  rw [hplace, hnone, hmade] at hfirst
  rcases hfirst with hsame | htext
  · cases hsame
  · cases htext

end FileOperation

end LayeredProfiles
