import LayeredProfiles.Note.Line
import LayeredProfiles.Note.Selection
import LayeredProfiles.Proofs.Text.Words

set_option autoImplicit false

/-!
# What is left of a note file

Blank lines and headings of a note file carry no note. Every other line does, and an item of a list
without any text is no exception: it is trimmed before its bullet is looked for, so that the space
behind the bullet is gone and the bullet itself is the text.

## Main definitions

* `Note.IsBlankLine`, `Note.IsHeading` — lines that carry no note.
* `Note.IsBareBullet` — an item of a list without any text.

## Main results

* `Note.lineText?_eq_none_iff` — only blank lines and headings are dropped.
* `Note.lineText?_of_isBareBullet` — a bullet without text is the text of its line.
* `Note.lines_carry_text` — what the lines of a file carry, and which note follows from bullets.
* `Note.note_of_bareBullet` — a file without any text that has a note.
-/

namespace LayeredProfiles.Note

open Text (isBlank trim trimEnd trimStart)

/-- A line of blanks. -/
def IsBlankLine (line : List Char) : Prop :=
  ∀ c ∈ line, isBlank c = true

/-- A heading: behind blanks it starts with a hash sign. -/
def IsHeading (line : List Char) : Prop :=
  ∃ blanks title, line = blanks ++ '#' :: title ∧ IsBlankLine blanks

/-- An item of a list without any text: nothing but the bullet, with any blanks around it. -/
def IsBareBullet (bullet : Char) (line : List Char) : Prop :=
  (bullet = '-' ∨ bullet = '*') ∧
    ∃ left right, line = left ++ bullet :: right ∧ IsBlankLine left ∧ IsBlankLine right

variable {line : List Char} {bullet : Char}

/-! ## Trimming a line -/

/-- An empty line is blank. -/
lemma isBlankLine_nil : IsBlankLine [] :=
  fun _ hc => nomatch hc

/-- A line is blank, or it starts with a character behind blanks. -/
lemma blank_or_starts (line : List Char) :
    IsBlankLine line ∨
      ∃ blanks c rest, line = blanks ++ c :: rest ∧ IsBlankLine blanks ∧ isBlank c = false := by
  induction line with
  | nil => exact .inl isBlankLine_nil
  | cons d line ih =>
    cases hd : isBlank d with
    | false => exact .inr ⟨[], d, line, rfl, isBlankLine_nil, hd⟩
    | true =>
      rcases ih with hblank | ⟨blanks, c, rest, rfl, hblanks, hc⟩
      · exact .inl (List.forall_mem_cons.2 ⟨hd, hblank⟩)
      · exact .inr ⟨d :: blanks, c, rest, rfl, List.forall_mem_cons.2 ⟨hd, hblanks⟩, hc⟩

/-- Trimming a line removes the blanks in front and those at the end. -/
lemma trim_append_cons {blanks : List Char} {c : Char} (hblanks : IsBlankLine blanks)
    (hc : isBlank c = false) (rest : List Char) : trim (blanks ++ c :: rest) = c :: trimEnd rest := by
  have hstart : trimStart (blanks ++ c :: rest) = c :: rest := by
    rw [trimStart, List.dropWhile_append_of_pos hblanks, List.dropWhile_cons_of_neg (by simp [hc])]
  rw [trim, hstart, trimEnd, hc, Bool.and_false, if_neg Bool.false_ne_true]

/-- Nothing is left at the end of a text of blanks. -/
lemma trimEnd_of_isBlankLine {blanks : List Char} (h : IsBlankLine blanks) : trimEnd blanks = [] := by
  induction blanks with
  | nil => rfl
  | cons c rest ih =>
    obtain ⟨hc, hrest⟩ := List.forall_mem_cons.1 h
    simp [trimEnd, ih hrest, hc]

/-- A bullet is neither blank nor a hash sign. -/
lemma IsBareBullet.isBlank_eq (h : IsBareBullet bullet line) : isBlank bullet = false := by
  rcases h.1 with rfl | rfl <;> decide

/-- Nothing but the bullet is left of a bullet without text. -/
lemma IsBareBullet.trim_eq (h : IsBareBullet bullet line) : trim line = [bullet] := by
  have hbullet := h.isBlank_eq
  obtain ⟨-, left, right, rfl, hleft, hright⟩ := h
  rw [trim_append_cons hleft hbullet, trimEnd_of_isBlankLine hright]

/-! ## The text of a line -/

/-- The text that a line carries is trimmed. -/
lemma trim_of_lineText? {text : List Char} (h : lineText? line = some text) : trim text = text := by
  unfold lineText? at h
  simp only at h
  split at h
  · split at h
    · cases h
    · cases h
      exact Text.trim_idem _
  · cases h

/-- Behind the bullet of a trimmed line there is text: a bullet with nothing behind it has no space
behind it either. -/
lemma trim_withoutBullet_ne_nil (h : trim line ≠ []) : trim (withoutBullet (trim line)) ≠ [] := by
  have hlast : ∀ c ∈ (trim line).getLast?, isBlank c = false := Text.getLast?_trimEnd _
  have hrest : ∀ rest c, trim line = c :: ' ' :: rest → trim rest ≠ [] := by
    intro rest c htrim hnil
    rw [htrim] at hlast
    cases rest with
    | nil => exact absurd (hlast ' ' rfl) (by decide)
    | cons d more =>
      have hmem : (d :: more).getLast (List.cons_ne_nil d more) ∈ d :: more := List.getLast_mem _
      have hblank := Text.trim_eq_nil_iff.1 hnil _ hmem
      rw [List.getLast?_cons_cons, List.getLast?_cons_cons] at hlast
      rw [hlast _ (List.getLast?_eq_some_getLast (List.cons_ne_nil d more))] at hblank
      cases hblank
  unfold withoutBullet
  split
  · next rest htrim => exact hrest rest _ htrim
  · next rest htrim => exact hrest rest _ htrim
  · rwa [Text.trim_idem]

/-- Only blank lines and headings carry no text. -/
lemma lineText?_eq_none_iff : lineText? line = none ↔ IsBlankLine line ∨ IsHeading line := by
  have hqualifies : lineText? line = none ↔ qualifies (trim line) = false := by
    unfold lineText?
    simp only
    cases hq : qualifies (trim line) with
    | false => simp
    | true =>
      have hne : trim line ≠ [] := by
        intro hnil
        rw [hnil] at hq
        cases hq
      simp [trim_withoutBullet_ne_nil hne]
  rw [hqualifies]
  rcases blank_or_starts line with hblank | ⟨blanks, c, rest, rfl, hblanks, hc⟩
  · rw [Text.trim_eq_nil_iff.2 hblank]
    exact ⟨fun _ => .inl hblank, fun _ => rfl⟩
  · rw [trim_append_cons hblanks hc, qualifies, bne_eq_false_iff_eq]
    constructor
    · rintro rfl
      exact .inr ⟨blanks, rest, rfl, hblanks⟩
    · rintro (hblank | ⟨others, title, heq, hothers⟩)
      · have hthere := hblank c (by simp)
        rw [hc] at hthere
        cases hthere
      · -- both ways of reading the line give the same trimmed line
        have htrim := trim_append_cons hblanks hc rest
        rw [heq, trim_append_cons hothers (by decide)] at htrim
        exact (List.cons.inj htrim).1.symm

/-- A bullet without text is the text of its line. -/
lemma lineText?_of_isBareBullet (h : IsBareBullet bullet line) : lineText? line = some [bullet] := by
  rw [lineText?, h.trim_eq]
  rcases h.1 with rfl | rfl <;> decide

/-! ## The note of a file -/

/-- The texts of the lines of a file, character by character. -/
lemma map_toList_lines (file : String) :
    (lines file).map String.toList = (Text.splitAt '\n' file.toList).filterMap lineText? := by
  rw [lines, List.map_map]
  simp [Function.comp_def]

/-- Blank lines and headings carry no text. -/
lemma filterMap_lineText?_eq_nil {rows : List (List Char)}
    (h : ∀ line ∈ rows, IsBlankLine line ∨ IsHeading line) : rows.filterMap lineText? = [] :=
  List.filterMap_eq_nil_iff.2 fun line hline => lineText?_eq_none_iff.2 (h line hline)

/-- A bullet in parentheses. -/
lemma parenthesized_bullet (hbullet : bullet = '-' ∨ bullet = '*') :
    parenthesized (String.ofList [bullet]) = String.ofList ['(', bullet, ')'] := by
  rcases hbullet with rfl | rfl <;> decide

/-- The lines of a file without any text carry its bullets. -/
lemma mem_lines_of_bare {rows : List (List Char)}
    (h : ∀ line ∈ rows, IsBlankLine line ∨ IsHeading line ∨ ∃ bullet, IsBareBullet bullet line) :
    ∀ text ∈ rows.filterMap lineText?, text = ['-'] ∨ text = ['*'] := by
  intro text htext
  obtain ⟨line, hline, hcarried⟩ := List.mem_filterMap.1 htext
  have hsome : lineText? line ≠ none := fun hnone => by
    rw [hnone] at hcarried
    cases hcarried
  rcases h line hline with hblank | hheading | ⟨bullet, hbullet⟩
  · exact absurd (lineText?_eq_none_iff.2 (.inl hblank)) hsome
  · exact absurd (lineText?_eq_none_iff.2 (.inr hheading)) hsome
  · rw [lineText?_of_isBareBullet hbullet] at hcarried
    cases hcarried
    exact hbullet.1.imp (congrArg fun c => [c]) (congrArg fun c => [c])

/-- Bullets say nothing to one vehicle in particular. -/
lemma specific?_of_bullets {texts : List (List Char)} (h : ∀ text ∈ texts, text = ['-'] ∨ text = ['*'])
    (carModel : List Char) : specific? texts carModel = none := by
  refine List.findSome?_eq_none_iff.2 fun text htext => ?_
  rcases h text htext with rfl | rfl <;> rfl

/-- **What is left of a note file.** Every text is trimmed and not empty, and every line that is
neither blank nor a heading carries one, a bullet without text included. A file of blank lines and
headings has no note, but in a file of blank lines, headings and bullets without text the first
bullet is the note for every vehicle.

**Proof sketch.** A trimmed line does not end with a blank, so there is text behind a bullet and its
space (`trim_withoutBullet_ne_nil`): what is left behind the bullet is never empty. Of a bullet
without text the trimmed line is the bullet alone (`IsBareBullet.trim_eq`), which has no space to be
told by, and stays. -/
theorem lines_carry_text (file : String) :
    (∀ text ∈ lines file, text ≠ "" ∧ Text.trimmed text = text) ∧
    (∀ line ∈ Text.splitAt '\n' file.toList,
      (lineText? line = none ↔ IsBlankLine line ∨ IsHeading line) ∧
      ∀ bullet, IsBareBullet bullet line → lineText? line = some [bullet]) ∧
    ((∀ line ∈ Text.splitAt '\n' file.toList, IsBlankLine line ∨ IsHeading line) →
      ∀ carModel, choose? (lines file) carModel = none) ∧
    ∀ above line below bullet, Text.splitAt '\n' file.toList = above ++ line :: below →
      (∀ other ∈ above, IsBlankLine other ∨ IsHeading other) → IsBareBullet bullet line →
      (∀ other ∈ below, IsBlankLine other ∨ IsHeading other ∨ ∃ mark, IsBareBullet mark other) →
      ∀ carModel, choose? (lines file) carModel = some (String.ofList ['(', bullet, ')']) := by
  refine ⟨fun text htext => ?_, fun line _ => ⟨lineText?_eq_none_iff, fun bullet h =>
    lineText?_of_isBareBullet h⟩, fun hrows carModel => ?_,
    fun above line below bullet hrows habove hbullet hbelow carModel => ?_⟩
  · obtain ⟨carried, hcarried, rfl⟩ := List.mem_map.1 htext
    obtain ⟨line, -, hline⟩ := List.mem_filterMap.1 hcarried
    refine ⟨fun hempty => lineText?_ne_nil hline ?_, ?_⟩
    · rw [← String.toList_ofList (l := carried), hempty]
      rfl
    · rw [Text.trimmed, String.toList_ofList, trim_of_lineText? hline]
  · rw [lines, filterMap_lineText?_eq_nil hrows]
    rfl
  · have htexts : (lines file).map String.toList = [bullet] :: below.filterMap lineText? := by
      rw [map_toList_lines, hrows, List.filterMap_append, filterMap_lineText?_eq_nil habove,
        List.nil_append, List.filterMap_cons_some (lineText?_of_isBareBullet hbullet)]
    have hbare : ∀ text ∈ [bullet] :: below.filterMap lineText?, text = ['-'] ∨ text = ['*'] :=
      List.forall_mem_cons.2 ⟨hbullet.1.imp (congrArg fun c => [c]) (congrArg fun c => [c]),
        mem_lines_of_bare hbelow⟩
    have hgeneral : ∀ texts, generic? ([bullet] :: texts) = some [bullet] := by
      rcases hbullet.1 with rfl | rfl <;> exact fun _ => rfl
    rw [choose?, htexts, specific?_of_bullets hbare, hgeneral, Option.none_or, Option.map_some,
      parenthesized_bullet hbullet.1]

/-- A heading. -/
def sampleTitle : String := "# Notes"

/-- A note file that only has a heading. -/
def sampleUntold : String := "# Notes\n\n"

/-- A note file in which a list was begun. -/
def sampleBegun : String := "# Notes\n\n- \n"

lemma isHeading_sampleTitle : IsHeading sampleTitle.toList :=
  ⟨[], " Notes".toList, by decide, isBlankLine_nil⟩

lemma isBareBullet_dash : IsBareBullet '-' "- ".toList :=
  ⟨.inl rfl, [], [' '], by decide, isBlankLine_nil, List.forall_mem_singleton.2 (by decide)⟩

/-- The heading alone is no note, but the bullet of the list that was begun is. -/
theorem lines_carry_text_sampleBegun :
    choose? (lines sampleUntold) "EV: Kona" = none ∧
      choose? (lines sampleBegun) "EV: Kona" = some "(-)" := by
  have habove : ∀ line ∈ [sampleTitle.toList, []], IsBlankLine line ∨ IsHeading line :=
    List.forall_mem_cons.2 ⟨.inr isHeading_sampleTitle,
      List.forall_mem_singleton.2 (.inl isBlankLine_nil)⟩
  have huntold : Text.splitAt '\n' sampleUntold.toList = [sampleTitle.toList, []] ++ [[]] := by
    decide +kernel
  have hbegun : Text.splitAt '\n' sampleBegun.toList =
      [sampleTitle.toList, []] ++ "- ".toList :: [[]] := by decide +kernel
  refine ⟨(lines_carry_text sampleUntold).2.2.1 ?_ _, (lines_carry_text sampleBegun).2.2.2 _ _ _ _
    hbegun habove isBareBullet_dash ?_ _⟩
  · rw [huntold]
    exact List.forall_mem_append.2 ⟨habove, List.forall_mem_singleton.2 (.inl isBlankLine_nil)⟩
  · exact List.forall_mem_singleton.2 (.inl isBlankLine_nil)

/-- **A file without any text can have a note**: of a bullet with nothing behind it the bullet is
left, and it becomes the note for every vehicle. -/
theorem note_of_bareBullet :
    (∀ line ∈ Text.splitAt '\n' sampleBegun.toList,
      IsBlankLine line ∨ IsHeading line ∨ ∃ bullet, IsBareBullet bullet line) ∧
    lines sampleBegun = ["-"] ∧ choose? (lines sampleBegun) "EV: Kona" = some "(-)" := by
  have hrows : Text.splitAt '\n' sampleBegun.toList =
      [sampleTitle.toList, [], "- ".toList, []] := by decide +kernel
  refine ⟨?_, by decide +kernel, by decide +kernel⟩
  rw [hrows]
  simp only [List.forall_mem_cons, List.not_mem_nil, false_imp_iff, implies_true, and_true]
  exact ⟨.inr (.inl isHeading_sampleTitle), .inl isBlankLine_nil,
    .inr (.inr ⟨'-', isBareBullet_dash⟩), .inl isBlankLine_nil⟩

end LayeredProfiles.Note
