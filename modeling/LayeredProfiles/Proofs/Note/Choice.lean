import LayeredProfiles.Proofs.Note.Spelling

set_option autoImplicit false

/-!
# Which note a vehicle gets

The note of a vehicle is looked for at every colon of every line. It stands behind the leftmost
colon of the first line that has the vehicle in front and text behind it. Only where there is no
such colon the first line is the note for every vehicle.

## Main definitions

* `Note.Names` — whether a text names a vehicle.
* `Note.Marks` — a colon of a line between the name of a vehicle and its note.
* `Note.IsGeneral` — what a line says to every vehicle.

## Main results

* `Note.namesSame_iff` — names are compared by any forms they have in common.
* `Note.specificIn?_eq_none_iff`, `Note.leftmost_of_specificIn?` — what a line says to one vehicle.
* `Note.choose?_of_names` — the note that lines hold for a vehicle, however its name is spelled.
-/

namespace LayeredProfiles.Note

open Text (isBlank trim)

/-- A form under which a name is known: of the whole or of what stands behind the first colon. -/
def IsForm (name form : List Char) : Prop :=
  form = nameForm name ∨
    ∃ front model, name = front ++ ':' :: model ∧ ':' ∉ front ∧ form = nameForm model

/-- Whether a text names a vehicle: they have a form in common that is not empty. -/
def Names (text carModel : List Char) : Prop :=
  ∃ form, form ≠ [] ∧ IsForm text form ∧ IsForm carModel form

/-- A colon of a line has the name of a vehicle in front and text behind it. -/
structure Marks (carModel line : String) (before after : List Char) : Prop where
  /-- The colon stands between the two. -/
  split : line.toList = before ++ ':' :: after
  /-- What is in front names the vehicle. -/
  names : Names before carModel.toList
  /-- What is behind is not blank. -/
  text : ∃ c ∈ after, isBlank c = false

/-- What a line says to every vehicle: what is behind its first colon, or all of it. -/
def IsGeneral (line : String) (text : List Char) : Prop :=
  (':' ∉ line.toList ∧ text = line.toList) ∨
    ∃ front, ':' ∉ front ∧ line.toList = front ++ ':' :: text

variable {carModel line : String}

/-! ## Comparing names -/

/-- The forms of a name are those that are not empty. -/
lemma mem_nameForms_iff {name form : List Char} :
    form ∈ nameForms name ↔ form ≠ [] ∧ IsForm name form := by
  have hmodel : (∃ model ∈ ((Text.splitFirst? ':' name).map Prod.snd).toList,
      nameForm model = form) ↔
      ∃ front model, name = front ++ ':' :: model ∧ ':' ∉ front ∧ form = nameForm model := by
    simp only [Option.mem_toList, Option.map_eq_some_iff, Prod.exists,
      Text.splitFirst?_eq_some_iff]
    constructor
    · rintro ⟨_, ⟨front, model, ⟨hname, hfront⟩, rfl⟩, rfl⟩
      exact ⟨front, model, hname, hfront, rfl⟩
    · rintro ⟨front, model, hname, hfront, rfl⟩
      exact ⟨model, ⟨front, model, ⟨hname, hfront⟩, rfl⟩, rfl⟩
  rw [nameForms, List.mem_filter, List.map_cons, List.mem_cons, List.mem_map, hmodel]
  simp [IsForm, and_comm]

/-- Names are compared by any forms they have in common. -/
lemma namesSame_iff {text name : List Char} : namesSame text name = true ↔ Names text name := by
  simp only [namesSame, List.any_eq_true, List.contains_iff_mem, mem_nameForms_iff, Names]
  constructor
  · rintro ⟨form, ⟨hne, htext⟩, -, hname⟩
    exact ⟨form, hne, htext, hname⟩
  · rintro ⟨form, hne, htext, hname⟩
    exact ⟨form, ⟨hne, htext⟩, hne, hname⟩

/-! ## One line -/

/-- A text is not blank exactly if something is left when it is trimmed. -/
lemma trim_ne_nil_iff {text : List Char} : trim text ≠ [] ↔ ∃ c ∈ text, isBlank c = false := by
  simp [Text.trim_eq_nil_iff]

/-- What is looked for at the splits of a line is found at the colons that mark the vehicle. -/
lemma marks_iff {before after : List Char} :
    Marks carModel line before after ↔
      (before, after) ∈ Text.splitsAt ':' line.toList ∧
        (!(trim after).isEmpty && namesSame before carModel.toList) = true := by
  rw [Text.mem_splitsAt_iff, Bool.and_eq_true, namesSame_iff, Bool.not_eq_true', List.isEmpty_eq_false_iff,
    trim_ne_nil_iff]
  exact ⟨fun h => ⟨h.split.symm, h.text, h.names⟩, fun h => ⟨h.1.symm, h.2.2, h.2.1⟩⟩

/-- A line says nothing to one vehicle in particular exactly if no colon marks the vehicle. -/
lemma specificIn?_eq_none_iff :
    specificIn? carModel.toList line.toList = none ↔
      ∀ before after, ¬ Marks carModel line before after := by
  simp only [specificIn?, List.findSome?_eq_none_iff, Prod.forall, marks_iff, not_and, ite_eq_right_iff,
    reduceCtorEq, imp_false]

/-- What a line says to one vehicle stands behind the leftmost colon that marks the vehicle. -/
lemma leftmost_of_specificIn? {note : List Char}
    (h : specificIn? carModel.toList line.toList = some note) :
    ∃ before after, Marks carModel line before after ∧
      (∀ left right, Marks carModel line left right → before.length ≤ left.length) ∧
      note = trim after := by
  obtain ⟨earlier, ⟨before, after⟩, later, hsplits, hnote, hearlier⟩ :=
    List.findSome?_eq_some_iff.1 h
  dsimp only at hnote
  split at hnote
  · next hhere =>
    cases hnote
    have hmem : (before, after) ∈ Text.splitsAt ':' line.toList := by simp [hsplits]
    refine ⟨before, after, marks_iff.2 ⟨hmem, hhere⟩, fun left right hmarks => ?_, rfl⟩
    obtain ⟨hother, hthere⟩ := marks_iff.1 hmarks
    have hsorted := Text.pairwise_splitsAt ':' line.toList
    rw [hsplits] at hother hsorted
    rcases List.mem_append.1 hother with hleft | hright
    · -- at the splits further left nothing was found
      have hnone := hearlier _ hleft
      dsimp only at hnone
      rw [if_pos hthere] at hnone
      cases hnone
    · rcases List.mem_cons.1 hright with hsame | hlater
      · cases hsame
        exact Nat.le_refl _
      · have hcons := (List.pairwise_append.1 hsorted).2.1
        exact Nat.le_of_lt ((List.pairwise_cons.1 hcons).1 _ hlater)
  · cases hnote

/-! ## All lines -/

/-- No line says anything to one vehicle in particular exactly if no colon marks the vehicle. -/
lemma specific?_eq_none_iff {lines : List String} :
    specific? (lines.map String.toList) carModel.toList = none ↔
      ∀ line ∈ lines, ∀ before after, ¬ Marks carModel line before after := by
  simp only [specific?, List.findSome?_eq_none_iff, List.forall_mem_map, specificIn?_eq_none_iff]

/-- What is said to one vehicle stands in the first line with a colon that marks the vehicle. -/
lemma first_of_specific? {lines : List String} {note : List Char}
    (h : specific? (lines.map String.toList) carModel.toList = some note) :
    ∃ above line below, lines = above ++ line :: below ∧
      (∀ other ∈ above, ∀ before after, ¬ Marks carModel other before after) ∧
      specificIn? carModel.toList line.toList = some note := by
  rw [specific?, List.findSome?_map] at h
  obtain ⟨above, line, below, rfl, hline, habove⟩ := List.findSome?_eq_some_iff.1 h
  exact ⟨above, line, below, rfl, fun other hother => specificIn?_eq_none_iff.1 (habove other hother),
    hline⟩

/-- What the first line says to every vehicle. -/
lemma exists_isGeneral (line : String) (rest : List (List Char)) :
    ∃ text, IsGeneral line text ∧
      generic? (line.toList :: rest) = if (trim text).isEmpty then none else some (trim text) := by
  simp only [generic?]
  cases hsplit : Text.splitFirst? ':' line.toList with
  | none => exact ⟨_, .inl ⟨Text.splitFirst?_eq_none_iff.1 hsplit, rfl⟩, rfl⟩
  | some parts =>
    obtain ⟨hline, hfront⟩ := Text.splitFirst?_eq_some_iff.1 hsplit
    exact ⟨parts.2, .inr ⟨parts.1, hfront, hline⟩, rfl⟩

/-- Only the forms of its name decide the note of a vehicle. -/
lemma choose?_congr {other : String} (h : nameForms carModel.toList = nameForms other.toList)
    (lines : List String) : choose? lines carModel = choose? lines other := by
  unfold choose? specific? specificIn? namesSame
  rw [h]

/-- **Every vehicle gets the note that is meant for it.** If a line has a colon with the name of the
vehicle in front and text behind it, the note is the text behind the leftmost such colon of the
first such line. Otherwise it is what the first line says to every vehicle, and there is no note
only if that is blank or there is no line. However the ASCII name of the vehicle is spelled, it gets
the same note.

**Proof sketch.** The splits of a line at its colons go from left to right
(`Text.pairwise_splitsAt`) and are tried in that order, line by line, until one marks the vehicle
(`leftmost_of_specificIn?`, `first_of_specific?`). The name is compared by its forms only, which are
the same for names that are spelled alike (`SpelledAlike.nameForms_eq`). -/
theorem choose?_of_names (lines : List String) (carModel : String) :
    ((∃ line ∈ lines, ∃ before after, Marks carModel line before after) →
      ∃ above line below before after,
        lines = above ++ line :: below ∧ Marks carModel line before after ∧
        (∀ other ∈ above, ∀ left right, ¬ Marks carModel other left right) ∧
        (∀ left right, Marks carModel line left right → before.length ≤ left.length) ∧
        choose? lines carModel = some (parenthesized (String.ofList (trim after)))) ∧
    ((∀ line ∈ lines, ∀ before after, ¬ Marks carModel line before after) →
      (lines = [] ∧ choose? lines carModel = none) ∨
      ∃ line rest text, lines = line :: rest ∧ IsGeneral line text ∧
        (((∀ c ∈ text, isBlank c = true) ∧ choose? lines carModel = none) ∨
          ((∃ c ∈ text, isBlank c = false) ∧
            choose? lines carModel = some (parenthesized (String.ofList (trim text)))))) ∧
    ∀ other : String, IsAscii carModel.toList → SpelledAlike carModel.toList other.toList →
      choose? lines other = choose? lines carModel := by
  refine ⟨fun hmarked => ?_, fun hnone => ?_, fun other hascii halike => ?_⟩
  · cases hspecific : specific? (lines.map String.toList) carModel.toList with
    | none =>
      obtain ⟨line, hline, before, after, hmarks⟩ := hmarked
      exact absurd hmarks (specific?_eq_none_iff.1 hspecific line hline before after)
    | some note =>
      obtain ⟨above, line, below, hlines, habove, hline⟩ := first_of_specific? hspecific
      obtain ⟨before, after, hmarks, hleftmost, rfl⟩ := leftmost_of_specificIn? hline
      refine ⟨above, line, below, before, after, hlines, hmarks, habove, hleftmost, ?_⟩
      rw [choose?, hspecific]
      rfl
  · have hchoose : choose? lines carModel =
        (generic? (lines.map String.toList)).map fun note => parenthesized (String.ofList note) := by
      rw [choose?, specific?_eq_none_iff.2 hnone]
      rfl
    rw [hchoose]
    cases lines with
    | nil => exact .inl ⟨rfl, rfl⟩
    | cons line rest =>
      obtain ⟨text, hgeneral, htext⟩ := exists_isGeneral line (rest.map String.toList)
      refine .inr ⟨line, rest, text, rfl, hgeneral, ?_⟩
      rw [List.map_cons, htext]
      by_cases hblank : trim text = []
      · exact .inl ⟨Text.trim_eq_nil_iff.1 hblank, by rw [hblank]; rfl⟩
      · refine .inr ⟨trim_ne_nil_iff.1 hblank, ?_⟩
        rw [if_neg (by simpa using hblank)]
        rfl
  · exact (choose?_congr (halike.nameForms_eq hascii) lines).symm

/-- Two lines of notes. -/
def sampleNotes : List String :=
  ["Kona: Requires firmware 4.2", "EV: Ioniq 5 : Only 2022+"]

/-- The second line is for one vehicle, in another spelling as well, and the first for the others. -/
theorem choose?_of_names_sampleNotes :
    (∃ before after, Marks "EV: Ioniq 5" "EV: Ioniq 5 : Only 2022+" before after) ∧
      (∃ above line below before after,
        sampleNotes = above ++ line :: below ∧ Marks "EV: Ioniq 5" line before after ∧
        choose? sampleNotes "EV: Ioniq 5" = some (parenthesized (String.ofList (trim after)))) ∧
      choose? sampleNotes "EV:  IoniQ 5" = choose? sampleNotes "EV: Ioniq 5" ∧
      ∃ line rest text, sampleNotes = line :: rest ∧ IsGeneral line text ∧
        choose? sampleNotes "EV: Niro" = some (parenthesized (String.ofList (trim text))) := by
  have hmarks : Marks "EV: Ioniq 5" "EV: Ioniq 5 : Only 2022+" "EV: Ioniq 5 ".toList
      " Only 2022+".toList :=
    ⟨by decide +kernel, namesSame_iff.1 (by decide +kernel), 'O', by decide +kernel, by decide⟩
  have halike : SpelledAlike "EV: Ioniq 5".toList "EV:  IoniQ 5".toList :=
    .trans _ _ _
      (.rel _ _ (.afterColon "EV".toList " Ioniq 5".toList (by decide : IsSpace ' ')))
      (.rel _ _ (.letter "EV:  Ioni".toList " 5".toList (by decide : 'q'.toLower = 'Q'.toLower)))
  have hother : specific? (sampleNotes.map String.toList) "EV: Niro".toList = none := by
    decide +kernel
  obtain ⟨above, line, below, before, after, hlines, hline, -, -, hnote⟩ :=
    (choose?_of_names sampleNotes "EV: Ioniq 5").1 ⟨_, by decide +kernel, _, _, hmarks⟩
  refine ⟨⟨_, _, hmarks⟩, ⟨above, line, below, before, after, hlines, hline, hnote⟩,
    (choose?_of_names sampleNotes "EV: Ioniq 5").2.2 _ (by decide +kernel) halike, ?_⟩
  obtain ⟨hnil, -⟩ | ⟨line, rest, text, hlines, hgeneral, ⟨-, hnone⟩ | ⟨-, hnote⟩⟩ :=
    (choose?_of_names sampleNotes "EV: Niro").2.1 (specific?_eq_none_iff.1 hother)
  · cases hnil
  · exact absurd hnone (by decide +kernel)
  · exact ⟨line, rest, text, hlines, hgeneral, hnote⟩

end LayeredProfiles.Note
