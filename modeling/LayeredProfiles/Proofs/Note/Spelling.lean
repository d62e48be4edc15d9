import Mathlib.Data.Option.Basic
import Mathlib.Logic.Relation
import LayeredProfiles.Note.Selection
import LayeredProfiles.Proofs.Text.Words

set_option autoImplicit false

/-!
# Spellings of a name

The names of vehicles are written by hand, once in a fragment and once in a note file. Two spellings
of an ASCII name that differ in the case of letters and in blanks only have the same forms, so that
no note is lost over them.

## Main definitions

* `Note.IsAscii` — a name of ASCII characters.
* `Note.Respelled` — a name with the case of a letter or one blank changed.
* `Note.SpelledAlike` — two names that such changes lead from one to the other.

## Main results

* `Note.nameForm_eq_of_isAscii` — the form of an ASCII name, character by character.
* `Note.Respelled.model` — what a change of the name does behind the first colon.
* `Note.SpelledAlike.nameForms_eq` — names that are spelled alike have the same forms.
-/

namespace LayeredProfiles.Note

open Text (isBlank words)

/-- A name of ASCII characters. -/
def IsAscii (name : List Char) : Prop :=
  ∀ c ∈ name, c.toNat < 128

instance (name : List Char) : Decidable (IsAscii name) :=
  List.decidableBAll (fun c : Char => c.toNat < 128) name

/-- A blank of ASCII. -/
def IsSpace (w : Char) : Prop :=
  isBlank w = true ∧ w.toNat < 128

instance (w : Char) : Decidable (IsSpace w) :=
  inferInstanceAs (Decidable (isBlank w = true ∧ w.toNat < 128))

/-- A name with one small change that a reader would not notice. -/
inductive Respelled : List Char → List Char → Prop
  /-- A letter in the other case. -/
  | letter (front back : List Char) {c d : Char} (h : c.toLower = d.toLower) :
      Respelled (front ++ c :: back) (front ++ d :: back)
  /-- A blank more in a run of blanks. -/
  | run (front back : List Char) {u v w : Char} (hu : IsSpace u) (hv : IsSpace v) (hw : IsSpace w) :
      Respelled (front ++ u :: back) (front ++ v :: w :: back)
  /-- A blank more at the start. -/
  | start (name : List Char) {w : Char} (hw : IsSpace w) : Respelled name (w :: name)
  /-- A blank more at the end. -/
  | finish (name : List Char) {w : Char} (hw : IsSpace w) : Respelled name (name ++ [w])
  /-- A blank more in front of a colon. -/
  | beforeColon (front back : List Char) {w : Char} (hw : IsSpace w) :
      Respelled (front ++ ':' :: back) (front ++ w :: ':' :: back)
  /-- A blank more behind a colon. -/
  | afterColon (front back : List Char) {w : Char} (hw : IsSpace w) :
      Respelled (front ++ ':' :: back) (front ++ ':' :: w :: back)

/-- Two names that differ in the case of letters, in the length of runs of blanks, and in blanks at
the ends and around colons: such changes, made or undone, lead from one to the other. -/
def SpelledAlike : List Char → List Char → Prop :=
  Relation.EqvGen Respelled

/-! ## Characters -/

/-- A property of all ASCII characters can be checked one by one. -/
lemma forall_ascii {P : Char → Prop} (h : ∀ n < 128, P (Char.ofNat n)) {c : Char}
    (hc : c.toNat < 128) : P c :=
  Char.ofNat_toNat c ▸ h c.toNat hc

/-- The lowercase of an ASCII character needs no table. -/
lemma lowercaseLetter_of_lt {c : Char} (hc : c.toNat < 128) : Text.lowercaseLetter c = c.toLower :=
  forall_ascii (P := fun c => Text.lowercaseLetter c = c.toLower) (by decide +kernel) hc

/-- Of an ASCII character only another one can be the lowercase. -/
lemma lt_of_toLower_eq {c d : Char} (h : c.toLower = d.toLower) (hc : c.toNat < 128) :
    d.toNat < 128 := by
  have hlower : c.toLower.toNat < 128 :=
    forall_ascii (P := fun c => c.toLower.toNat < 128) (by decide +kernel) hc
  rw [h] at hlower
  unfold Char.toLower at hlower
  split at hlower
  · next hupper => exact Nat.lt_of_le_of_lt hupper.2 (by decide)
  · exact hlower

/-- No letter is a colon in the other case. -/
lemma toLower_eq_colon_iff {c : Char} : c.toLower = ':' ↔ c = ':' := by
  refine ⟨fun h => ?_, fun h => by rw [h]; decide⟩
  have hcolon : (':' : Char).toLower = c.toLower := h.symm
  have hc : c.toNat < 128 := lt_of_toLower_eq hcolon (by decide)
  revert h
  exact forall_ascii (P := fun c => c.toLower = ':' → c = ':') (by decide +kernel) hc

/-- A blank is not a colon. -/
lemma IsSpace.ne_colon {w : Char} (h : IsSpace w) : w ≠ ':' := by
  rintro rfl
  exact absurd h.1 (by decide)

/-! ## The form of an ASCII name -/

/-- A character of a name as it is compared: in lower case, a colon read as a space. -/
def folded (c : Char) : Char :=
  if c.toLower = ':' then ' ' else c.toLower

/-- A blank is compared as a blank. -/
lemma IsSpace.isBlank_folded {w : Char} (h : IsSpace w) : isBlank (folded w) = true := by
  obtain ⟨hblank, hlt⟩ := h
  revert hblank
  exact forall_ascii (P := fun w => isBlank w = true → isBlank (folded w) = true)
    (by decide +kernel) hlt

/-- The lowercase of an ASCII text, character by character. -/
lemma lowercaseAfter_of_isAscii {name : List Char} (h : IsAscii name) (before : List Char) :
    Text.lowercaseAfter before name = name.map Char.toLower := by
  induction name generalizing before with
  | nil => rfl
  | cons c rest ih =>
    obtain ⟨hc, hrest⟩ := List.forall_mem_cons.1 h
    -- the two letters with a lowercase of their own are none of ASCII
    have hsigma : c ≠ 'Σ' := by rintro rfl; exact absurd hc (by decide)
    have hdotted : c ≠ 'İ' := by rintro rfl; exact absurd hc (by decide)
    rw [Text.lowercaseAfter, Text.lowercaseChar, if_neg hsigma, if_neg hdotted, ih hrest,
      lowercaseLetter_of_lt hc]
    rfl

/-- The form of an ASCII name, character by character. -/
lemma nameForm_eq_of_isAscii {name : List Char} (h : IsAscii name) :
    nameForm name = Text.joinWith ' ' (words (name.map folded)) := by
  rw [nameForm, Text.lowercase, String.toList_ofList, String.toList_ofList,
    lowercaseAfter_of_isAscii h, List.map_map]
  rfl

/-! ## One change -/

section Respelled

variable {name other : List Char}

/-- A change leaves an ASCII name one. -/
lemma Respelled.isAscii_iff (h : Respelled name other) : IsAscii name ↔ IsAscii other := by
  cases h with
  | letter front back h =>
    have hlt := Iff.intro (lt_of_toLower_eq h) (lt_of_toLower_eq h.symm)
    simp only [IsAscii, List.forall_mem_append, List.forall_mem_cons, hlt]
  | run front back hu hv hw =>
    simp only [IsAscii, List.forall_mem_append, List.forall_mem_cons, hu.2, hv.2, hw.2, true_and]
  | start _ hw => simp only [IsAscii, List.forall_mem_cons, hw.2, true_and]
  | finish _ hw =>
    simp only [IsAscii, List.forall_mem_append, List.forall_mem_singleton, hw.2, and_true]
  | beforeColon front back hw =>
    simp only [IsAscii, List.forall_mem_append, List.forall_mem_cons, hw.2, true_and]
  | afterColon front back hw =>
    simp only [IsAscii, List.forall_mem_append, List.forall_mem_cons, hw.2, true_and]

/-- One blank separates words like two. -/
lemma words_run {u v w : Char} (hu : isBlank u = true) (hv : isBlank v = true)
    (hw : isBlank w = true) (front back : List Char) :
    words (front ++ u :: back) = words (front ++ v :: w :: back) := by
  rw [Text.words_append_blank hu, Text.words_append_blank hv, Text.words_blank_cons hw]

/-- A change keeps the words of a name. -/
lemma Respelled.words_eq (h : Respelled name other) :
    words (name.map folded) = words (other.map folded) := by
  have hcolon : isBlank (folded ':') = true := by decide
  cases h with
  | letter front back h => simp only [List.map_append, List.map_cons, folded, h]
  | run front back hu hv hw =>
    simp only [List.map_append, List.map_cons]
    exact words_run hu.isBlank_folded hv.isBlank_folded hw.isBlank_folded _ _
  | start _ hw => exact (Text.words_blank_cons hw.isBlank_folded _).symm
  | finish _ hw =>
    rw [List.map_append, List.map_singleton, Text.words_append_blank hw.isBlank_folded]
    exact (List.append_nil _).symm
  | beforeColon front back hw =>
    simp only [List.map_append, List.map_cons]
    exact words_run hcolon hw.isBlank_folded hcolon _ _
  | afterColon front back hw =>
    simp only [List.map_append, List.map_cons]
    exact words_run hcolon hcolon hw.isBlank_folded _ _

/-- A change keeps the form of an ASCII name. -/
lemma Respelled.nameForm_eq (h : Respelled name other) (hascii : IsAscii name) :
    nameForm name = nameForm other := by
  rw [nameForm_eq_of_isAscii hascii, nameForm_eq_of_isAscii (h.isAscii_iff.1 hascii), h.words_eq]

/-- What stands behind the first colon of a name. -/
def model? (name : List Char) : Option (List Char) :=
  (Text.splitFirst? ':' name).map Prod.snd

/-- The first colon is in the front of a name, if there is one. -/
lemma model?_append (front back : List Char) :
    model? (front ++ back) = ((model? front).map (· ++ back)).or (model? back) := by
  induction front with
  | nil => simp [model?, Text.splitFirst?]
  | cons c front ih =>
    by_cases hc : c = ':'
    · simp [model?, Text.splitFirst?, hc]
    · simpa [model?, Text.splitFirst?, hc, Function.comp_def] using ih

lemma model?_cons_of_ne {c : Char} (hc : c ≠ ':') (rest : List Char) :
    model? (c :: rest) = model? rest := by
  simp [model?, Text.splitFirst?, hc, Function.comp_def]

lemma model?_colon_cons (rest : List Char) : model? (':' :: rest) = some rest := by
  simp [model?, Text.splitFirst?]

/-- What is behind the first colon of a name is a part of it. -/
lemma IsAscii.model (h : IsAscii name) {part : List Char} (hpart : model? name = some part) :
    IsAscii part := by
  obtain ⟨⟨before, after⟩, hsplit, rfl⟩ := Option.map_eq_some_iff.1 hpart
  obtain ⟨rfl, -⟩ := Text.splitFirst?_eq_some_iff.1 hsplit
  exact fun c hc => h c (List.mem_append_right _ (List.mem_cons_of_mem _ hc))

/-- A change of a name behind a front is a change behind the colon of the front, or of what stands
behind the front. -/
lemma model?_append_rel {back changed : List Char} (front : List Char)
    (hchange : ∀ part, Respelled (part ++ back) (part ++ changed))
    (hback : Option.Rel (Relation.ReflGen Respelled) (model? back) (model? changed)) :
    Option.Rel (Relation.ReflGen Respelled) (model? (front ++ back)) (model? (front ++ changed)) := by
  rw [model?_append, model?_append]
  cases model? front with
  | none => exact hback
  | some part => exact .some (.single (hchange part))

/-- A change of a name is a change behind its first colon, or nothing changes there. -/
lemma Respelled.model (h : Respelled name other) :
    Option.Rel (Relation.ReflGen Respelled) (model? name) (model? other) := by
  have hsame : ∀ part, Option.Rel (Relation.ReflGen Respelled) part part
    | none => .none
    | some _ => .some .refl
  cases h with
  | @letter front back c d h =>
    refine model?_append_rel front (fun part => .letter part back h) ?_
    by_cases hc : c = ':'
    · have hd : d = ':' := toLower_eq_colon_iff.1 (h ▸ toLower_eq_colon_iff.2 hc)
      rw [hc, hd]
      exact hsame _
    · have hd : d ≠ ':' := fun hd => hc (toLower_eq_colon_iff.1 (h ▸ toLower_eq_colon_iff.2 hd))
      rw [model?_cons_of_ne hc, model?_cons_of_ne hd]
      exact hsame _
  | run front back hu hv hw =>
    refine model?_append_rel front (fun part => .run part back hu hv hw) ?_
    rw [model?_cons_of_ne hu.ne_colon, model?_cons_of_ne hv.ne_colon, model?_cons_of_ne hw.ne_colon]
    exact hsame _
  | start name hw =>
    rw [model?_cons_of_ne hw.ne_colon]
    exact hsame _
  | finish name hw =>
    suffices Option.Rel (Relation.ReflGen Respelled) (model? (name ++ [])) _ by
      rwa [List.append_nil] at this
    refine model?_append_rel name (fun part => ?_) ?_
    · rw [List.append_nil]
      exact .finish part hw
    · rw [model?_cons_of_ne hw.ne_colon]
      exact .none
  | beforeColon front back hw =>
    refine model?_append_rel front (fun part => .beforeColon part back hw) ?_
    rw [model?_cons_of_ne hw.ne_colon]
    exact hsame _
  | afterColon front back hw =>
    refine model?_append_rel front (fun part => .afterColon part back hw) ?_
    rw [model?_colon_cons, model?_colon_cons]
    exact .some (.single (.start back hw))

/-- A change keeps the forms of an ASCII name. -/
lemma Respelled.nameForms_eq (h : Respelled name other) (hascii : IsAscii name) :
    nameForms name = nameForms other := by
  have hmodel : (model? name).toList.map nameForm = (model? other).toList.map nameForm := by
    have hrel := h.model
    generalize hname : model? name = part, hother : model? other = changed at hrel ⊢
    cases hrel with
    | none => rfl
    | some hstep =>
      cases hstep with
      | refl => rfl
      | single hchange =>
        exact congrArg (fun form => [form]) (hchange.nameForm_eq (hascii.model hname))
  rw [model?, model?] at hmodel
  rw [nameForms, nameForms, List.map_cons, List.map_cons, h.nameForm_eq hascii, hmodel]

end Respelled

/-! ## Any number of changes -/

/-- ASCII names that are spelled alike have the same forms.

**Proof sketch.** Induction on the changes that lead from one name to the other. Each keeps the
words of the name (`Respelled.words_eq`) and is a change, or none, of the part behind the first
colon (`Respelled.model`). A change may be undone, so that its name is ASCII is carried along both
ways. -/
lemma SpelledAlike.nameForms_eq {name other : List Char} (h : SpelledAlike name other)
    (hascii : IsAscii name) : nameForms name = nameForms other := by
  suffices (IsAscii name ↔ IsAscii other) ∧ (IsAscii name → nameForms name = nameForms other) from
    this.2 hascii
  clear hascii
  induction h with
  | rel name other hchange => exact ⟨hchange.isAscii_iff, hchange.nameForms_eq⟩
  | refl name => exact ⟨Iff.rfl, fun _ => rfl⟩
  | symm name other _ ih => exact ⟨ih.1.symm, fun hother => (ih.2 (ih.1.2 hother)).symm⟩
  | trans name middle other _ _ ihfirst ihsecond =>
    exact ⟨ihfirst.1.trans ihsecond.1, fun hname =>
      (ihfirst.2 hname).trans (ihsecond.2 (ihfirst.1.1 hname))⟩

end LayeredProfiles.Note
