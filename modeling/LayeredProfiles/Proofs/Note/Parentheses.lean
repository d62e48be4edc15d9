import Mathlib.Data.List.Basic
import LayeredProfiles.Proofs.Note.Choice
import LayeredProfiles.Proofs.Note.Lines

set_option autoImplicit false

/-!
# Notes in parentheses

A note is put in parentheses unless there is one at each of its ends already. If the parentheses of the
note are balanced, the two at its ends can belong to each other, and then the note is enclosed, or each
of them can belong to another one in between. In the second case the note is a sequence of several
groups and stays one.

## Main definitions

* `Note.openBehind?` — how many parentheses are open behind a text.
* `Note.Balanced`, `Note.IsEnclosed`, `Note.IsSequence` — the ways in which parentheses can stand.
* `Note.Offered` — the texts that the lines of a note file offer.

## Main results

* `Note.Balanced.exists_closed` — every parenthesis of a balanced text is closed.
* `Note.Balanced.eq_of_closed` — it is closed in one place only.
* `Note.toList_parenthesized` — what is put around a note.
* `Note.isEnclosed_parenthesized_iff` — when a balanced note becomes an enclosed one.
* `Note.exists_offered_of_choose?` — where the note of a vehicle comes from.
-/

namespace LayeredProfiles.Note

open Text (isBlank trim trimEnd trimStart)

/-- How many parentheses are open behind a text, if so many are in front of it. There is no such number
if the text closes one that is not open. -/
def openBehind? : Nat → List Char → Option Nat
  | n, [] => some n
  | n, c :: rest =>
    if c = '(' then openBehind? (n + 1) rest
    else if c = ')' then
      match n with
      | 0 => none
      | n + 1 => openBehind? n rest
    else openBehind? n rest

/-- A text closes the parentheses that it opens, and no others. -/
def Balanced (text : List Char) : Prop :=
  openBehind? 0 text = some 0

instance (text : List Char) : Decidable (Balanced text) :=
  inferInstanceAs (Decidable (openBehind? 0 text = some 0))

/-- A text is one group: the parenthesis at its start is closed by the one at its end. -/
def IsEnclosed (text : List Char) : Prop :=
  ∃ inner, text = '(' :: (inner ++ [')']) ∧ Balanced inner

/-- A text has a parenthesis at each end, but the one at its start is closed by another one than the one
at its end. -/
def IsSequence (text : List Char) : Prop :=
  ∃ inner rest, text = '(' :: (inner ++ ')' :: rest) ∧ Balanced inner ∧ rest.getLast? = some ')'

/-- A text that the lines of a note file offer: a whole line, or what stands behind one of its colons. -/
def Offered (lines : List String) (text : List Char) : Prop :=
  ∃ line ∈ lines, text = line.toList ∨ ∃ front, line.toList = front ++ ':' :: text

variable {text inner other rest after : List Char} {n m : Nat}

/-! ## Counting open parentheses -/

@[simp] lemma openBehind?_nil (n : Nat) : openBehind? n [] = some n := rfl

@[simp] lemma openBehind?_open (n : Nat) (rest : List Char) :
    openBehind? n ('(' :: rest) = openBehind? (n + 1) rest := rfl

@[simp] lemma openBehind?_close (n : Nat) (rest : List Char) :
    openBehind? (n + 1) (')' :: rest) = openBehind? n rest := rfl

@[simp] lemma openBehind?_close_zero (rest : List Char) : openBehind? 0 (')' :: rest) = none := rfl

lemma openBehind?_letter {c : Char} (hopen : c ≠ '(') (hclose : c ≠ ')') (n : Nat) (rest : List Char) :
    openBehind? n (c :: rest) = openBehind? n rest := by
  cases n <;> simp [openBehind?, hopen, hclose]

/-- What is open in the middle of a text is open in front of the rest. -/
lemma openBehind?_append (n : Nat) (front back : List Char) :
    openBehind? n (front ++ back) = (openBehind? n front).bind fun m => openBehind? m back := by
  induction front generalizing n with
  | nil => rfl
  | cons c front ih =>
    rw [List.cons_append]
    by_cases hopen : c = '('
    · subst hopen
      exact ih (n + 1)
    by_cases hclose : c = ')'
    · subst hclose
      cases n with
      | zero => rfl
      | succ n => exact ih n
    rw [openBehind?_letter hopen hclose, openBehind?_letter hopen hclose, ih]

/-- Parentheses that are open in front of a text and that it does not close stay open. -/
lemma openBehind?_add (h : openBehind? n text = some m) (k : Nat) :
    openBehind? (n + k) text = some (m + k) := by
  induction text generalizing n with
  | nil =>
    obtain rfl := Option.some.inj h
    rfl
  | cons c rest ih =>
    by_cases hopen : c = '('
    · subst hopen
      have hrest := ih (n := n + 1) h
      rwa [Nat.add_right_comm] at hrest
    by_cases hclose : c = ')'
    · subst hclose
      cases n with
      | zero => cases h
      | succ n =>
        rw [Nat.add_right_comm]
        exact ih (n := n) h
    rw [openBehind?_letter hopen hclose] at h ⊢
    exact ih h

/-- A balanced text does not change how many are open. -/
lemma Balanced.openBehind?_eq (h : Balanced text) (n : Nat) : openBehind? n text = some n := by
  have hadd := openBehind?_add h n
  rwa [Nat.zero_add] at hadd

/-- How many are open behind a text that goes on after a balanced one. -/
lemma Balanced.openBehind?_append (h : Balanced inner) (n : Nat) (rest : List Char) :
    openBehind? n (inner ++ rest) = openBehind? n rest := by
  rw [Note.openBehind?_append, h.openBehind?_eq, Option.bind_some]

/-- A text without parentheses does not change how many are open. -/
lemma balanced_of_letters (h : ∀ c ∈ text, c ≠ '(' ∧ c ≠ ')') : Balanced text := by
  unfold Balanced
  induction text with
  | nil => rfl
  | cons c rest ih =>
    obtain ⟨⟨hopen, hclose⟩, hrest⟩ := List.forall_mem_cons.1 h
    rw [openBehind?_letter hopen hclose, ih hrest]

/-! ## Where a parenthesis is closed -/

/-- If a text closes a parenthesis that is open in front of it, it does so behind a balanced part. -/
lemma exists_closed (h : openBehind? (n + 1) text = some m) (hm : m ≤ n) :
    ∃ inner after, text = inner ++ ')' :: after ∧ Balanced inner ∧ openBehind? n after = some m := by
  -- by induction on the length, as behind a group that is opened and closed the search goes on
  induction hlength : text.length using Nat.strongRecOn generalizing text n with
  | ind length ih =>
    subst hlength
    cases text with
    | nil =>
      obtain rfl := Option.some.inj h
      omega
    | cons c rest =>
      by_cases hclose : c = ')'
      · subst hclose
        exact ⟨[], rest, rfl, rfl, h⟩
      by_cases hopen : c = '('
      · subst hopen
        obtain ⟨first, between, rfl, hfirst, hbetween⟩ :=
          ih rest.length (Nat.lt_succ_self _) (n := n + 1) h (by omega) rfl
        have hshorter : between.length < ('(' :: (first ++ ')' :: between)).length := by
          simp only [List.length_cons, List.length_append]
          omega
        obtain ⟨second, after, rfl, hsecond, hafter⟩ := ih _ hshorter hbetween hm rfl
        refine ⟨'(' :: (first ++ ')' :: second), after, by simp, ?_, hafter⟩
        rw [Balanced, openBehind?_open, hfirst.openBehind?_append, openBehind?_close]
        exact hsecond
      · rw [openBehind?_letter hopen hclose] at h
        obtain ⟨inner, after, rfl, hinner, hafter⟩ := ih rest.length (Nat.lt_succ_self _) h hm rfl
        refine ⟨c :: inner, after, rfl, ?_, hafter⟩
        rw [Balanced, openBehind?_letter hopen hclose]
        exact hinner

/-- **The parenthesis that a balanced text starts with is closed**, and what stands behind is balanced. -/
lemma Balanced.exists_closed (h : Balanced ('(' :: rest)) :
    ∃ inner after, rest = inner ++ ')' :: after ∧ Balanced inner ∧ Balanced after :=
  Note.exists_closed (n := 0) h (Nat.le_refl 0)

/-- A balanced text does not go on to close one more. -/
lemma Balanced.not_close (h : Balanced inner) (rest : List Char) : ¬Balanced (inner ++ ')' :: rest) := by
  rw [Balanced, h.openBehind?_append, openBehind?_close_zero]
  exact nofun

/-- What makes a balanced text a longer one does not start by closing a parenthesis. -/
lemma Balanced.eq_nil_of_append {more tail : List Char} (h : Balanced inner)
    (hlonger : Balanced (inner ++ more)) (hclose : ')' :: rest = more ++ tail) : more = [] := by
  cases more with
  | nil => rfl
  | cons c more =>
    obtain rfl : ')' = c := (List.cons.inj hclose).1
    exact absurd hlonger (h.not_close more)

/-- **A parenthesis is closed in one place only.** -/
lemma Balanced.eq_of_closed (h : Balanced inner) (hother : Balanced other)
    (heq : inner ++ ')' :: rest = other ++ ')' :: after) : inner = other ∧ rest = after := by
  rcases List.append_eq_append_iff.1 heq with ⟨more, rfl, hmore⟩ | ⟨more, rfl, hmore⟩
  · obtain rfl := h.eq_nil_of_append hother hmore
    exact ⟨(List.append_nil inner).symm, (List.cons.inj hmore).2⟩
  · obtain rfl := hother.eq_nil_of_append h hmore
    exact ⟨List.append_nil other, (List.cons.inj hmore).2.symm⟩

/-- A group is closed at its end only. -/
lemma IsEnclosed.closed_at_end (h : IsEnclosed ('(' :: (inner ++ ')' :: rest)))
    (hinner : Balanced inner) : rest = [] := by
  obtain ⟨whole, heq, hwhole⟩ := h
  exact (hinner.eq_of_closed hwhole (List.cons.inj heq).2).2

/-- A sequence of groups is not one group. -/
lemma IsSequence.not_isEnclosed (h : IsSequence text) : ¬IsEnclosed text := by
  obtain ⟨inner, rest, rfl, hinner, hlast⟩ := h
  intro henclosed
  rw [henclosed.closed_at_end hinner] at hlast
  cases hlast

/-! ## Trimmed texts -/

/-- A blank is not a parenthesis. -/
lemma ne_of_isBlank {c : Char} (h : isBlank c = true) : c ≠ '(' ∧ c ≠ ')' := by
  constructor <;>
  · rintro rfl
    exact absurd h (by decide)

/-- Trimming removes blanks at both ends. -/
lemma exists_eq_trim (text : List Char) :
    ∃ left right, text = left ++ (trim text ++ right) ∧ IsBlankLine left ∧ IsBlankLine right := by
  have hend : ∀ text : List Char, ∃ right, text = trimEnd text ++ right ∧ IsBlankLine right := by
    intro text
    induction text with
    | nil => exact ⟨[], rfl, isBlankLine_nil⟩
    | cons c rest ih =>
      obtain ⟨right, hrest, hright⟩ := ih
      unfold trimEnd
      split
      · next hblank =>
        obtain ⟨hnil, hc⟩ := Bool.and_eq_true_iff.1 hblank
        rw [List.isEmpty_iff.1 hnil, List.nil_append] at hrest
        exact ⟨c :: rest, rfl, List.forall_mem_cons.2 ⟨hc, hrest ▸ hright⟩⟩
      · exact ⟨right, congrArg (c :: ·) hrest, hright⟩
  obtain ⟨right, hright, hblank⟩ := hend (trimStart text)
  refine ⟨text.takeWhile isBlank, right, ?_, List.all_eq_true.1 List.all_takeWhile, hblank⟩
  rw [trim, ← hright, trimStart, List.takeWhile_append_dropWhile]

/-- A text is balanced exactly if it is when it is trimmed. -/
lemma balanced_trim_iff : Balanced (trim text) ↔ Balanced text := by
  obtain ⟨left, right, htext, hleft, hright⟩ := exists_eq_trim text
  have hbefore : Balanced left := balanced_of_letters fun c hc => ne_of_isBlank (hleft c hc)
  have hbehind : Balanced right := balanced_of_letters fun c hc => ne_of_isBlank (hright c hc)
  have hsame : openBehind? 0 text = openBehind? 0 (trim text) := by
    refine (congrArg (openBehind? 0) htext).trans ?_
    rw [hbefore.openBehind?_append, openBehind?_append]
    cases openBehind? 0 (trim text) with
    | none => rfl
    | some m => exact hbehind.openBehind?_eq m
  rw [Balanced, Balanced, hsame]

/-- A text between parentheses is trimmed. -/
lemma trim_between (inner : List Char) : trim ('(' :: (inner ++ [')'])) = '(' :: (inner ++ [')']) := by
  have hend : trimEnd (inner ++ [')']) = inner ++ [')'] := by
    refine Text.trimEnd_eq_self fun c hc => ?_
    rw [List.getLast?_concat, Option.mem_some_iff] at hc
    exact hc ▸ (by decide)
  have htrim := trim_append_cons isBlankLine_nil (show isBlank '(' = false by decide) (inner ++ [')'])
  rwa [List.nil_append, hend] at htrim

/-! ## What is put around a note -/

/-- A text has a parenthesis at each end exactly if it stands between two. -/
lemma between_iff :
    (text.head? = some '(' ∧ text.getLast? = some ')') ↔ ∃ inner, text = '(' :: (inner ++ [')']) := by
  constructor
  · rintro ⟨hhead, hlast⟩
    obtain ⟨rest, rfl⟩ := List.head?_eq_some_iff.1 hhead
    cases rest with
    | nil => cases hlast
    | cons c rest =>
      rw [List.getLast?_cons_cons] at hlast
      obtain ⟨inner, hinner⟩ := List.getLast?_eq_some_iff.1 hlast
      exact ⟨inner, congrArg _ hinner⟩
  · rintro ⟨inner, rfl⟩
    refine ⟨rfl, ?_⟩
    rw [← List.cons_append, List.getLast?_concat]

/-- **What is put around a note**: nothing if there is a parenthesis at each end of the trimmed text, and
otherwise one at each end. -/
lemma toList_parenthesized (text : String) :
    (∃ inner, trim text.toList = '(' :: (inner ++ [')']) ∧
      (parenthesized text).toList = trim text.toList) ∨
    ((¬∃ inner, trim text.toList = '(' :: (inner ++ [')'])) ∧
      (parenthesized text).toList = '(' :: (trim text.toList ++ [')'])) := by
  unfold parenthesized
  dsimp only
  split
  · next hends => exact .inl (by simpa using between_iff.1 hends)
  · next hends => exact .inr ⟨fun hbetween => hends (between_iff.2 hbetween), by simp⟩

/-- What is put around a note does not depend on the blanks at its ends. -/
lemma parenthesized_trim (text : List Char) :
    parenthesized (String.ofList (trim text)) = parenthesized (String.ofList text) := by
  unfold parenthesized
  rw [String.toList_ofList, String.toList_ofList, Text.trim_idem]

/-- A note stands between parentheses, inside of which there is the trimmed text, or its inside. -/
lemma exists_parenthesized (text : String) :
    ∃ inner, (parenthesized text).toList = '(' :: (inner ++ [')']) ∧
      (inner = trim text.toList ∨ trim text.toList = '(' :: (inner ++ [')'])) := by
  rcases toList_parenthesized text with ⟨inner, hbetween, hsame⟩ | ⟨-, hwrapped⟩
  · exact ⟨inner, hsame.trans hbetween, .inr hbetween⟩
  · exact ⟨_, hwrapped, .inl rfl⟩

/-- Nothing more is put around a note that stands between parentheses. -/
lemma parenthesized_parenthesized (text : String) :
    parenthesized (parenthesized text) = parenthesized text := by
  obtain ⟨inner, hbetween, -⟩ := exists_parenthesized text
  have htrim : trim (parenthesized text).toList = (parenthesized text).toList := by
    rw [hbetween, trim_between]
  rcases toList_parenthesized (parenthesized text) with ⟨-, -, hsame⟩ | ⟨hnot, -⟩
  · exact String.ext_iff.2 (hsame.trans htrim)
  · exact absurd ⟨inner, htrim.trans hbetween⟩ hnot

/-- **When a balanced note becomes an enclosed one**: unless it is a sequence of groups, which stays as it
is. -/
lemma isEnclosed_parenthesized_iff {text : String} (h : Balanced text.toList) :
    (IsEnclosed (parenthesized text).toList ↔ ¬IsSequence (trim text.toList)) ∧
      (IsSequence (trim text.toList) → (parenthesized text).toList = trim text.toList) := by
  have htrimmed : Balanced (trim text.toList) := balanced_trim_iff.2 h
  rcases toList_parenthesized text with ⟨whole, hbetween, hsame⟩ | ⟨hnot, hwrapped⟩
  · refine ⟨?_, fun _ => hsame⟩
    rw [hsame]
    refine ⟨fun henclosed hsequence => hsequence.not_isEnclosed henclosed, fun hsequence => ?_⟩
    rw [hbetween] at htrimmed
    obtain ⟨inner, after, hclosed, hinner, -⟩ := htrimmed.exists_closed
    cases after with
    | nil => exact ⟨inner, by rw [hbetween, hclosed], hinner⟩
    | cons c after =>
      -- behind the place where it is closed the text goes on to its last parenthesis
      refine absurd ⟨inner, c :: after, by rw [hbetween, hclosed], hinner, ?_⟩ hsequence
      have hlast : (inner ++ ')' :: c :: after).getLast? = some ')' := by
        rw [← hclosed, List.getLast?_concat]
      rwa [List.getLast?_append_cons, List.getLast?_cons_cons] at hlast
  · have hno : ¬IsSequence (trim text.toList) := by
      rintro ⟨inner, rest, htext, -, hlast⟩
      refine hnot (between_iff.1 ?_)
      rw [htext]
      refine ⟨rfl, ?_⟩
      obtain ⟨front, rfl⟩ := List.getLast?_eq_some_iff.1 hlast
      simp [List.getLast?_cons, List.getLast?_append]
    rw [hwrapped]
    exact ⟨⟨fun _ => hno, fun _ => ⟨_, rfl, htrimmed⟩⟩, fun hsequence => absurd hsequence hno⟩

/-! ## Where the note of a vehicle comes from -/

/-- The note that lines hold for a vehicle is one of the texts that they offer. -/
lemma exists_offered_of_choose? {lines : List String} {carModel note : String}
    (h : choose? lines carModel = some note) :
    ∃ text, Offered lines text ∧ note = parenthesized (String.ofList text) := by
  unfold choose? at h
  obtain ⟨found, hfound, rfl⟩ := Option.map_eq_some_iff.1 h
  rcases Option.or_eq_some_iff.1 hfound with hspecific | ⟨-, hgeneric⟩
  · obtain ⟨above, line, below, rfl, -, hline⟩ := first_of_specific? hspecific
    obtain ⟨before, behind, hmarks, -, rfl⟩ := leftmost_of_specificIn? hline
    exact ⟨behind, ⟨line, by simp, .inr ⟨before, hmarks.split⟩⟩, parenthesized_trim behind⟩
  · cases lines with
    | nil => cases hgeneric
    | cons line more =>
      obtain ⟨general, hgeneral, hnote⟩ := exists_isGeneral line (more.map String.toList)
      rw [List.map_cons, hnote] at hgeneric
      split at hgeneric
      · cases hgeneric
      · obtain rfl := Option.some.inj hgeneric
        refine ⟨general, ⟨line, List.mem_cons_self, ?_⟩, parenthesized_trim general⟩
        exact hgeneral.imp And.right fun ⟨front, _, hline⟩ => ⟨front, hline⟩

end LayeredProfiles.Note
