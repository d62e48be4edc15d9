import Mathlib.Tactic.Lemma
import LayeredProfiles.Text.Blank

set_option autoImplicit false

/-!
# Splits and words of a text

Which of several splits comes first, when nothing is left of a trimmed text, and which changes of a
text keep its words.

## Main results

* `splitFirst?_eq_some_iff` — the first split has no separator in front.
* `pairwise_splitsAt` — the splits of a text go from left to right.
* `trim_eq_nil_iff` — nothing is left of a trimmed text exactly if it was blank.
* `words_append_blank` — a blank separates words and belongs to none.
-/

namespace LayeredProfiles.Text

variable {sep : Char} {text : List Char}

/-! ## Splits -/

/-- The first split has no separator in front. -/
lemma splitFirst?_eq_some_iff {before after : List Char} :
    splitFirst? sep text = some (before, after) ↔ text = before ++ sep :: after ∧ sep ∉ before := by
  constructor
  · intro h
    induction text generalizing before with
    | nil => cases h
    | cons c rest ih =>
      by_cases hc : c = sep
      · rw [splitFirst?, if_pos hc] at h
        cases h
        exact ⟨congrArg (· :: _) hc, List.not_mem_nil⟩
      · rw [splitFirst?, if_neg hc, Option.map_eq_some_iff] at h
        obtain ⟨parts, hparts, hsplit⟩ := h
        cases hsplit
        obtain ⟨rfl, hnot⟩ := ih hparts
        exact ⟨rfl, fun hmem => (List.mem_cons.1 hmem).elim (fun heq => hc heq.symm) hnot⟩
  · rintro ⟨rfl, hnot⟩
    induction before with
    | nil => simp [splitFirst?]
    | cons c before ih =>
      rw [List.mem_cons, not_or] at hnot
      simp [splitFirst?, Ne.symm hnot.1, ih hnot.2]

/-- There is no split exactly if the separator does not occur. -/
lemma splitFirst?_eq_none_iff : splitFirst? sep text = none ↔ sep ∉ text := by
  induction text with
  | nil => simp [splitFirst?]
  | cons c rest ih =>
    by_cases hc : c = sep
    · simp [splitFirst?, hc]
    · simp [splitFirst?, hc, ih, Ne.symm hc]

/-- The splits of a text go from left to right. -/
lemma pairwise_splitsAt (sep : Char) (text : List Char) :
    (splitsAt sep text).Pairwise fun first second => first.1.length < second.1.length := by
  induction text with
  | nil => exact List.Pairwise.nil
  | cons c rest ih =>
    have hlater : ((splitsAt sep rest).map fun parts => (c :: parts.1, parts.2)).Pairwise
        fun first second => first.1.length < second.1.length :=
      List.pairwise_map.2 (ih.imp fun h => Nat.succ_lt_succ h)
    unfold splitsAt
    split
    · refine List.pairwise_cons.2 ⟨fun parts hparts => ?_, hlater⟩
      obtain ⟨_, _, rfl⟩ := List.mem_map.1 hparts
      exact Nat.succ_pos _
    · exact hlater

/-! ## Trimmed texts -/

/-- Nothing is left in front of a text of blanks, and only then. -/
lemma trimStart_eq_nil_iff : trimStart text = [] ↔ ∀ c ∈ text, isBlank c = true := by
  induction text with
  | nil => simp [trimStart]
  | cons c rest ih =>
    rw [trimStart] at ih ⊢
    cases hc : isBlank c <;> simp [hc, ih]

/-- Nothing is left of a trimmed text exactly if it was blank. -/
lemma trim_eq_nil_iff : trim text = [] ↔ ∀ c ∈ text, isBlank c = true := by
  rw [← trimStart_eq_nil_iff, trim]
  refine ⟨fun h => ?_, fun h => by rw [h]; rfl⟩
  cases hstart : trimStart text with
  | nil => rfl
  | cons c rest =>
    -- what trimming the front leaves starts with a character that stays
    have hc : isBlank c = false := by
      have hhead := List.head?_dropWhile_not isBlank text
      rw [← trimStart, hstart] at hhead
      simpa using hhead
    rw [hstart] at h
    simp [trimEnd, hc] at h

/-! ## Words -/

/-- A text that starts with a word has words. -/
lemma words_ne_nil {c : Char} (hc : isBlank c = false) (rest : List Char) :
    words (c :: rest) ≠ [] := by
  unfold words
  rw [if_neg (by simp [hc])]
  split
  · simp
  · split
    · simp
    · split <;> simp

/-- A character in front of a blank is a word of its own. -/
lemma words_letter_blank {c d : Char} (hc : isBlank c = false) (hd : isBlank d = true)
    (rest : List Char) : words (c :: d :: rest) = [c] :: words (d :: rest) := by
  rw [words, if_neg (by simp [hc])]
  exact if_pos hd

/-- A character in front of a word belongs to it. -/
lemma words_letter_letter {c d : Char} (hc : isBlank c = false) (hd : isBlank d = false)
    {rest word : List Char} {more : List (List Char)} (h : words (d :: rest) = word :: more) :
    words (c :: d :: rest) = (c :: word) :: more := by
  rw [words, if_neg (by simp [hc])]
  simp only [hd, h, Bool.false_eq_true, if_false]

/-- A blank separates words and belongs to none. -/
lemma words_append_blank {w : Char} (hw : isBlank w = true) (front back : List Char) :
    words (front ++ w :: back) = words front ++ words back := by
  induction front with
  | nil => simp [words, hw]
  | cons c front ih =>
    cases hc : isBlank c with
    | true => simpa [words, hc] using ih
    | false =>
      cases front with
      | nil => simp [words, hc, hw]
      | cons d front =>
        simp only [List.cons_append] at ih ⊢
        cases hd : isBlank d with
        | true => rw [words_letter_blank hc hd, words_letter_blank hc hd, ih, List.cons_append]
        | false =>
          obtain ⟨word, more, hwords⟩ := List.exists_cons_of_ne_nil (words_ne_nil hd front)
          rw [hwords, List.cons_append] at ih
          rw [words_letter_letter hc hd hwords, words_letter_letter hc hd ih, List.cons_append]

/-- A blank in front of a text adds no word. -/
lemma words_blank_cons {w : Char} (hw : isBlank w = true) (text : List Char) :
    words (w :: text) = words text :=
  words_append_blank hw [] text

end LayeredProfiles.Text
