import Mathlib.Tactic.IntervalCases
import LayeredProfiles.Json.Reader
import LayeredProfiles.Json.Writer

set_option autoImplicit false

/-!
# Strings are read back

A string is written character by character, and a character that is escaped is read back from its
escape.

## Main results

* `Json.readEscape_escape` — an escape is read back.
* `Json.readString_escape` — a string in its quotes is read back.
-/

namespace LayeredProfiles.Json

set_option maxRecDepth 1000 in
/-- The control characters are read back from their escapes. -/
lemma readEscape_control {n : Nat} (h : n < 32) (rest : List Char) :
    ∃ body, escape (Char.ofNat n) = '\\' :: body ∧
      readEscape (body ++ rest) = .ok (Char.ofNat n, rest) := by
  interval_cases n <;> exact ⟨_, rfl, rfl⟩

/-- A character is written as itself, or as an escape that is read back. -/
lemma readEscape_escape (c : Char) (rest : List Char) :
    (escape c = [c] ∧ c ≠ '"' ∧ c ≠ '\\' ∧ ¬ c.toNat < 32) ∨
      ∃ body, escape c = '\\' :: body ∧ readEscape (body ++ rest) = .ok (c, rest) := by
  by_cases hquote : c = '"'
  · exact .inr ⟨['"'], by simp [escape, hquote], by simp [readEscape, hquote]⟩
  by_cases hslash : c = '\\'
  · exact .inr ⟨['\\'], by simp [escape, hslash], by simp [readEscape, hslash]⟩
  by_cases hcontrol : c.toNat < 32
  · rw [← Char.ofNat_toNat c]
    exact .inr (readEscape_control hcontrol rest)
  · exact .inl ⟨by simp [escape, hquote, hslash, hcontrol], hquote, hslash, hcontrol⟩

/-- A character is written with at least one. -/
lemma length_le_flatMap_escape (text : List Char) : text.length ≤ (text.flatMap escape).length := by
  induction text with
  | nil => exact Nat.zero_le _
  | cons c text ih =>
    have hpos : 0 < (escape c).length := by
      rcases readEscape_escape c [] with ⟨hself, -⟩ | ⟨body, hbody, -⟩ <;> simp [*]
    rw [List.flatMap_cons, List.length_append, List.length_cons]
    omega

/-- The characters of a string are read back up to the quote at its end. -/
lemma readCharacters_escape {fuel : Nat} {text : List Char} (h : text.length < fuel)
    (rest : List Char) :
    readCharacters fuel (text.flatMap escape ++ '"' :: rest) = .ok (text, rest) := by
  induction text generalizing fuel with
  | nil =>
    obtain ⟨fuel, rfl⟩ := Nat.exists_eq_succ_of_ne_zero (Nat.ne_of_gt h)
    rfl
  | cons c text ih =>
    obtain ⟨fuel, rfl⟩ := Nat.exists_eq_succ_of_ne_zero (Nat.ne_of_gt (Nat.zero_lt_of_lt h))
    have hrest := ih (Nat.lt_of_succ_lt_succ h)
    rw [List.flatMap_cons, List.append_assoc]
    rcases readEscape_escape c (text.flatMap escape ++ '"' :: rest) with
      ⟨hself, hquote, hslash, hcontrol⟩ | ⟨body, hbody, hread⟩
    · rw [hself, List.singleton_append, readCharacters, if_neg hquote, if_neg hslash,
        if_neg hcontrol, hrest]
      rfl
    · rw [hbody, List.cons_append, readCharacters, if_neg (by decide), if_pos rfl, hread]
      dsimp only [bind, Except.bind]
      rw [hrest]

/-- A string in its quotes is read back. -/
lemma readString_escape (text : String) (rest : List Char) :
    readString (text.toList.flatMap escape ++ '"' :: rest) = .ok (text, rest) := by
  have hlength := length_le_flatMap_escape text.toList
  unfold readString
  rw [readCharacters_escape (by rw [List.length_append]; omega)]
  dsimp only [bind, Except.bind]
  rw [String.ofList_toList]

end LayeredProfiles.Json
