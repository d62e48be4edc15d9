set_option autoImplicit false

/-!
# Splitting a text at a character

## Main definitions

* `splitAt` — the pieces between the occurrences of a character, empty ones included.
* `joinWith` — the pieces with a character between neighbours.
* `splitFirst?` — the text before and after the first occurrence.
* `splitsAt` — the texts before and after each occurrence.

## Main results

* `joinWith_splitAt` — joining the pieces gives the text back.
* `mem_splitsAt_iff` — the two sides of a split make up the text around the separator.
* `splitAt_append_sep` — splitting goes from left to right.
* `splitAt_joinWith` — splitting joined pieces gives them back if none contains the separator.
-/

namespace LayeredProfiles.Text

/-- The pieces of a text between the occurrences of `sep`. There is always at least one. -/
def splitAt (sep : Char) : List Char → List (List Char)
  | [] => [[]]
  | c :: rest =>
    if c = sep then [] :: splitAt sep rest
    else
      match splitAt sep rest with
      | [] => [[c]]
      | piece :: pieces => (c :: piece) :: pieces

/-- The pieces in one text, with `sep` between neighbours. -/
def joinWith (sep : Char) : List (List Char) → List Char
  | [] => []
  | [piece] => piece
  | piece :: next :: pieces => piece ++ sep :: joinWith sep (next :: pieces)

/-- The text before and after the first `sep`, if there is one. -/
def splitFirst? (sep : Char) : List Char → Option (List Char × List Char)
  | [] => none
  | c :: rest =>
    if c = sep then some ([], rest)
    else (splitFirst? sep rest).map fun parts => (c :: parts.1, parts.2)

/-- The texts before and after each `sep`, from left to right. -/
def splitsAt (sep : Char) : List Char → List (List Char × List Char)
  | [] => []
  | c :: rest =>
    let later := (splitsAt sep rest).map fun parts => (c :: parts.1, parts.2)
    if c = sep then ([], rest) :: later else later

/-- The pieces of a string between the occurrences of `sep`. -/
def pieces (sep : Char) (text : String) : List String :=
  (splitAt sep text.toList).map String.ofList

/-- Whatever stands before and after a separator makes up the text. -/
theorem mem_splitsAt_iff {sep : Char} {text before after : List Char} :
    (before, after) ∈ splitsAt sep text ↔ before ++ sep :: after = text := by
  induction text generalizing before with
  | nil => simp [splitsAt]
  | cons c rest ih =>
    cases before with
    | nil =>
      by_cases hc : c = sep
      · simp [splitsAt, hc, eq_comm]
      · simp [splitsAt, hc, Ne.symm hc]
    | cons d before =>
      by_cases hc : c = sep
      · simpa [splitsAt, hc, ih, @eq_comm _ d] using and_comm
      · simpa [splitsAt, hc, ih, @eq_comm _ d] using and_comm

theorem splitAt_ne_nil (sep : Char) (text : List Char) : splitAt sep text ≠ [] := by
  cases text with
  | nil => simp [splitAt]
  | cons c rest =>
    unfold splitAt
    split
    · simp
    · split <;> simp

/-- Joining the pieces gives the text back. -/
theorem joinWith_splitAt (sep : Char) (text : List Char) :
    joinWith sep (splitAt sep text) = text := by
  induction text with
  | nil => rfl
  | cons c rest ih =>
    have hne := splitAt_ne_nil sep rest
    cases hs : splitAt sep rest with
    | nil => exact absurd hs hne
    | cons piece more =>
      rw [hs] at ih
      by_cases hc : c = sep
      · simp [splitAt, hc, hs, joinWith, ih]
      · cases more with
        | nil => simp [splitAt, hc, hs, joinWith] at *; exact ih
        | cons next more => simp [splitAt, hc, hs, joinWith] at *; exact ih

/-- A text without the separator is its only piece. -/
theorem splitAt_eq_singleton {sep : Char} {text : List Char} (h : sep ∉ text) :
    splitAt sep text = [text] := by
  induction text with
  | nil => rfl
  | cons c rest ih =>
    simp only [List.mem_cons, not_or] at h
    simp [splitAt, Ne.symm h.1, ih h.2]

/-- Splitting goes from left to right. -/
theorem splitAt_append_sep (sep : Char) (before after : List Char) :
    splitAt sep (before ++ sep :: after) = splitAt sep before ++ splitAt sep after := by
  induction before with
  | nil => simp [splitAt]
  | cons c before ih =>
    by_cases hc : c = sep
    · simp [splitAt, hc, ih]
    · cases hs : splitAt sep before with
      | nil => exact absurd hs (splitAt_ne_nil sep before)
      | cons piece more => simp [splitAt, hc, ih, hs]

/-- Splitting reads a piece without the separator up to the separator that follows it. -/
theorem splitAt_append {sep : Char} {piece : List Char} (h : sep ∉ piece) (rest : List Char) :
    splitAt sep (piece ++ sep :: rest) = piece :: splitAt sep rest := by
  rw [splitAt_append_sep, splitAt_eq_singleton h, List.singleton_append]

/-- No piece contains the separator. -/
theorem not_mem_of_mem_splitAt {sep : Char} {text piece : List Char}
    (h : piece ∈ splitAt sep text) : sep ∉ piece := by
  induction text generalizing piece with
  | nil => simp_all [splitAt]
  | cons c rest ih =>
    unfold splitAt at h
    split at h
    · rcases List.mem_cons.1 h with rfl | hrest
      · exact List.not_mem_nil
      · exact ih hrest
    · next hc =>
      cases hs : splitAt sep rest with
      | nil => exact absurd hs (splitAt_ne_nil sep rest)
      | cons first more =>
        rw [hs] at h ih
        rcases List.mem_cons.1 h with rfl | hmore
        · simpa [Ne.symm hc] using ih List.mem_cons_self
        · exact ih (List.mem_cons_of_mem _ hmore)

/-- Splitting joined pieces gives them back if none contains the separator. -/
theorem splitAt_joinWith {sep : Char} {parts : List (List Char)} (hne : parts ≠ [])
    (h : ∀ piece ∈ parts, sep ∉ piece) : splitAt sep (joinWith sep parts) = parts := by
  induction parts with
  | nil => exact absurd rfl hne
  | cons piece rest ih =>
    cases rest with
    | nil => exact splitAt_eq_singleton (h piece (by simp))
    | cons next more =>
      rw [joinWith, splitAt_append (h piece (by simp)), ih (by simp)
        fun p hp => h p (List.mem_cons_of_mem _ hp)]

end LayeredProfiles.Text
