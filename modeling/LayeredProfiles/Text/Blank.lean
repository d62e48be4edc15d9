import LayeredProfiles.Text.Split

set_option autoImplicit false

/-!
# Blank characters

A character is blank if the Unicode standard gives it the property White_Space: besides the space
and the line and tab controls these are the no-break space and the spaces of various widths, but
not the zero-width space.

## Main definitions

* `isBlank` — the property White_Space.
* `trim` — a text without the blanks at its two ends.
* `words` — the maximal runs of characters that are not blank.

## Main results

* `trim_idem` — trimming a second time changes nothing.
-/

namespace LayeredProfiles.Text

/-- The property White_Space of the Unicode standard. -/
def isBlank (c : Char) : Bool :=
  let n := c.toNat
  (9 ≤ n && n ≤ 13) || n == 0x20 || n == 0x85 || n == 0xA0 || n == 0x1680 ||
    (0x2000 ≤ n && n ≤ 0x200A) || n == 0x2028 || n == 0x2029 || n == 0x202F || n == 0x205F ||
    n == 0x3000

/-- A text without the blanks in front. -/
def trimStart (text : List Char) : List Char :=
  text.dropWhile isBlank

/-- A text without the blanks at its end. -/
def trimEnd : List Char → List Char
  | [] => []
  | c :: rest => if (trimEnd rest).isEmpty && isBlank c then [] else c :: trimEnd rest

/-- A text without the blanks at its two ends. -/
def trim (text : List Char) : List Char :=
  trimEnd (trimStart text)

/-- The maximal runs of characters that are not blank. -/
def words : List Char → List (List Char)
  | [] => []
  | c :: rest =>
    if isBlank c then words rest
    else
      match rest with
      | [] => [[c]]
      | d :: _ =>
        if isBlank d then [c] :: words rest
        else
          match words rest with
          | [] => [[c]]
          | word :: more => (c :: word) :: more

/-- Whether a text has no character other than blanks. -/
def isAllBlank (text : String) : Bool :=
  text.toList.all isBlank

/-- A string without the blanks at its two ends. -/
def trimmed (text : String) : String :=
  String.ofList (trim text.toList)

/-! ## Laws -/

/-- Trimming the end leaves no blank at the end. -/
theorem getLast?_trimEnd (text : List Char) :
    ∀ c ∈ (trimEnd text).getLast?, isBlank c = false := by
  induction text with
  | nil => simp [trimEnd]
  | cons c rest ih =>
    cases ht : trimEnd rest with
    | nil => cases hc : isBlank c <;> simp [trimEnd, ht, hc]
    | cons d more =>
      rw [ht] at ih
      simpa [trimEnd, ht] using ih

/-- A text without a blank at its end is its own trimmed form. -/
theorem trimEnd_eq_self {text : List Char} (h : ∀ c ∈ text.getLast?, isBlank c = false) :
    trimEnd text = text := by
  induction text with
  | nil => rfl
  | cons c rest ih =>
    cases rest with
    | nil => simp at h; simp [trimEnd, h]
    | cons d more =>
      rw [List.getLast?_cons_cons] at h
      unfold trimEnd
      simp [ih h]

theorem trimEnd_trimEnd (text : List Char) : trimEnd (trimEnd text) = trimEnd text :=
  trimEnd_eq_self (getLast?_trimEnd text)

/-- A text whose first character is not blank keeps it when its end is trimmed. -/
theorem trimStart_trimEnd_of_head {c : Char} (rest : List Char) (h : isBlank c = false) :
    trimStart (trimEnd (c :: rest)) = trimEnd (c :: rest) := by
  simp [trimEnd, h, trimStart]

/-- Trimming a second time changes nothing. -/
theorem trim_idem (text : List Char) : trim (trim text) = trim text := by
  unfold trim
  cases hs : trimStart text with
  | nil => rfl
  | cons c rest =>
    have hc : isBlank c = false := by
      have := List.head?_dropWhile_not isBlank text
      unfold trimStart at hs
      rw [hs] at this
      simpa using this
    rw [trimStart_trimEnd_of_head rest hc, trimEnd_trimEnd]

end LayeredProfiles.Text
