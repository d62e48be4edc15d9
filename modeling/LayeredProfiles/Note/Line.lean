import LayeredProfiles.Text.Blank

set_option autoImplicit false

/-!
# Lines of a note file

A note file is a text in which headings and blank lines carry no note and a line may be written as
an item of a list. What is left, trimmed and without its bullet, is the text of a note.

## Main definitions

* `Note.withoutBullet` — a line without the bullet in front.
* `Note.lineText?` — the text that a line carries, if it carries one.
* `Note.lines` — the texts that the lines of a file carry.

## Main results

* `Note.lineText?_ne_nil` — the text that a line carries is not empty.
-/

namespace LayeredProfiles.Note

/-- A trimmed line without the bullet in front. A bullet is a dash or a star and a space. -/
def withoutBullet : List Char → List Char
  | '-' :: ' ' :: rest => rest
  | '*' :: ' ' :: rest => rest
  | line => line

/-- Whether a trimmed line can carry a note: it is neither blank nor a heading. -/
def qualifies : List Char → Bool
  | [] => false
  | c :: _ => c != '#'

/-- The text that a line carries, if it carries one. -/
def lineText? (line : List Char) : Option (List Char) :=
  let line := Text.trim line
  if qualifies line then
    let text := Text.trim (withoutBullet line)
    if text.isEmpty then none else some text
  else none

/-- The texts that the lines of a note file carry, from top to bottom. -/
def lines (file : String) : List String :=
  ((Text.splitAt '\n' file.toList).filterMap lineText?).map String.ofList

/-- The text that a line carries is not empty. -/
theorem lineText?_ne_nil {line text : List Char} (h : lineText? line = some text) :
    text ≠ [] := by
  unfold lineText? at h
  simp only at h
  split at h
  · split at h
    · cases h
    · next hne =>
      cases h
      simpa using hne
  · cases h

end LayeredProfiles.Note
