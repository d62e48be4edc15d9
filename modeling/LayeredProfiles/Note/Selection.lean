import LayeredProfiles.Note.Line
import LayeredProfiles.Text.Lowercase

set_option autoImplicit false

/-!
# Choosing a note

A line of a note file is meant for one vehicle if what stands before one of its colons names the
vehicle. Names are compared by their forms: the whole name and the part behind its first colon, in
lower case, with colons read as spaces and runs of blanks as one space. Where no line names the
vehicle, the first line is meant for every vehicle of the folder.

## Main definitions

* `Note.nameForm`, `Note.nameForms` — the forms by which names are compared.
* `Note.namesSame` — whether two names have a form in common.
* `Note.specific?`, `Note.generic?` — the note for one vehicle and the note for all.
* `Note.choose?` — the note that lines hold for a vehicle.
* `Note.parenthesized` — a note in parentheses.
-/

namespace LayeredProfiles.Note

/-- A note in parentheses. A text between two parentheses is left as it is. -/
def parenthesized (text : String) : String :=
  let inner := Text.trim text.toList
  if inner.head? = some '(' ∧ inner.getLast? = some ')' then String.ofList inner
  else String.ofList ('(' :: inner ++ [')'])

/-- The form of a name: in lower case, colons read as spaces, one space between words. -/
def nameForm (name : List Char) : List Char :=
  let lower := (Text.lowercase (String.ofList name)).toList
  Text.joinWith ' ' (Text.words (lower.map fun c => if c = ':' then ' ' else c))

/-- The forms of a name: of the whole and of what stands behind the first colon, blank ones left
out. -/
def nameForms (name : List Char) : List (List Char) :=
  let model := (Text.splitFirst? ':' name).map Prod.snd
  ((name :: model.toList).map nameForm).filter fun form => !form.isEmpty

/-- Whether two names have a form in common. -/
def namesSame (a b : List Char) : Bool :=
  (nameForms a).any (nameForms b).contains

/-- The note of a line for one vehicle: what stands behind the first colon that has text behind it
and the vehicle's name in front. -/
def specificIn? (carModel line : List Char) : Option (List Char) :=
  (Text.splitsAt ':' line).findSome? fun parts =>
    let note := Text.trim parts.2
    if !note.isEmpty && namesSame parts.1 carModel then some note else none

/-- The note of the first line that names the vehicle. -/
def specific? (lines : List (List Char)) (carModel : List Char) : Option (List Char) :=
  lines.findSome? (specificIn? carModel)

/-- The note for all vehicles: the first line, from behind its first colon if it has one. -/
def generic? : List (List Char) → Option (List Char)
  | [] => none
  | line :: _ =>
    let note := Text.trim (((Text.splitFirst? ':' line).map Prod.snd).getD line)
    if note.isEmpty then none else some note

/-- The note that lines hold for a vehicle, in parentheses. -/
def choose? (lines : List String) (carModel : String) : Option String :=
  let lines := lines.map String.toList
  ((specific? lines carModel.toList).or (generic? lines)).map fun note =>
    parenthesized (String.ofList note)

end LayeredProfiles.Note
