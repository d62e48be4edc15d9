import LayeredProfiles.Json.Basic
import LayeredProfiles.Text.Split

set_option autoImplicit false

/-!
# Setting an enumeration inside a document

A dotted path leads from a document through its objects to the place of a list of names. Objects
that are missing on the way are made; a value on the way that is not an object blocks it.

## Main definitions

* `Enumeration.segments` — the segments of a dotted path.
* `Enumeration.setAt` — the document with a list of names at a path, and whether it changed.
* `Enumeration.editAt` — the same as an edit of the document in place.

## Main results

* `Enumeration.put_not_object` — only objects can be entered.

## Implementation notes

An edit in place makes the missing objects while it walks along the path, before it knows whether the
rest of the path can be entered, and they stay where they are made. So it always yields a document,
also together with the segment that blocks it.
-/

namespace LayeredProfiles.Enumeration

/-- The segments of a dotted path. -/
def segments (path : String) : List String :=
  Text.pieces '.' path

/-- Puts a value at the end of a path of segments. Yields whether anything changed and the
document, or the segment that cannot be entered. -/
def put (value : Json) : List String → Json → Except String (Bool × Json)
  | [], document => .ok (false, document)
  | [last], .object fields =>
    if OrderedMap.get? fields last = some value then .ok (false, .object fields)
    else .ok (true, .object (OrderedMap.insert fields last value))
  | segment :: next :: rest, .object fields => do
    let inner := (OrderedMap.get? fields segment).getD (.object [])
    let (changed, inner) ← put value (next :: rest) inner
    .ok (changed, .object (OrderedMap.insert fields segment inner))
  | segment :: _, _ => .error segment

/-- Puts a list of names at a dotted path. -/
def setAt (path : String) (names : List String) (document : Json) : Except String (Bool × Json) :=
  put (.ofTexts names) (segments path) document

/-- Puts a value at the end of a path of segments, in place. Yields whether anything changed, or the
segment that cannot be entered, and what the document has become. -/
def edit (value : Json) : List String → Json → Except String Bool × Json
  | [], document => (.ok false, document)
  | [last], .object fields =>
    if OrderedMap.get? fields last = some value then (.ok false, .object fields)
    else (.ok true, .object (OrderedMap.insert fields last value))
  | segment :: next :: rest, .object fields =>
    let made := OrderedMap.insertIfNew fields segment (.object [])
    let (outcome, inner) := edit value (next :: rest) ((OrderedMap.get? made segment).getD (.object []))
    (outcome, .object (OrderedMap.insert made segment inner))
  | segment :: _, document => (.error segment, document)

/-- Puts a list of names at a dotted path, in place. -/
def editAt (path : String) (names : List String) (document : Json) : Except String Bool × Json :=
  edit (.ofTexts names) (segments path) document

/-- Only objects can be entered. -/
theorem put_not_object {value document : Json} (h : document.fields? = none) (segment : String)
    (rest : List String) : put value (segment :: rest) document = .error segment := by
  cases rest <;> cases document <;> first | rfl | cases h

end LayeredProfiles.Enumeration
