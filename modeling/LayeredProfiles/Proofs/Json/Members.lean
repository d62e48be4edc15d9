import LayeredProfiles.Proofs.Json.Legible
import LayeredProfiles.Proofs.OrderedMap

set_option autoImplicit false

/-!
# The members of an object

A text can write a key of an object more than once. The object that is read has every key once: at the
place where it is written first, with the value that is written last. What the text says member by
member is found by the same steps, only that nothing is gathered.

## Main definitions

* `Json.readMembers` — the members of an object, as they are written.
* `Json.HoldsMembers` — the members of the object that a text holds.

## Main results

* `Json.readWith_eq_object` — an object starts with its bracket.
* `Json.parse_eq_object_iff` — which object is read from the members of a text.
-/

namespace LayeredProfiles.Json

/-- Reads the members of an object after its opening bracket, as they are written. -/
def readMembers (value : Reader) (input : List Char) :
    Except Fault (List (String × Json) × List Char) :=
  match skipSpace input with
  | [] => fail .endInObject []
  | '}' :: rest => .ok ([], rest)
  | '"' :: rest => do
    let (member, rest) ← readField value rest
    let (members, rest) ← readFields value (rest.length + 1) rest
    .ok (member :: members, rest)
  | rest => failAtNext .keyNotString rest

/-- A text holds an object, and these are the members of it, as they are written. -/
def HoldsMembers (text : String) (members : List (String × Json)) : Prop :=
  ∃ input rest, skipSpace text.toList = '{' :: input ∧
    readMembers (readValue (maxDepth - 1)) input = .ok (members, rest) ∧ skipSpace rest = []

/-- The object that is read is the one that its members write. -/
lemma readObject_eq_map (value : Reader) (input : List Char) :
    readObject value input = (readMembers value input).map fun found =>
      (.object (OrderedMap.ofList found.1), found.2) := by
  have hquoted : ∀ rest, (do
      let (field, rest) ← readField value rest
      let (fields, rest) ← readFields value (rest.length + 1) rest
      .ok (.object (OrderedMap.ofList (field :: fields)), rest)) =
        Except.map (fun found : List (String × Json) × List Char =>
          (Json.object (OrderedMap.ofList found.1), found.2)) (do
            let (member, rest) ← readField value rest
            let (members, rest) ← readFields value (rest.length + 1) rest
            .ok (member :: members, rest)) := by
    intro rest
    cases readField value rest with
    | error fault => rfl
    | ok found =>
      dsimp only [bind, Except.bind]
      cases readFields value (found.2.length + 1) found.2 <;> rfl
  unfold readObject readMembers
  cases skipSpace input with
  | nil => rfl
  | cons c rest =>
    by_cases hclose : c = '}'
    · subst hclose
      rfl
    by_cases hquote : c = '"'
    · subst hquote
      exact hquoted rest
    simp [hclose, hquote, failAtNext, Except.map]

/-- A value starts with an opening bracket if and only if it is an object, unless reading fails. -/
lemma readWith_eq_object_iff {array object : Reader}
    (harray : ∀ input, Yields (fun document => document.fields? = none) (array input))
    {input rest : List Char} {fields : List (String × Json)} :
    readWith array object input = .ok (.object fields, rest) ↔
      ∃ inner, skipSpace input = '{' :: inner ∧ object ('{' :: inner) = .ok (.object fields, rest) := by
  constructor
  · intro h
    have hother : ∀ {outcome : Except Fault (Json × List Char)},
        Yields (fun document => document.fields? = none) outcome →
          outcome ≠ .ok (.object fields, rest) := fun hyields hok => nomatch hyields _ _ hok
    unfold readWith at h
    split at h
    · cases h
    · next c inner hskip =>
      split_ifs at h with hnull htrue hfalse hminus hdigit hquote hlist hopen
      · exact absurd h (hother (yields_readWord (by rfl) _ _))
      · exact absurd h (hother (yields_readWord (by rfl) _ _))
      · exact absurd h (hother (yields_readWord (by rfl) _ _))
      · exact absurd h (hother (yields_readNumber (fun _ => rfl) (fun _ _ => rfl) _ _))
      · exact absurd h (hother (yields_readNumber (fun _ => rfl) (fun _ _ => rfl) _ _))
      · obtain ⟨_, -, htext⟩ := Steps.bind_eq_ok_iff.1 h
        cases htext
      · exact absurd h (hother (harray _))
      · exact ⟨inner, hopen ▸ hskip, hopen ▸ h⟩
      · cases h
  · rintro ⟨inner, hskip, hobject⟩
    unfold readWith
    rw [hskip]
    exact hobject

/-- A list is no object. -/
lemma yields_readArray (value : Reader) (input : List Char) :
    Yields (fun document => document.fields? = none) (readArray value input) := by
  intro document rest h
  unfold readArray at h
  split at h
  · cases h
  · cases h
    rfl
  · obtain ⟨_, -, h⟩ := Steps.bind_eq_ok_iff.1 h
    obtain ⟨_, -, h⟩ := Steps.bind_eq_ok_iff.1 h
    cases h
    rfl

/-- **Which object is read from a text**: the one that its members write, one after the other. -/
lemma parse_eq_object_iff {text : String} {fields : List (String × Json)} :
    parse text = .ok (.object fields) ↔
      ∃ members, HoldsMembers text members ∧ fields = OrderedMap.ofList members := by
  have hread : ∀ rest, readValue maxDepth text.toList = .ok (.object fields, rest) ↔
      ∃ input members, skipSpace text.toList = '{' :: input ∧
        readMembers (readValue (maxDepth - 1)) input = .ok (members, rest) ∧
          fields = OrderedMap.ofList members := by
    intro rest
    have hdepth : maxDepth = maxDepth - 1 + 1 := rfl
    rw [hdepth, readValue, readWith_eq_object_iff fun input => yields_readArray _ _]
    refine exists_congr fun input => ?_
    rw [List.drop_one, List.tail_cons, readObject_eq_map, Steps.map_eq_ok_iff]
    constructor
    · rintro ⟨hskip, ⟨members, after⟩, hmembers, heq⟩
      cases heq
      exact ⟨members, hskip, hmembers, rfl⟩
    · rintro ⟨members, hskip, hmembers, rfl⟩
      exact ⟨hskip, (members, rest), hmembers, rfl⟩
  constructor
  · intro h
    obtain ⟨⟨document, rest⟩, hvalue, hend⟩ :=
      Steps.bind_eq_ok_iff.1 (Steps.mapError_eq_ok_iff.1 h)
    dsimp only at hend
    split at hend
    · next hskip =>
      cases hend
      obtain ⟨input, members, hstart, hmembers, rfl⟩ := (hread rest).1 hvalue
      exact ⟨members, ⟨input, rest, hstart, hmembers, hskip⟩, rfl⟩
    · cases hend
  · rintro ⟨members, ⟨input, rest, hstart, hmembers, hskip⟩, rfl⟩
    refine Steps.mapError_eq_ok_iff.2 (Steps.bind_eq_ok_iff.2
      ⟨(_, rest), (hread rest).2 ⟨input, members, hstart, hmembers, rfl⟩, ?_⟩)
    dsimp only
    rw [hskip]

end LayeredProfiles.Json
