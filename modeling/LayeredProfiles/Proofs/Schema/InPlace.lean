import LayeredProfiles.Proofs.OrderedMap
import LayeredProfiles.Proofs.Schema.Enumeration

set_option autoImplicit false

/-!
# Setting an enumeration in place

An edit in place walks along a path and makes the objects that are missing before it knows whether the
rest of the path can be entered. Still it does all or nothing: only what is there already can block the
path, and once an object is made, all that follows is made as well. Where an edit succeeds, it changes
the value at its path and what encloses that value, and nothing else.

## Main definitions

* `Enumeration.Blocked` — a value in front of a segment is there and cannot be entered.
* `Enumeration.Placed` — what becomes of a document when a value is placed at a path.

## Main results

* `Enumeration.put_eq_error_iff` — putting a value somewhere fails where the path is blocked.
* `Enumeration.placed_of_put` — what putting a value somewhere changes.
* `Enumeration.edit_eq_put` — an edit in place puts the value there, or does nothing.
* `Enumeration.editAt_all_or_nothing` — what an edit in place does.
-/

namespace LayeredProfiles.Enumeration

/-- A value in front of a segment of a path is there and cannot be entered. -/
def Blocked (path : List String) (document : Json) (segment : String) : Prop :=
  ∃ front rest inner, path = front ++ segment :: rest ∧
    valueAt? front document = some inner ∧ inner.fields? = none

/-- What becomes of a document when a value is placed at a path. -/
structure Placed (value : Json) (path : List String) (before after : Json) : Prop where
  /-- The value is there. -/
  there : valueAt? path after = some value
  /-- What is neither on the way there nor below is as before. -/
  elsewhere : ∀ other : List String, ¬other <+: path → ¬path <+: other →
    valueAt? other after = valueAt? other before
  /-- The objects on the way keep their keys in their order, and get the next segment as the last key
  if they did not have it. Missing objects are made, with nothing else in them. -/
  order : ∀ front segment rest, path = front ++ segment :: rest →
    ∃ fields made, (valueAt? front before).getD (.object []) = .object fields ∧
      valueAt? front after = some (.object made) ∧
      OrderedMap.keys made =
        if segment ∈ OrderedMap.keys fields then OrderedMap.keys fields
        else OrderedMap.keys fields ++ [segment]

variable {value document after : Json} {changed : Bool} {fields : List (String × Json)}
  {segment : String} {path : List String}

/-! ## One segment at a time -/

/-- What has fields is an object. -/
lemma eq_object_of_fields? (h : document.fields? = some fields) : document = .object fields := by
  cases document with
  | object => exact congrArg _ (Option.some.inj h)
  | _ => cases h

/-- What is under a key of an object, or the object that is made there. -/
def inside (fields : List (String × Json)) (segment : String) : Json :=
  (OrderedMap.get? fields segment).getD (.object [])

/-- Putting a value at the end of a path writes, under the first segment, the value itself or what is
there with the value at the end of the rest. -/
lemma exists_of_put {rest : List String}
    (h : put value (segment :: rest) document = .ok (changed, after)) :
    ∃ fields inner, document = .object fields ∧
      after = .object (OrderedMap.insert fields segment inner) ∧
      (rest = [] ∧ inner = value ∨
        rest ≠ [] ∧ put value rest (inside fields segment) = .ok (changed, inner)) := by
  obtain ⟨fields, rfl⟩ := exists_fields_of_put h
  cases rest with
  | nil =>
    refine ⟨fields, value, rfl, ?_, .inl ⟨rfl, rfl⟩⟩
    unfold put at h
    split at h
    · next hthere =>
      cases h
      rw [OrderedMap.insert_of_get? hthere]
    · cases h
      rfl
  | cons next more =>
    obtain ⟨⟨found, inner⟩, hinner, hafter⟩ := Steps.bind_eq_ok_iff.1 h
    cases hafter
    exact ⟨fields, inner, rfl, rfl, .inr ⟨List.cons_ne_nil next more, hinner⟩⟩

/-- An object has a value at the end of a path if it has one under the first segment from which the
rest of the path leads to it. -/
lemma valueAt?_object (fields : List (String × Json)) (segment : String) (rest : List String) :
    valueAt? (segment :: rest) (.object fields) =
      (OrderedMap.get? fields segment).bind (valueAt? rest) := rfl

/-- What is written under a segment is what a path finds that starts with it. -/
lemma valueAt?_insert_self (fields : List (String × Json)) (segment : String) (inner : Json)
    (rest : List String) :
    valueAt? (segment :: rest) (.object (OrderedMap.insert fields segment inner)) =
      valueAt? rest inner := by
  rw [valueAt?_object, OrderedMap.get?_insert, if_pos rfl, Option.bind_some]

/-- What is written under a segment is not seen by a path that starts with another one. -/
lemma valueAt?_insert_of_ne {other : String} (h : segment ≠ other) (fields : List (String × Json))
    (inner : Json) (rest : List String) :
    valueAt? (other :: rest) (.object (OrderedMap.insert fields segment inner)) =
      valueAt? (other :: rest) (.object fields) := by
  rw [valueAt?_object, valueAt?_object, OrderedMap.get?_insert, if_neg h]

/-- There is nothing in an object that is made. -/
lemma valueAt?_empty {rest : List String} (h : rest ≠ []) :
    valueAt? rest (.object []) = none := by
  cases rest with
  | nil => exact absurd rfl h
  | cons => rfl

/-- Making a missing object does not make anything appear in it. -/
lemma valueAt?_inside {rest : List String} (h : rest ≠ []) :
    valueAt? rest (inside fields segment) = valueAt? (segment :: rest) (.object fields) := by
  rw [valueAt?_object, inside]
  cases OrderedMap.get? fields segment with
  | none => exact valueAt?_empty h
  | some inner => rfl

/-- A missing object is as good as an empty one. -/
lemma valueAt?_inside_getD (rest : List String) :
    (valueAt? rest (inside fields segment)).getD (.object []) =
      (valueAt? (segment :: rest) (.object fields)).getD (.object []) := by
  cases rest with
  | nil =>
    rw [valueAt?_object, inside]
    cases OrderedMap.get? fields segment <;> rfl
  | cons next more => rw [valueAt?_inside (List.cons_ne_nil next more)]

/-! ## What blocks a path -/

/-- A value that cannot be entered blocks every path at its first segment. -/
lemma blocked_cons_of_fields? {first : String} {rest : List String} (h : document.fields? = none) :
    Blocked (first :: rest) document segment ↔ segment = first := by
  constructor
  · rintro ⟨front, more, inner, hpath, hinner, -⟩
    cases front with
    | nil => exact (List.cons.inj hpath).1.symm
    | cons step front =>
      cases document with
      | object fields => cases h
      | _ => cases hinner
  · rintro rfl
    exact ⟨[], rest, document, rfl, rfl, h⟩

/-- A path into an object is blocked where what is under its first segment blocks the rest. -/
lemma blocked_cons_object {first : String} {rest : List String} :
    Blocked (first :: rest) (.object fields) segment ↔ Blocked rest (inside fields first) segment := by
  constructor
  · rintro ⟨front, more, inner, hpath, hinner, hblocks⟩
    cases front with
    | nil =>
      obtain rfl := Option.some.inj hinner
      cases hblocks
    | cons step front =>
      obtain ⟨rfl, rfl⟩ := List.cons.inj hpath
      refine ⟨front, more, inner, rfl, ?_, hblocks⟩
      obtain ⟨found, hfound, hinner⟩ := Option.bind_eq_some_iff.1 hinner
      rw [inside, hfound]
      exact hinner
  · rintro ⟨front, more, inner, rfl, hinner, hblocks⟩
    refine ⟨first :: front, more, inner, rfl, ?_, hblocks⟩
    cases front with
    | cons next front => rwa [valueAt?_inside (List.cons_ne_nil next front)] at hinner
    | nil =>
      -- what blocks is no object, so it was not made
      obtain rfl := Option.some.inj hinner
      rw [valueAt?_object, inside] at *
      cases hget : OrderedMap.get? fields first with
      | none =>
        rw [hget] at hblocks
        cases hblocks
      | some found => rfl

/-- Putting a value somewhere enters the object that it starts from. -/
lemma put_eq_error_cons_iff {first : String} {rest : List String} :
    put value (first :: rest) (.object fields) = .error segment ↔
      rest ≠ [] ∧ put value rest (inside fields first) = .error segment := by
  cases rest with
  | nil =>
    unfold put
    split <;> simp
  | cons next more =>
    refine Steps.bind_eq_error_iff.trans ⟨?_, fun h => .inl h.2⟩
    rintro (h | ⟨_, _, h⟩)
    · exact ⟨List.cons_ne_nil next more, h⟩
    · cases h

/-- **Putting a value somewhere fails exactly where the path is blocked.** -/
lemma put_eq_error_iff : put value path document = .error segment ↔ Blocked path document segment := by
  induction path generalizing document with
  | nil => simp [put, Blocked]
  | cons first rest ih =>
    cases hobject : document.fields? with
    | none =>
      rw [put_not_object hobject, blocked_cons_of_fields? hobject, Except.error.injEq, eq_comm]
    | some fields =>
      obtain rfl := eq_object_of_fields? hobject
      rw [put_eq_error_cons_iff, blocked_cons_object, ← ih]
      refine ⟨And.right, fun h => ⟨?_, h⟩⟩
      rintro rfl
      cases h

/-! ## What is changed -/

/-- A value that is written into an object is placed there. -/
lemma placed_insert (value : Json) (fields : List (String × Json)) (segment : String) :
    Placed value [segment] (.object fields) (.object (OrderedMap.insert fields segment value)) where
  there := valueAt?_insert_self fields segment value []
  elsewhere other hother hpath := by
    cases other with
    | nil => exact absurd (List.nil_prefix) hother
    | cons first rest =>
      refine valueAt?_insert_of_ne ?_ fields value rest
      rintro rfl
      exact hpath (List.prefix_append [segment] rest)
  order front next rest hfront := by
    cases front with
    | nil =>
      obtain ⟨rfl, -⟩ := List.cons.inj hfront
      exact ⟨fields, _, rfl, rfl, OrderedMap.keys_insert fields segment value⟩
    | cons first front => simp at hfront

/-- A value that is placed in what is under a key of an object is placed in the object. -/
lemma Placed.enter {rest : List String} {inner : Json}
    (h : Placed value rest (inside fields segment) inner) :
    Placed value (segment :: rest) (.object fields)
      (.object (OrderedMap.insert fields segment inner)) where
  there := by rw [valueAt?_insert_self, h.there]
  elsewhere other hother hpath := by
    cases other with
    | nil => exact absurd (List.nil_prefix) hother
    | cons first more =>
      by_cases hsame : segment = first
      · subst hsame
        rw [List.cons_prefix_cons] at hother hpath
        have hmore : more ≠ [] := by
          rintro rfl
          exact hother ⟨rfl, List.nil_prefix⟩
        rw [valueAt?_insert_self, ← valueAt?_inside hmore]
        exact h.elsewhere more (fun hp => hother ⟨rfl, hp⟩) fun hp => hpath ⟨rfl, hp⟩
      · exact valueAt?_insert_of_ne hsame fields inner more
  order front next more hfront := by
    cases front with
    | nil =>
      obtain ⟨rfl, -⟩ := List.cons.inj hfront
      exact ⟨fields, _, rfl, rfl, OrderedMap.keys_insert fields segment inner⟩
    | cons first front =>
      obtain ⟨rfl, hrest⟩ := List.cons.inj hfront
      obtain ⟨before, made, hbefore, hmade, hkeys⟩ := h.order front next more hrest
      refine ⟨before, made, ?_, ?_, hkeys⟩
      · rw [← valueAt?_inside_getD, hbefore]
      · rw [valueAt?_insert_self, hmade]

/-- **What putting a value somewhere changes**: the value at the path and what encloses it. -/
lemma placed_of_put (hpath : path ≠ []) (h : put value path document = .ok (changed, after)) :
    Placed value path document after := by
  induction path generalizing document after with
  | nil => exact absurd rfl hpath
  | cons segment rest ih =>
    obtain ⟨fields, inner, rfl, rfl, ⟨rfl, rfl⟩ | ⟨hrest, hinner⟩⟩ := exists_of_put h
    · exact placed_insert inner fields segment
    · exact (ih hrest hinner).enter

/-- A path is never blocked in an object that is made. -/
lemma not_blocked_empty : ¬Blocked path (.object []) segment := by
  rintro ⟨front, rest, inner, -, hinner, hblocks⟩
  cases front with
  | nil =>
    obtain rfl := Option.some.inj hinner
    cases hblocks
  | cons => cases hinner

/-! ## Editing in place -/

/-- An edit of an object goes on with what is under the first segment, or with the object that is made
there, and writes what becomes of it. -/
lemma edit_object_cons {rest : List String} (hrest : rest ≠ []) :
    edit value (segment :: rest) (.object fields) =
      ((edit value rest (inside fields segment)).1,
        .object (OrderedMap.insert fields segment (edit value rest (inside fields segment)).2)) := by
  cases rest with
  | nil => exact absurd rfl hrest
  | cons next more =>
    have hmade : (OrderedMap.get? (OrderedMap.insertIfNew fields segment (.object [])) segment).getD
        (.object []) = inside fields segment := by
      rw [OrderedMap.get?_insertIfNew, if_pos rfl, inside]
      cases OrderedMap.get? fields segment <;> rfl
    rw [edit, hmade]
    exact congrArg (fun made => ((edit value (next :: more) (inside fields segment)).1, Json.object made))
      (OrderedMap.insert_insertIfNew fields segment (.object []) _)

/-- Only objects can be entered, in place as well. -/
lemma edit_not_object {rest : List String} (h : document.fields? = none) :
    edit value (segment :: rest) document = (.error segment, document) := by
  cases rest <;> cases document <;> first | rfl | cases h

/-- **An edit in place puts the value there, or does nothing.**

**Proof sketch.** By induction on the path. The objects that are made do not show if the rest of the
path cannot be entered: what blocks it is in a value that was there before
(`put_eq_error_iff`, `not_blocked_empty`), so none was made. -/
lemma edit_eq_put (value : Json) (path : List String) (document : Json) :
    edit value path document =
      match put value path document with
      | .ok (changed, after) => (.ok changed, after)
      | .error segment => (.error segment, document) := by
  induction path generalizing document with
  | nil => rfl
  | cons first rest ih =>
    cases hobject : document.fields? with
    | none => rw [edit_not_object hobject, put_not_object hobject]
    | some fields =>
      obtain rfl := eq_object_of_fields? hobject
      cases rest with
      | nil =>
        unfold edit put
        split <;> rfl
      | cons next more =>
        have hput : put value (first :: next :: more) (.object fields) =
            (put value (next :: more) (inside fields first)).bind fun found =>
              .ok (found.1, .object (OrderedMap.insert fields first found.2)) := rfl
        rw [edit_object_cons (List.cons_ne_nil next more), hput, ih]
        cases hinner : put value (next :: more) (inside fields first) with
        | ok found => rfl
        | error segment =>
          have hblocked := put_eq_error_iff.1 hinner
          cases hget : OrderedMap.get? fields first with
          | none =>
            rw [inside, hget] at hblocked
            exact absurd hblocked not_blocked_empty
          | some found =>
            have hinside : inside fields first = found := by rw [inside, hget]; rfl
            rw [hinside]
            exact congrArg (fun made => (Except.error segment, Json.object made))
              (OrderedMap.insert_of_get? hget)

/-- An edit in place sets the names, or does nothing. -/
lemma editAt_eq_setAt (path : String) (names : List String) (document : Json) :
    editAt path names document =
      match setAt path names document with
      | .ok (changed, after) => (.ok changed, after)
      | .error segment => (.error segment, document) :=
  edit_eq_put _ _ _

/-- Putting a value somewhere changes nothing exactly if it is there already. -/
lemma put_eq_ok_false_iff (hpath : path ≠ []) :
    put value path document = .ok (false, after) ↔
      valueAt? path document = some value ∧ after = document := by
  constructor
  · intro h
    have hthere := (valueAt?_of_put hpath h).2.1 rfl
    rw [put_of_valueAt? hthere] at h
    cases h
    exact ⟨hthere, rfl⟩
  · rintro ⟨hthere, rfl⟩
    exact put_of_valueAt? hthere

/-- **An edit in place does all or nothing**, whatever the document, the dotted path and the names:

* it fails exactly where a value in front of a segment of the path, be it the document itself, is there
  and is no object, and reports that segment;
* where it fails, the document is as it was, although objects are made on the way;
* it reports that nothing changed exactly if the names are at the path already, and then the document
  is as it was;
* where it reports a change, the names are at the path, and every value at a path that is neither a
  part of the way there nor below is as it was. The objects on the way keep their keys in their order
  and get at most one more, as the last one; those that were missing have no other key. The same edit
  again reports that nothing changed, and changes nothing.

**Proof sketch.** The edit in place does what putting the names there does, or nothing
(`edit_eq_put`), since nothing can block the path below an object that is made. Putting them there is
followed segment by segment: each step writes under one key of one object (`exists_of_put`), which
keeps its other keys and what is under them (`Placed.enter`). -/
theorem editAt_all_or_nothing (path : String) (names : List String) (document : Json) :
    let outcome := (editAt path names document).1
    let after := (editAt path names document).2
    (∀ segment, outcome = .error segment ↔ Blocked (segments path) document segment) ∧
    (∀ segment, outcome = .error segment → after = document) ∧
    (outcome = .ok false ↔ valueAt? (segments path) document = some (.ofTexts names)) ∧
    (outcome = .ok false → after = document) ∧
    (outcome = .ok true →
      Placed (.ofTexts names) (segments path) document after ∧
        editAt path names after = (.ok false, after)) := by
  have hpath := segments_ne_nil path
  intro outcome after
  have hedit : (outcome, after) =
      match setAt path names document with
      | .ok (changed, updated) => (.ok changed, updated)
      | .error segment => (.error segment, document) := editAt_eq_setAt path names document
  have hblocked : ∀ segment, setAt path names document = .error segment ↔
      Blocked (segments path) document segment := fun _ => put_eq_error_iff
  have hthere : valueAt? (segments path) document = some (.ofTexts names) ↔
      setAt path names document = .ok (false, document) := by
    rw [setAt, put_eq_ok_false_iff hpath, and_iff_left rfl]
  rw [hthere]
  cases hset : setAt path names document with
  | error blocking =>
    rw [hset] at hedit hblocked
    obtain ⟨houtcome, hafter⟩ := Prod.mk.inj hedit
    rw [houtcome, hafter]
    refine ⟨fun segment => ?_, fun _ _ => rfl, by simp, by simp, by simp⟩
    rw [← hblocked, Except.error.injEq, Except.error.injEq]
  | ok found =>
    obtain ⟨changed, updated⟩ := found
    rw [hset] at hedit hblocked
    obtain ⟨houtcome, hafter⟩ := Prod.mk.inj hedit
    have hkept : changed = false → updated = document := by
      rintro rfl
      exact ((put_eq_ok_false_iff hpath).1 hset).2
    have hplaced := placed_of_put hpath hset
    have hagain : editAt path names updated = (.ok false, updated) := by
      rw [editAt, edit_eq_put, put_of_valueAt? hplaced.there]
    rw [houtcome, hafter]
    refine ⟨fun segment => ?_, by simp, ?_, ?_, fun _ => ⟨hplaced, hagain⟩⟩
    · rw [← hblocked]
      simp
    · simpa using hkept
    · simpa using hkept

/-- Missing objects are made behind the keys that are there, and a value that cannot be entered leaves
the document as it is. -/
example :
    editAt "a.b.enum" ["X"] (.object [("a", .object [("c", .null)]), ("d", .bool true)]) =
        (.ok true, .object [("a", .object [("c", .null), ("b", .object [("enum", .ofTexts ["X"])])]),
          ("d", .bool true)]) ∧
      editAt "a.d.enum" ["X"] (.object [("a", .object [("d", .bool true)])]) =
        (.error "enum", .object [("a", .object [("d", .bool true)])]) := by
  decide +kernel

end LayeredProfiles.Enumeration
