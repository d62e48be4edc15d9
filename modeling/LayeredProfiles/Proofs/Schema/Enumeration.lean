import LayeredProfiles.Proofs.Json.Rereading
import LayeredProfiles.Schema.Sync

set_option autoImplicit false

/-!
# The enumeration in a schema

Putting a list of names at a path makes it the value there, and changes nothing exactly if it is the
value there already. A list of names has no double precision numbers in it, so it is found again
when the document has been written and read back.

## Main definitions

* `Enumeration.valueAt?` — the value at the end of a path of segments.

## Main results

* `Enumeration.valueAt?_of_put` — what was put somewhere is there.
* `Enumeration.put_of_valueAt?` — putting what is there changes nothing.
* `Enumeration.setAt_of_parse` — names that were put into a document are there when it is read back.
* `Enumeration.ne_textOf_of_setAt` — a document that changes is not written as it was.
-/

namespace LayeredProfiles

namespace Enumeration

/-- The value at the end of a path of segments. -/
def valueAt? : List String → Json → Option Json
  | [], document => some document
  | segment :: rest, .object fields => (OrderedMap.get? fields segment).bind (valueAt? rest)
  | _ :: _, _ => none

/-! ## Putting a value somewhere -/

variable {value document after : Json} {changed : Bool}

/-- Only objects can be entered. -/
lemma exists_fields_of_put {segment : String} {rest : List String}
    (h : put value (segment :: rest) document = .ok (changed, after)) :
    ∃ fields, document = .object fields := by
  cases document with
  | object fields => exact ⟨fields, rfl⟩
  | _ =>
    rw [put_not_object rfl] at h
    cases h

/-- Where the value is already, putting it there changes nothing. -/
lemma put_of_valueAt? {path : List String} (h : valueAt? path document = some value) :
    put value path document = .ok (false, document) := by
  induction path generalizing document with
  | nil => rfl
  | cons segment rest ih =>
    cases document with
    | object fields =>
      obtain ⟨inner, hinner, hrest⟩ := Option.bind_eq_some_iff.1 h
      cases rest with
      | nil =>
        obtain rfl := Option.some.inj hrest
        exact if_pos hinner
      | cons next more =>
        rw [put, hinner, Option.getD_some, ih hrest]
        dsimp only [bind, Except.bind]
        rw [OrderedMap.insert_of_get? hinner]
    | _ => cases h

/-- An object stays legible when a legible value is put into it. -/
lemma legible_insert {fields : List (String × Json)} {key : String} {inner : Json}
    (hinner : inner.Legible) (hfields : (Json.object fields).Legible) :
    (Json.object (OrderedMap.insert fields key inner)).Legible := by
  refine ⟨OrderedMap.uniqueKeys_insert hfields.1 _ _, Json.legibleFields_iff.2 ?_⟩
  intro field hfield
  rcases OrderedMap.mem_of_mem_insert hfield with hold | rfl
  · exact Json.legibleFields_iff.1 hfields.2 field hold
  · exact hinner

/-- The values of a legible object are legible, and so is the empty object. -/
lemma legible_getD {fields : List (String × Json)} {key : String}
    (hfields : (Json.object fields).Legible) :
    ((OrderedMap.get? fields key).getD (.object [])).Legible := by
  cases hget : OrderedMap.get? fields key with
  | none => exact ⟨List.nodup_nil, trivial⟩
  | some inner =>
    exact Json.legibleFields_iff.1 hfields.2 _
      ((OrderedMap.get?_eq_some_iff hfields.1 _ _).1 hget)

/-- What was put somewhere is there, nothing was changed only if it was there before, and a legible
document stays one. -/
lemma valueAt?_of_put {path : List String} (hpath : path ≠ [])
    (h : put value path document = .ok (changed, after)) :
    valueAt? path after = some value ∧ (changed = false → valueAt? path document = some value) ∧
      (value.Legible → document.Legible → after.Legible) := by
  induction path generalizing document changed after with
  | nil => exact absurd rfl hpath
  | cons segment rest ih =>
    obtain ⟨fields, rfl⟩ := exists_fields_of_put h
    cases rest with
    | nil =>
      unfold put at h
      split at h
      · next hthere =>
        cases h
        have hvalue : valueAt? [segment] (.object fields) = some value :=
          Option.bind_eq_some_iff.2 ⟨value, hthere, rfl⟩
        exact ⟨hvalue, fun _ => hvalue, fun _ hdocument => hdocument⟩
      · cases h
        refine ⟨?_, fun hfalse => (Bool.noConfusion hfalse), legible_insert⟩
        simp [valueAt?, OrderedMap.get?_insert]
    | cons next more =>
      obtain ⟨⟨found, inner⟩, hinner, hafter⟩ := Steps.bind_eq_ok_iff.1 h
      cases hafter
      obtain ⟨hthere, hsame, hkeeps⟩ := ih (List.cons_ne_nil next more) hinner
      refine ⟨?_, fun hfalse => ?_, fun hvalue hdocument =>
        legible_insert (hkeeps hvalue (legible_getD hdocument)) hdocument⟩
      · rw [valueAt?, OrderedMap.get?_insert, if_pos rfl]
        exact hthere
      · have hbefore := hsame hfalse
        rw [valueAt?]
        cases hget : OrderedMap.get? fields segment with
        | none =>
          rw [hget] at hbefore
          cases hbefore
        | some before =>
          rw [hget] at hbefore
          exact hbefore

/-! ## Outlines -/

/-- A field of an outline is the outline of the field. -/
lemma get?_outlineFields (fields : List (String × Json)) (key : String) :
    OrderedMap.get? (Json.outlineFields fields) key =
      (OrderedMap.get? fields key).map Json.outline := by
  induction fields with
  | nil => rfl
  | cons field rest ih =>
    obtain ⟨k, v⟩ := field
    by_cases hk : k = key <;> simp [Json.outlineFields, OrderedMap.get?, hk, ih]

/-- The value in an outline is the outline of the value. -/
lemma valueAt?_outline (path : List String) (document : Json) :
    valueAt? path document.outline = (valueAt? path document).map Json.outline := by
  induction path generalizing document with
  | nil => rfl
  | cons segment rest ih =>
    cases document with
    | object fields =>
      simp only [Json.outline, valueAt?, get?_outlineFields]
      cases OrderedMap.get? fields segment with
      | none => rfl
      | some inner => exact ih inner
    | _ => rfl

/-- Only texts have the outlines of texts. -/
lemma outlineItems_eq_map_text_iff {items : List Json} {names : List String} :
    Json.outlineItems items = names.map .text ↔ items = names.map .text := by
  have htext : ∀ (item : Json) (name : String), item.outline = .text name ↔ item = .text name := by
    intro item name
    cases item <;> simp [Json.outline]
  induction names generalizing items with
  | nil => cases items <;> simp [Json.outlineItems]
  | cons name more ih => cases items <;> simp [Json.outlineItems, htext, ih]

/-- Only a list of names has the outline of a list of names. -/
lemma outline_eq_ofTexts_iff {names : List String} :
    document.outline = .ofTexts names ↔ document = .ofTexts names := by
  unfold Json.ofTexts
  cases document with
  | array items => simp only [Json.outline, Json.array.injEq, outlineItems_eq_map_text_iff]
  | _ => simp [Json.outline]

/-! ## Names in a document that is written and read -/

variable {path : String} {names : List String}

/-- A path has at least one segment. -/
lemma segments_ne_nil (path : String) : segments path ≠ [] := by
  simp [segments, Text.pieces, Text.splitAt_ne_nil]

/-- A list of names is legible. -/
lemma legible_ofTexts (names : List String) : (Json.ofTexts names).Legible := by
  change Json.LegibleItems (names.map .text)
  induction names with
  | nil => trivial
  | cons name rest ih => exact ⟨trivial, ih⟩

/-- Names that were put into a legible document are there when it has been written and read back, so
putting them there again changes nothing. -/
lemma setAt_of_parse (hlegible : document.Legible)
    (h : setAt path names document = .ok (changed, after)) {found : Json}
    (hparse : Json.parse (SchemaFile.textOf after) = .ok found) :
    setAt path names found = .ok (false, found) := by
  obtain ⟨hthere, -, hkeeps⟩ := valueAt?_of_put (segments_ne_nil path) h
  have hsame := Json.outline_of_parse (hkeeps (legible_ofTexts names) hlegible) hparse
  refine put_of_valueAt? ?_
  -- both documents have the same outline at the path, and that of names determines them
  have hfound := valueAt?_outline (segments path) found
  rw [hsame, valueAt?_outline, hthere, Option.map_some,
    outline_eq_ofTexts_iff.2 rfl] at hfound
  obtain ⟨inner, hinner, houtline⟩ := Option.map_eq_some_iff.1 hfound.symm
  rw [hinner, outline_eq_ofTexts_iff.1 houtline]

/-- A document that changes is not written as it was. -/
lemma ne_textOf_of_setAt {text : String} (hparse : Json.parse text = .ok document)
    (h : setAt path names document = .ok (true, after)) : text ≠ SchemaFile.textOf after := by
  rintro rfl
  have hagain := setAt_of_parse (Json.legible_of_parse hparse) h hparse
  rw [h] at hagain
  cases hagain

end Enumeration

namespace SchemaFile

variable {file : SchemaFile} {tree : FileTree} {library : ParameterLibrary} {document : Json}

/-- The document of a schema is there if the file can be read and is one. -/
lemma document_eq_ok_iff : file.document tree = .ok document ↔
    ∃ text, tree.read file.path = .ok text ∧ Json.parse text = .ok document := by
  simp only [SchemaFile.document, Steps.bind_eq_ok_iff, Steps.mapError_eq_ok_iff]

/-- The names of a library are put into the document that is there. -/
lemma withNames_eq_ok_iff {updated : Bool} :
    file.withNames tree library = .ok (updated, document) ↔
      ∃ text found, tree.read file.path = .ok text ∧ Json.parse text = .ok found ∧
        Enumeration.setAt file.enumPath library.names found = .ok (updated, document) := by
  simp only [withNames, Steps.bind_eq_ok_iff, Steps.mapError_eq_ok_iff, document_eq_ok_iff]
  constructor
  · rintro ⟨found, ⟨text, hread, hparse⟩, hset⟩
    exact ⟨text, found, hread, hparse, hset⟩
  · rintro ⟨text, found, hread, hparse, hset⟩
    exact ⟨found, ⟨text, hread, hparse⟩, hset⟩

end SchemaFile

end LayeredProfiles
