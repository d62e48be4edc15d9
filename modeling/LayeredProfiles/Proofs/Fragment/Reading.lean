import LayeredProfiles.Fragment.Reading
import LayeredProfiles.Proofs.Json.Legible
import LayeredProfiles.Proofs.OrderedMap

set_option autoImplicit false

/-!
# What a fragment keeps of its document

Every key of a document is either one that a fragment knows or one that it keeps as it is. The same
holds of the requests, in both forms of the table: what a request keeps of its fields never has a
key that requests know. Whether a fragment can be read is decided field by field, and what is read
does not depend on the order of the fields that it knows.

## Main definitions

* `Fragment.ownKeys`, `PidEntry.ownKeys` — the keys that fragments and requests know.
* `PidEntry.IsBody`, `PidEntry.IsTable`, `Fragment.Suits` — what requests, tables and fragments can
  be read from.
* `PidEntry.WrittenAs` — a request stems from the given fields.
* `PidEntry.Keeps` — what a request may keep of them.
* `Fragment.place` — a field of the document in its place.

## Main results

* `PidEntry.ofItem?_eq_some_iff`, `PidEntry.ofField?_eq_some_iff` — which request is read.
* `PidEntry.exists_table?_iff` — when a table is read.
* `PidEntry.writtenAs_of_ofItem?`, `PidEntry.writtenAs_of_ofField?` — what a request is written as.
* `PidEntry.keeps_of_table?` — what the requests of a tidy document keep.
* `Fragment.ofJson_object_eq_ok_iff` — when a fragment is read, and which one.
* `Fragment.part_foldl_place`, `Fragment.part_ofJson` — each part of a fragment comes from one
  field.
* `Fragment.extra_ofJson` — a fragment keeps the unknown keys, in their order.
* `Fragment.pids_ofJson` — its table is the one of its document.
* `Fragment.ofJson_insert_pids` — a document with another table.
-/

namespace LayeredProfiles

/-! ## Requests -/

namespace PidEntry

/-- The keys of a request that it knows. -/
def ownKeys : List String := ["pid", "pid_init", "parameters"]

/-- A request stems from the given fields: its parameters are among those that stand there, and what
it keeps beyond them stands there under keys that it does not know. -/
structure WrittenAs (fields : OrderedMap String Json) (entry : PidEntry) : Prop where
  /-- The parameters are among those that stand there. -/
  parameters : ∃ written, OrderedMap.get? fields "parameters" = some (.object written) ∧
    ∀ name ∈ OrderedMap.keys entry.parameters, name ∈ OrderedMap.keys written
  /-- All else stands there, too, under keys that the request does not know. -/
  extra : OrderedMap.UniqueKeys fields →
    ∀ field ∈ entry.extra, field ∈ fields ∧ field.1 ∉ ownKeys

variable {fields : OrderedMap String Json} {code : String} {setup : Option String}

/-- A field that may be missing holds null or a string if it is there. -/
def MaybeText (field : Option Json) : Prop :=
  ∀ value, field = some value → value = .null ∨ ∃ text, value = .text text

/-- A string is read from a field that may be missing exactly if the field holds nothing else. -/
lemma optionalText?_eq_some_iff {field : Option Json} :
    optionalText? field = some setup ↔ MaybeText field ∧ field.bind Json.text? = setup := by
  cases field with
  | none => simp [optionalText?, MaybeText]
  | some value => cases value <;> simp [optionalText?, MaybeText, Json.text?]

/-- The object of the given expressions. -/
def expressionsToJson (expressions : OrderedMap String String) : Json :=
  .object (expressions.map fun p => (p.1, .text p.2))

/-- The object of expressions has their keys. -/
lemma uniqueKeys_expressions_iff {expressions : OrderedMap String String} :
    OrderedMap.UniqueKeys (expressions.map fun p => (p.1, Json.text p.2)) ↔
      OrderedMap.UniqueKeys expressions := by
  unfold OrderedMap.UniqueKeys OrderedMap.keys
  rw [List.map_map]
  rfl

/-- Expressions are read from the object that holds them. -/
lemma expressions?_eq_some_iff {value : Json} {expressions : OrderedMap String String} :
    expressions? value = some expressions ↔ value = expressionsToJson expressions := by
  have hfield : ∀ (field : String × Json) (p : String × String),
      (do pure (field.1, ← field.2.text?)) = some p ↔ field = (p.1, .text p.2) := by
    rintro ⟨name, inner⟩ ⟨key, text⟩
    cases inner <;> simp [Json.text?]
  unfold expressions? expressionsToJson
  rw [Option.bind_eq_bind, Option.bind_eq_some_iff]
  simp only [Json.fields?_eq_some_iff, Steps.mapM_eq_some_iff, hfield]
  constructor
  · rintro ⟨written, rfl, hall⟩
    have hmap : List.Forall₂ (· = ·) written (expressions.map fun p => (p.1, Json.text p.2)) :=
      List.forall₂_map_right_iff.2 hall
    rw [List.forall₂_eq_eq_eq] at hmap
    rw [hmap]
  · rintro rfl
    exact ⟨_, rfl, List.forall₂_map_left_iff.2 (List.forall₂_same.2 fun _ _ => rfl)⟩

/-- What an item of a list has to hold for a request to be read from it, and the request. -/
lemma ofItem?_eq_some_iff {item : Json} {entry : PidEntry} :
    ofItem? item = some entry ↔ ∃ fields code expressions, item = .object fields ∧
      OrderedMap.get? fields "pid" = some (.text code) ∧
      MaybeText (OrderedMap.get? fields "pid_init") ∧
      OrderedMap.get? fields "parameters" = some (expressionsToJson expressions) ∧
      entry = .of code ((OrderedMap.get? fields "pid_init").bind Json.text?) expressions
        (fieldsBeyond ownKeys fields) := by
  unfold ofItem?
  simp only [Option.bind_eq_bind, Option.bind_eq_some_iff, Json.fields?_eq_some_iff,
    Json.text?_eq_some_iff, optionalText?_eq_some_iff, expressions?_eq_some_iff]
  constructor
  · rintro ⟨fields, rfl, _, hcode, code, rfl, _, ⟨hsetup, rfl⟩, _, hwritten, expressions, rfl, h⟩
    exact ⟨fields, code, expressions, rfl, hcode, hsetup, hwritten, (Option.some.inj h).symm⟩
  · rintro ⟨fields, code, expressions, rfl, hcode, hsetup, hwritten, rfl⟩
    exact ⟨fields, rfl, _, hcode, code, rfl, _, ⟨hsetup, rfl⟩, _, hwritten, expressions, rfl, rfl⟩

/-- What a field of a mapping has to hold for a request to be read from it, and the request. -/
lemma ofField?_eq_some_iff {field : String × Json} {entry : PidEntry} :
    ofField? field = some entry ↔ ∃ fields expressions, field.2 = .object fields ∧
      MaybeText (OrderedMap.get? fields "pid_init") ∧
      OrderedMap.get? fields "parameters" = some (expressionsToJson expressions) ∧
      entry = .of field.1 ((OrderedMap.get? fields "pid_init").bind Json.text?) expressions
        (OrderedMap.swapErase (fieldsBeyond ["pid_init", "parameters"] fields) "pid") := by
  unfold ofField?
  simp only [Option.bind_eq_bind, Option.bind_eq_some_iff, Json.fields?_eq_some_iff,
    optionalText?_eq_some_iff, expressions?_eq_some_iff]
  constructor
  · rintro ⟨fields, hfields, _, ⟨hsetup, rfl⟩, _, hwritten, expressions, rfl, h⟩
    exact ⟨fields, expressions, hfields, hsetup, hwritten, (Option.some.inj h).symm⟩
  · rintro ⟨fields, expressions, hfields, hsetup, hwritten, rfl⟩
    exact ⟨fields, hfields, _, ⟨hsetup, rfl⟩, _, hwritten, expressions, rfl, rfl⟩

/-- A request with the expressions and some of the other fields that stand among the given ones. -/
lemma writtenAs_of {expressions : OrderedMap String String} {extra : OrderedMap String Json}
    (hwritten : OrderedMap.get? fields "parameters" = some (expressionsToJson expressions))
    (hextra : OrderedMap.UniqueKeys fields → ∀ field ∈ extra, field ∈ fields ∧ field.1 ∉ ownKeys) :
    WrittenAs fields (.of code setup expressions extra) where
  parameters := by
    refine ⟨_, hwritten, fun name hname => ?_⟩
    obtain ⟨expression, hmem⟩ := OrderedMap.mem_keys_iff.1 hname
    rcases OrderedMap.mem_of_mem_extend hmem with hnil | hmem
    · cases hnil
    · exact OrderedMap.mem_keys_iff.2 ⟨_, List.mem_map.2 ⟨_, hmem, rfl⟩⟩
  extra hunique field hfield := by
    rcases OrderedMap.mem_of_mem_extend hfield with hnil | hmem
    · cases hnil
    · exact hextra hunique field hmem

/-- The other fields of a document are those whose keys are not known. -/
lemma mem_fieldsBeyond_iff {known : List String} {field : String × Json} :
    field ∈ fieldsBeyond known fields ↔ field ∈ fields ∧ field.1 ∉ known := by
  simp [fieldsBeyond]

/-- A request in a list is written as the fields of its item. -/
lemma writtenAs_of_ofItem? {item : Json} {entry : PidEntry} (h : ofItem? item = some entry) :
    ∃ fields, item = .object fields ∧ WrittenAs fields entry := by
  obtain ⟨fields, code, expressions, rfl, -, -, hwritten, rfl⟩ := ofItem?_eq_some_iff.1 h
  exact ⟨fields, rfl, writtenAs_of hwritten fun _ _ => mem_fieldsBeyond_iff.1⟩

/-- Without a code inside, the fields that a mapping keeps are those that a request does not know. -/
lemma erase_fieldsBeyond (fields : OrderedMap String Json) :
    OrderedMap.erase (fieldsBeyond ["pid_init", "parameters"] fields) "pid" =
      fieldsBeyond ownKeys fields := by
  unfold OrderedMap.erase fieldsBeyond ownKeys
  rw [List.filter_filter]
  refine List.filter_congr fun field _ => ?_
  simp

/-- A code inside is dropped by filling the gap, which leaves the fields that a request does not
know. -/
lemma swapErase_fieldsBeyond_perm (hunique : OrderedMap.UniqueKeys fields) :
    (OrderedMap.swapErase (fieldsBeyond ["pid_init", "parameters"] fields) "pid").Perm
      (fieldsBeyond ownKeys fields) := by
  have hperm := OrderedMap.swapErase_perm (OrderedMap.uniqueKeys_filter hunique
    fun field => !(["pid_init", "parameters"].contains field.1)) "pid"
  rwa [← erase_fieldsBeyond fields]

/-- A request in a mapping is written as the fields under its code. A code among them is dropped. -/
lemma writtenAs_of_ofField? {field : String × Json} {entry : PidEntry}
    (h : ofField? field = some entry) :
    ∃ fields, field.2 = .object fields ∧ WrittenAs fields entry := by
  obtain ⟨fields, expressions, hfields, -, hwritten, rfl⟩ := ofField?_eq_some_iff.1 h
  refine ⟨fields, hfields, writtenAs_of hwritten fun hunique other hother => ?_⟩
  exact mem_fieldsBeyond_iff.1 ((swapErase_fieldsBeyond_perm hunique).mem_iff.1 hother)

/-! ### Tables -/

/-- Fields from which a request can be read, but for its code: the setup is null or a string if
there is one, and the parameters are an object of strings. -/
structure IsBody (fields : OrderedMap String Json) : Prop where
  /-- The setup may be missing. -/
  setup : MaybeText (OrderedMap.get? fields "pid_init")
  /-- The parameters must be there. -/
  parameters : ∃ written, OrderedMap.get? fields "parameters" = some (.object written) ∧
    ∀ parameter ∈ written, ∃ expression, parameter.2 = .text expression

/-- A value from which a table can be read: a list of bodies with codes, or an object of bodies. -/
def IsTable (value : Json) : Prop :=
  (∃ items, value = .array items ∧ ∀ item ∈ items, ∃ fields, item = .object fields ∧
    IsBody fields ∧ ∃ code, OrderedMap.get? fields "pid" = some (.text code)) ∨
  ∃ entries, value = .object entries ∧ ∀ entry ∈ entries, ∃ fields, entry.2 = .object fields ∧
    IsBody fields

/-- Fields are a body exactly if their setup and their parameters can be read. -/
lemma isBody_iff : IsBody fields ↔ MaybeText (OrderedMap.get? fields "pid_init") ∧
    ∃ expressions, OrderedMap.get? fields "parameters" = some (expressionsToJson expressions) := by
  constructor
  · rintro ⟨hsetup, written, hwritten, htexts⟩
    have hsame : ∀ p ∈ written, (p.1, Json.text (p.2.text?.getD "")) = p := by
      rintro ⟨name, inner⟩ hp
      obtain ⟨expression, rfl⟩ := htexts _ hp
      rfl
    refine ⟨hsetup, written.map fun p => (p.1, p.2.text?.getD ""), ?_⟩
    have hmap := List.map_congr_left hsame
    rw [List.map_id'] at hmap
    rw [hwritten, expressionsToJson, List.map_map]
    exact congrArg (fun written => some (Json.object written)) hmap.symm
  · rintro ⟨hsetup, expressions, hwritten⟩
    refine ⟨hsetup, _, hwritten, fun parameter hparameter => ?_⟩
    obtain ⟨p, -, rfl⟩ := List.mem_map.1 hparameter
    exact ⟨p.2, rfl⟩

/-- A table can be read from exactly these values. -/
lemma exists_table?_iff {value : Json} : (∃ table, table? value = some table) ↔ IsTable value := by
  have hitem : ∀ item : Json, (∃ entry, ofItem? item = some entry) ↔ ∃ fields,
      item = .object fields ∧ IsBody fields ∧
        ∃ code, OrderedMap.get? fields "pid" = some (.text code) := by
    intro item
    simp only [ofItem?_eq_some_iff, isBody_iff]
    grind
  have hfield : ∀ field : String × Json, (∃ entry, ofField? field = some entry) ↔ ∃ fields,
      field.2 = .object fields ∧ IsBody fields := by
    intro field
    simp only [ofField?_eq_some_iff, isBody_iff]
    grind
  unfold IsTable
  cases value with
  | array items => simp [table?, Steps.mapM_eq_some_iff, Steps.exists_values_iff, hitem]
  | object entries =>
    simp only [table?, Steps.mapM_eq_some_iff, Steps.exists_values_iff, hfield]
    simp
  | _ => simp [table?]

/-! ### What requests keep -/

/-- What a request keeps: keys that it does not know, with tidy values. -/
def Keeps (field : String × Json) : Prop :=
  field.1 ∉ ownKeys ∧ field.2.Tidy

/-- A request that is written as the fields of a tidy object keeps unknown keys with tidy values. -/
lemma WrittenAs.keeps {fields : OrderedMap String Json} {entry : PidEntry}
    (h : WrittenAs fields entry) (htidy : (Json.object fields).Tidy) :
    ∀ field ∈ entry.extra, Keeps field := by
  intro field hfield
  obtain ⟨hmem, hkey⟩ := h.extra htidy.1 field hfield
  exact ⟨hkey, htidy.of_mem hmem⟩

/-- The requests of a tidy table, in either form, keep unknown keys with tidy values. -/
lemma keeps_of_table? {value : Json} {table : List PidEntry} (htidy : value.Tidy)
    (h : table? value = some table) : ∀ entry ∈ table, ∀ field ∈ entry.extra, Keeps field := by
  intro entry hentry
  cases value with
  | array items =>
    obtain ⟨item, hitem, hof⟩ := Steps.exists_of_mem_values (Steps.mapM_eq_some_iff.1 h) hentry
    obtain ⟨fields, rfl, hwritten⟩ := writtenAs_of_ofItem? hof
    exact hwritten.keeps (Json.tidyItems_iff.1 htidy _ hitem)
  | object entries =>
    obtain ⟨under, hunder, hof⟩ := Steps.exists_of_mem_values (Steps.mapM_eq_some_iff.1 h) hentry
    obtain ⟨fields, hfields, hwritten⟩ := writtenAs_of_ofField? hof
    exact hwritten.keeps (hfields ▸ htidy.of_mem hunder)
  | _ => cases h

end PidEntry

/-! ## Fragments -/

/-- The truth value of a boolean. -/
def Json.truth? : Json → Option Bool
  | .bool value => some value
  | _ => none

namespace Fragment

/-- The keys that a fragment knows. -/
def ownKeys : List String :=
  ["car_model", "init", "extends", "pids", "add_to_docs", "note", "comment"]

/-- What a field of a document may hold for a fragment to be read from it. -/
def Suits : (key : String) → (value : Json) → Prop
  | "car_model", value => ∃ text, value = .text text
  | "init", value | "extends", value | "note", value => value = .null ∨ ∃ text, value = .text text
  | "add_to_docs", value => value = .null ∨ ∃ truth, value = .bool truth
  | "pids", value => PidEntry.IsTable value
  | _, _ => True

/-- A fragment with a field of the document in its place. -/
def place (f : Fragment) (field : String × Json) : Fragment where
  carModel := if field.1 = "car_model" then field.2.text?.getD "" else f.carModel
  init := if field.1 = "init" then field.2.text? else f.init
  parent := if field.1 = "extends" then field.2.text? else f.parent
  pids := if field.1 = "pids" then PidEntry.table? field.2 else f.pids
  addToDocs := if field.1 = "add_to_docs" then field.2.truth? else f.addToDocs
  note := if field.1 = "note" then field.2.text? else f.note
  comment := if field.1 = "comment" then optionalValue field.2 else f.comment
  extra := f.extra ++ PidEntry.fieldsBeyond ownKeys [field]

/-- A field is read exactly if it suits, and it is put in its place. -/
lemma readField_eq_ok_iff {f g : Fragment} {field : String × Json} :
    readField f field = .ok g ↔ Suits field.1 field.2 ∧ f.place field = g := by
  obtain ⟨key, value⟩ := field
  unfold readField
  dsimp only
  split
  case h_4 =>
    simp only [Suits, place, ← PidEntry.exists_table?_iff]
    cases PidEntry.table? value <;> simp [PidEntry.fieldsBeyond, ownKeys]
  case h_7 => simp [Suits, place, PidEntry.fieldsBeyond, ownKeys]
  case h_8 h1 h2 h3 h4 h5 h6 h7 =>
    have hkept : PidEntry.fieldsBeyond ownKeys [(key, value)] = [(key, value)] :=
      List.filter_cons_of_pos (by simpa [ownKeys] using ⟨h1, h2, h3, h4, h5, h6, h7⟩)
    simp [Suits, place, hkept, if_neg h1, if_neg h2, if_neg h3, if_neg h4, if_neg h5, if_neg h6,
      if_neg h7]
  -- the other fields are strings or truth values
  all_goals
    cases value <;> simp [requiredText, optionalText, optionalTruth, Except.map, Suits, place,
      Json.text?, Json.truth?, PidEntry.fieldsBeyond, ownKeys]

variable {fields : OrderedMap String Json} {f : Fragment}

/-- A document is a fragment exactly if all of its fields suit, and each is put in its place. -/
lemma ofJson_object_eq_ok_iff : ofJson (.object fields) = .ok f ↔
    (∀ field ∈ fields, Suits field.1 field.2) ∧ fields.foldl place empty = f := by
  have hstep : ∀ start field last, readField start field = .ok last ↔
      Suits field.1 field.2 ∧ place start field = last := fun _ _ _ => readField_eq_ok_iff
  exact Steps.foldlM_eq_ok_iff hstep

/-- If keys are unique, a part of a fragment that one key decides about is what is read there. -/
lemma part_foldl_place {α : Type} (part : Fragment → α) (key : String) (read : Json → α)
    (h : ∀ f field, part (place f field) = if field.1 = key then read field.2 else part f)
    (hunique : OrderedMap.UniqueKeys fields) (f : Fragment) :
    part (fields.foldl place f) = ((OrderedMap.get? fields key).map read).getD (part f) := by
  induction fields generalizing f with
  | nil => rfl
  | cons field rest ih =>
    obtain ⟨hfree, hrest⟩ :=
      List.nodup_cons.1 (show (field.1 :: OrderedMap.keys rest).Nodup from hunique)
    rw [List.foldl_cons, ih hrest, h, OrderedMap.get?]
    split
    · next hkey =>
      -- the key does not come again, so what is read here stays
      rw [(OrderedMap.get?_eq_none_iff rest key).2 (hkey ▸ hfree)]
      rfl
    · rfl

/-- Fields with unknown keys are kept in their order. -/
lemma extra_foldl_place (fields : OrderedMap String Json) (f : Fragment) :
    (fields.foldl place f).extra = f.extra ++ PidEntry.fieldsBeyond ownKeys fields := by
  induction fields generalizing f with
  | nil => exact (List.append_nil _).symm
  | cons field rest ih =>
    rw [List.foldl_cons, ih, place, List.append_assoc]
    exact congrArg (f.extra ++ ·) (List.filter_append [field] rest).symm

/-- A fragment keeps the fields of its document that have unknown keys, in their order. -/
lemma extra_ofJson (h : ofJson (.object fields) = .ok f) :
    f.extra = PidEntry.fieldsBeyond ownKeys fields := by
  rw [← (ofJson_object_eq_ok_iff.1 h).2]
  exact extra_foldl_place fields empty

/-- If keys are unique, a part of a fragment that may be missing is what is read from its field. -/
lemma part_ofJson {α : Type} (part : Fragment → Option α) (key : String) (read : Json → Option α)
    (hplace : ∀ f field, part (place f field) = if field.1 = key then read field.2 else part f)
    (hempty : part empty = none) (hunique : OrderedMap.UniqueKeys fields)
    (h : ofJson (.object fields) = .ok f) : part f = (OrderedMap.get? fields key).bind read := by
  rw [← (ofJson_object_eq_ok_iff.1 h).2, part_foldl_place part key read hplace hunique, hempty]
  cases OrderedMap.get? fields key <;> rfl

/-- The table of a fragment is the one of its document. -/
lemma pids_ofJson (hunique : OrderedMap.UniqueKeys fields) (h : ofJson (.object fields) = .ok f) :
    f.pids = (OrderedMap.get? fields "pids").bind PidEntry.table? :=
  part_ofJson pids "pids" PidEntry.table? (fun _ _ => rfl) rfl hunique h

/-- If there is a table in a document that is a fragment, it can be read and is the fragment's. -/
lemma exists_table?_of_ofJson (hunique : OrderedMap.UniqueKeys fields)
    (h : ofJson (.object fields) = .ok f) {value : Json}
    (hvalue : OrderedMap.get? fields "pids" = some value) :
    ∃ table, PidEntry.table? value = some table ∧ f.pids = some table := by
  have hsuits : PidEntry.IsTable value :=
    (ofJson_object_eq_ok_iff.1 h).1 _ (OrderedMap.mem_of_get? hvalue)
  obtain ⟨table, htable⟩ := PidEntry.exists_table?_iff.2 hsuits
  refine ⟨table, htable, ?_⟩
  rw [pids_ofJson hunique h, hvalue]
  exact htable

/-- The requests of a tidy document keep unknown keys with tidy values. -/
lemma keeps_of_ofJson (htidy : (Json.object fields).Tidy) (h : ofJson (.object fields) = .ok f) :
    ∀ entry ∈ f.pids.getD [], ∀ field ∈ entry.extra, PidEntry.Keeps field := by
  cases hpids : f.pids with
  | none => exact fun _ hentry => absurd hentry List.not_mem_nil
  | some table =>
    obtain ⟨value, hget, htable⟩ :=
      Option.bind_eq_some_iff.1 ((pids_ofJson htidy.1 h).symm.trans hpids)
    exact PidEntry.keeps_of_table? (htidy.of_mem (OrderedMap.mem_of_get? hget)) htable

/-! ### Another table -/

/-- A table takes the place of the one that was there. -/
lemma place_pids (f : Fragment) (value : Json) :
    f.place ("pids", value) = { f with pids := PidEntry.table? value } := by
  simp [place, PidEntry.fieldsBeyond, ownKeys]

/-- Other fields are put in their places whatever the table is. -/
lemma foldl_place_of_not_mem (h : "pids" ∉ OrderedMap.keys fields) (f : Fragment)
    (pids : Option (List PidEntry)) :
    fields.foldl place { f with pids := pids } = { fields.foldl place f with pids := pids } := by
  induction fields generalizing f with
  | nil => rfl
  | cons field rest ih =>
    obtain ⟨hfield, hrest⟩ : "pids" ≠ field.1 ∧ "pids" ∉ OrderedMap.keys rest := by simpa using h
    have hstep : place { f with pids := pids } field = { f.place field with pids := pids } := by
      simp [place, Ne.symm hfield]
    rw [List.foldl_cons, List.foldl_cons, hstep, ih hrest]

/-- If keys are unique, another table in a document is another table in the fragment. -/
lemma foldl_place_insert (hunique : OrderedMap.UniqueKeys fields) (f : Fragment) (value : Json) :
    (OrderedMap.insert fields "pids" value).foldl place f =
      { fields.foldl place f with pids := PidEntry.table? value } := by
  induction fields generalizing f with
  | nil => exact place_pids f value
  | cons field rest ih =>
    obtain ⟨hfree, hrest⟩ :=
      List.nodup_cons.1 (show (field.1 :: OrderedMap.keys rest).Nodup from hunique)
    rw [OrderedMap.insert_cons]
    split
    · next hkey =>
      obtain ⟨key, old⟩ := field
      obtain rfl : key = "pids" := hkey
      have hother := fun value : Json => foldl_place_of_not_mem hfree f (PidEntry.table? value)
      rw [List.foldl_cons, List.foldl_cons, place_pids, place_pids, hother, hother]
    · rw [List.foldl_cons, List.foldl_cons, ih hrest]

/-- **Another table**: a document that is a fragment is one with any table that can be read in the
place of its own. -/
lemma ofJson_insert_pids (hunique : OrderedMap.UniqueKeys fields)
    (h : ofJson (.object fields) = .ok f) {value : Json} {table : List PidEntry}
    (htable : PidEntry.table? value = some table) :
    ofJson (.object (OrderedMap.insert fields "pids" value)) = .ok { f with pids := some table } := by
  obtain ⟨hsuits, rfl⟩ := ofJson_object_eq_ok_iff.1 h
  refine ofJson_object_eq_ok_iff.2 ⟨fun field hfield => ?_, ?_⟩
  · rcases OrderedMap.mem_of_mem_insert hfield with hold | rfl
    · exact hsuits field hold
    · exact PidEntry.exists_table?_iff.1 ⟨table, htable⟩
  · rw [foldl_place_insert hunique, htable]

/-! ### Texts -/

/-- A text is a fragment if it holds a document that is one. -/
lemma parse_eq_ok_iff {path : Path} {text : String} : parse path text = .ok f ↔
    ∃ document, Json.parse text = .ok document ∧ ofJson document = .ok f := by
  unfold parse
  cases Json.parse text with
  | error fault => simp
  | ok document =>
    simp only [ofDocument, Steps.mapError_eq_ok_iff, Except.ok.injEq, exists_eq_left']

/-- A text that is a fragment holds an object without repeated keys, which the fragment is read
from. -/
lemma exists_of_parse {path : Path} {text : String} (h : parse path text = .ok f) :
    ∃ fields, Json.parse text = .ok (.object fields) ∧ (Json.object fields).Tidy ∧
      ofJson (.object fields) = .ok f := by
  obtain ⟨document, hdocument, hfragment⟩ := parse_eq_ok_iff.1 h
  cases document with
  | object fields => exact ⟨fields, hdocument, (Json.legible_of_parse hdocument).tidy, hfragment⟩
  | _ => cases hfragment

/-- The requests of a fragment that was read keep unknown keys with tidy values. -/
lemma keeps_of_parse {path : Path} {text : String} (h : parse path text = .ok f) :
    ∀ entry ∈ f.pids.getD [], ∀ field ∈ entry.extra, PidEntry.Keeps field := by
  obtain ⟨fields, -, htidy, hfragment⟩ := exists_of_parse h
  exact keeps_of_ofJson htidy hfragment

end Fragment

end LayeredProfiles
