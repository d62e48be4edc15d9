import LayeredProfiles.Proofs.Fragment.Reading

set_option autoImplicit false

/-!
# What a document has to be for a fragment to be read

A document is accepted by the fields that it has, each for itself: which may be missing, which may
be null, and what a table of requests looks like in either form. What is accepted is kept. Every
known key has its place in the fragment or in one of its requests, and all other keys stay with
their values.

## Main definitions

* `PidEntry.Holds`, `PidEntry.TableHolds`, `Fragment.Holds` — a request, a table and a fragment have
  all that the document says.

## Main results

* `PidEntry.holds_of`, `PidEntry.tableHolds_of_table?` — what requests and tables keep.
* `Fragment.holds_of_ofJson` — what a fragment keeps.
* `Fragment.document_shape` — which documents are accepted, and all that is kept of them.
-/

namespace LayeredProfiles

namespace PidEntry

/-- A request has what the fields say: the setup if it is a string, all parameters in their order,
and all fields with other keys than those that requests know. -/
structure Holds (fields : OrderedMap String Json) (entry : PidEntry) : Prop where
  /-- The setup is the string that is there, if any. -/
  setup : entry.setup = (OrderedMap.get? fields "pid_init").bind Json.text?
  /-- The parameters are those that are there, in their order. -/
  parameters : OrderedMap.get? fields "parameters" = some (expressionsToJson entry.parameters)
  /-- The other fields are those that are there. -/
  extra : entry.extra.Perm (fieldsBeyond ownKeys fields)

/-- A table has what a value says: one request for each item of a list, under the code in the item,
or one for each field of an object, under the key. -/
def TableHolds (value : Json) (table : List PidEntry) : Prop :=
  (∃ items, value = .array items ∧ List.Forall₂ (fun item entry => ∃ fields,
    item = .object fields ∧ OrderedMap.get? fields "pid" = some (.text entry.code) ∧
      Holds fields entry) items table) ∨
  ∃ entries, value = .object entries ∧ List.Forall₂ (fun field entry => ∃ fields,
    field.2 = .object fields ∧ entry.code = field.1 ∧ Holds fields entry) entries table

variable {fields : OrderedMap String Json}

/-- A request that is made from tidy fields has what they say. -/
lemma holds_of (htidy : (Json.object fields).Tidy) (code : String)
    {expressions : OrderedMap String String} {extra : OrderedMap String Json}
    (hwritten : OrderedMap.get? fields "parameters" = some (expressionsToJson expressions))
    (hextra : extra.Perm (fieldsBeyond ownKeys fields)) :
    Holds fields (.of code ((OrderedMap.get? fields "pid_init").bind Json.text?) expressions extra)
    where
  setup := rfl
  parameters := by
    have hinner := htidy.of_mem (OrderedMap.mem_of_get? hwritten)
    have hunique : OrderedMap.UniqueKeys expressions := uniqueKeys_expressions_iff.1 hinner.1
    rw [hwritten]
    exact congrArg (fun p => some (expressionsToJson p))
      (OrderedMap.ofList_of_uniqueKeys hunique).symm
  extra := by
    have hbeyond : OrderedMap.UniqueKeys (fieldsBeyond ownKeys fields) :=
      OrderedMap.uniqueKeys_filter htidy.1 _
    have hunique : OrderedMap.UniqueKeys extra := (hextra.map Prod.fst).nodup_iff.2 hbeyond
    change (OrderedMap.ofList extra).Perm _
    rwa [OrderedMap.ofList_of_uniqueKeys hunique]

/-- A table that is read from a tidy value has what the value says. -/
lemma tableHolds_of_table? {value : Json} {table : List PidEntry} (htidy : value.Tidy)
    (h : table? value = some table) : TableHolds value table := by
  cases value with
  | array items =>
    have hall := (List.forall₂_and_left items table).2
      ⟨Json.tidyItems_iff.1 htidy, Steps.mapM_eq_some_iff.1 h⟩
    refine .inl ⟨items, rfl, hall.imp fun item entry hitem => ?_⟩
    obtain ⟨fields, code, expressions, rfl, hcode, -, hwritten, rfl⟩ :=
      ofItem?_eq_some_iff.1 hitem.2
    exact ⟨fields, rfl, hcode, holds_of hitem.1 code hwritten (.refl _)⟩
  | object entries =>
    have hall := (List.forall₂_and_left entries table).2
      ⟨Json.tidyFields_iff.1 htidy.2, Steps.mapM_eq_some_iff.1 h⟩
    refine .inr ⟨entries, rfl, hall.imp fun field entry hfield => ?_⟩
    obtain ⟨fields, expressions, hfields, -, hwritten, rfl⟩ := ofField?_eq_some_iff.1 hfield.2
    have hinner : (Json.object fields).Tidy := hfields ▸ hfield.1
    exact ⟨fields, hfields, rfl,
      holds_of hinner field.1 hwritten (swapErase_fieldsBeyond_perm hinner.1)⟩
  | _ => cases h

end PidEntry

namespace Fragment

/-- A fragment has what the fields of a document say. -/
structure Holds (fields : OrderedMap String Json) (f : Fragment) : Prop where
  /-- The name is the one that is there, or empty. -/
  carModel : f.carModel = ((OrderedMap.get? fields "car_model").bind Json.text?).getD ""
  /-- The setup of the adapter is the string that is there, if any. -/
  init : f.init = (OrderedMap.get? fields "init").bind Json.text?
  /-- The reference is the string that is there, if any. -/
  parent : f.parent = (OrderedMap.get? fields "extends").bind Json.text?
  /-- The note is the string that is there, if any. -/
  note : f.note = (OrderedMap.get? fields "note").bind Json.text?
  /-- Whether the vehicle is to be listed is the truth value that is there, if any. -/
  addToDocs : f.addToDocs = (OrderedMap.get? fields "add_to_docs").bind Json.truth?
  /-- The comment is whatever is there but null. -/
  comment : f.comment = (OrderedMap.get? fields "comment").bind optionalValue
  /-- There is a table exactly if there is one in the document, and it has all requests. -/
  pids : match OrderedMap.get? fields "pids" with
    | none => f.pids = none
    | some value => ∃ table, f.pids = some table ∧ PidEntry.TableHolds value table
  /-- The other fields are those that are there, in their order. -/
  extra : f.extra = PidEntry.fieldsBeyond ownKeys fields

variable {fields : OrderedMap String Json} {f : Fragment}

/-- A fragment that is read from a tidy document has what its fields say. -/
lemma holds_of_ofJson (htidy : (Json.object fields).Tidy) (h : ofJson (.object fields) = .ok f) :
    Holds fields f where
  carModel := by
    rw [← (ofJson_object_eq_ok_iff.1 h).2, part_foldl_place carModel "car_model"
      (fun value => value.text?.getD "") (fun _ _ => rfl) htidy.1]
    cases OrderedMap.get? fields "car_model" <;> rfl
  init := part_ofJson init "init" Json.text? (fun _ _ => rfl) rfl htidy.1 h
  parent := part_ofJson parent "extends" Json.text? (fun _ _ => rfl) rfl htidy.1 h
  note := part_ofJson note "note" Json.text? (fun _ _ => rfl) rfl htidy.1 h
  addToDocs := part_ofJson addToDocs "add_to_docs" Json.truth? (fun _ _ => rfl) rfl htidy.1 h
  comment := part_ofJson comment "comment" optionalValue (fun _ _ => rfl) rfl htidy.1 h
  pids := by
    cases hvalue : OrderedMap.get? fields "pids" with
    | none =>
      rw [pids_ofJson htidy.1 h, hvalue]
      rfl
    | some value =>
      obtain ⟨table, htable, hpids⟩ := exists_table?_of_ofJson htidy.1 h hvalue
      have hinner := htidy.of_mem (OrderedMap.mem_of_get? hvalue)
      exact ⟨table, hpids, PidEntry.tableHolds_of_table? hinner htable⟩
  extra := extra_ofJson h

/-- **The shape of documents.** Take any document in which no object has a key twice. A fragment is
read from it exactly if it is an object in which every known key that is there holds what it may:
the name of the vehicle a string; setup, reference and note null or a string; the mark for the
documents null or a truth value; and the table a list of objects, each with a string for its code, a
setup that may be missing, null or a string, and an object of strings for its parameters, or an
object whose values are such objects, with or without a code. Otherwise the document is reported as
a bad fragment under its path.

Nothing of a document that is accepted is lost. The fragment has what stands under the known keys.
Its other fields are exactly those with other keys, in their order. The table has one request for
each item or key, in their order; each has its code, setup and parameters, these in their order, and
its other fields are exactly those with other keys.

**Proof sketch.** Each field is read for itself (`readField_eq_ok_iff`), and so is each request of a
table (`PidEntry.exists_table?_iff`). As no key comes twice, a field that was put in its place stays
there (`part_foldl_place`). A request writes its parameters and other fields one by one, which keeps
them as they are, since no key comes twice among them either (`PidEntry.holds_of`). -/
theorem document_shape (path : Path) (document : Json) (htidy : document.Tidy) :
    ((∃ f, ofDocument path document = .ok f) ↔ ∃ fields, document = .object fields ∧
      ∀ key value, OrderedMap.get? fields key = some value → Suits key value) ∧
    (∀ failure, ofDocument path document = .error failure →
      ∃ defect, failure = .badFragment path defect) ∧
    (∀ f, ofDocument path document = .ok f → ∃ fields, document = .object fields ∧
      Holds fields f) := by
  have hread : ∀ f, ofDocument path document = .ok f ↔ ofJson document = .ok f :=
    fun _ => Steps.mapError_eq_ok_iff
  refine ⟨?_, ?_, ?_⟩
  · simp only [hread]
    cases document with
    | object fields =>
      have hentry := OrderedMap.get?_eq_some_iff htidy.1
      simp only [ofJson_object_eq_ok_iff, Json.object.injEq, exists_eq_left', hentry]
      simp
    | _ => simp [ofJson]
  · intro failure h
    obtain ⟨defect, -, hfailure⟩ := Steps.mapError_eq_error_iff.1 h
    exact ⟨defect, hfailure.symm⟩
  · intro f h
    rw [hread] at h
    cases document with
    | object fields => exact ⟨fields, rfl, holds_of_ofJson htidy h⟩
    | _ => cases h

/-- A document with keys that fragments and requests do not know, and a code inside a mapping. -/
def sampleSheet : Json :=
  .object [("x", .integer 1), ("init", .null), ("pids", .object [("A", .object
    [("pid", .null), ("y", .bool true),
      ("parameters", .object [("S", .text "1"), ("R", .text "2")]), ("z", .null)])]),
    ("w", .text "2")]

/-- A document with a list of requests, one of which has a number for an expression. -/
def sampleScrap : Json :=
  .object [("pids", .array [.object [("pid", .text "A"), ("parameters", .object [])],
    .object [("pid", .text "B"), ("parameters", .object [("S", .text "1"), ("R", .integer 2)])]])]

/-- The first document is a fragment and keeps its fields, and the second one is none. -/
theorem document_shape_sampleSheet :
    sampleSheet.Tidy ∧ sampleScrap.Tidy ∧
      (∃ fields, sampleSheet = .object fields ∧
        ∀ key value, OrderedMap.get? fields key = some value → Suits key value) ∧
      (∃ f entry, ofDocument ⟨"p"⟩ sampleSheet = .ok f ∧ f.pids = some [entry] ∧
        f.extra = [("x", .integer 1), ("w", .text "2")] ∧ entry.code = "A" ∧
        entry.parameters = [("S", "1"), ("R", "2")] ∧
        entry.extra.Perm [("y", .bool true), ("z", .null)]) ∧
      ∃ failure defect, ofDocument ⟨"p"⟩ sampleScrap = .error failure ∧
        failure = .badFragment ⟨"p"⟩ defect := by
  have hsheet : sampleSheet.Tidy := by
    simp [sampleSheet, Json.Tidy, Json.TidyFields, OrderedMap.UniqueKeys, OrderedMap.keys]
  have hscrap : sampleScrap.Tidy := by
    simp [sampleScrap, Json.Tidy, Json.TidyFields, Json.TidyItems, OrderedMap.UniqueKeys,
      OrderedMap.keys]
  obtain ⟨haccepted, -, hkept⟩ := document_shape ⟨"p"⟩ sampleSheet hsheet
  obtain ⟨-, hreported, -⟩ := document_shape ⟨"p"⟩ sampleScrap hscrap
  have hread : ofDocument ⟨"p"⟩ sampleSheet = .ok { empty with
      pids := some [.of "A" none [("S", "1"), ("R", "2")] [("z", .null), ("y", .bool true)]]
      extra := [("x", .integer 1), ("w", .text "2")] } := by decide +kernel
  have hfails : ofDocument ⟨"p"⟩ sampleScrap = .error (.badFragment ⟨"p"⟩ .unreadablePids) := by
    decide +kernel
  obtain ⟨defect, hdefect⟩ := hreported _ hfails
  obtain ⟨fields, hfields, hholds⟩ := hkept _ hread
  obtain rfl := Json.object.inj hfields
  refine ⟨hsheet, hscrap, haccepted.1 ⟨_, hread⟩, ⟨_, _, hread, rfl, hholds.extra, rfl, rfl, ?_⟩,
    _, defect, hfails, hdefect⟩
  decide

end Fragment

end LayeredProfiles
