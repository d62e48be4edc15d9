import LayeredProfiles.Proofs.Json.Rereading

set_option autoImplicit false

/-!
# Documents are read back

A document that was read and does not nest too deep is read back as it is when it has been written in
indented form: reading succeeds, and nothing is lost, neither the order of keys nor a character of a
text. The double precision numbers in it are the exception, as reading one rounds more than once. They
have to be known to be read back.

## Main definitions

* `Json.Faithful` — the double precision numbers in the document are read back.
* `Json.nesting` — how deep brackets nest.

## Main results

* `Json.readWith_double` — a double precision number is read back everywhere, if it is by itself.
* `Json.readValue_pretty` — values are read back.
* `Json.parse_toPrettyText` — documents are read back.
-/

namespace LayeredProfiles.Json

mutual

/-- Every double precision number in the document is read back from its text. Nothing is asked of whole
numbers, all of which are. -/
def Faithful : Json → Prop
  | .double x => parse (double x).toText = .ok (.double x)
  | .array items => FaithfulItems items
  | .object fields => FaithfulFields fields
  | _ => True

/-- Every item is faithful. -/
def FaithfulItems : List Json → Prop
  | [] => True
  | item :: rest => Faithful item ∧ FaithfulItems rest

/-- Every field's value is faithful. -/
def FaithfulFields : List (String × Json) → Prop
  | [] => True
  | field :: rest => Faithful field.2 ∧ FaithfulFields rest

end

mutual

/-- How deep brackets nest in a document. -/
def nesting : Json → Nat
  | .array items => nestingItems items + 1
  | .object fields => nestingFields fields + 1
  | _ => 0

/-- How deep brackets nest in items. -/
def nestingItems : List Json → Nat
  | [] => 0
  | item :: rest => max (nesting item) (nestingItems rest)

/-- How deep brackets nest in the values of fields. -/
def nestingFields : List (String × Json) → Nat
  | [] => 0
  | field :: rest => max (nesting field.2) (nestingFields rest)

end

/-- The values of the fields of a faithful object are faithful. -/
lemma faithfulFields_iff {fields : List (String × Json)} :
    FaithfulFields fields ↔ ∀ field ∈ fields, Faithful field.2 := by
  induction fields with
  | nil => simp [FaithfulFields]
  | cons field rest ih => simp [FaithfulFields, ih]

/-! ## There is enough fuel -/

/-- Every item takes up some of the text. -/
lemma length_lt_prettyItems_append (k : Nat) (items : List Json) (rest : List Char) :
    items.length < (prettyItems k items ++ rest).length + 1 := by
  induction items with
  | nil => exact Nat.succ_pos _
  | cons item items ih =>
    simp only [prettyItems, List.length_cons, List.length_append] at ih ⊢
    omega

/-- Every field takes up some of the text. -/
lemma length_lt_prettyFields_append (k : Nat) (fields : List (String × Json)) (rest : List Char) :
    fields.length < (prettyFields k fields ++ rest).length + 1 := by
  induction fields with
  | nil => exact Nat.succ_pos _
  | cons field fields ih =>
    obtain ⟨key, value⟩ := field
    simp only [prettyFields, List.length_cons, List.length_append] at ih ⊢
    omega

/-! ## Values -/

/-- A double precision number that is read back where nothing follows it is read back everywhere. -/
lemma readWith_double {x : Binary64} (h : parse (double x).toText = .ok (.double x))
    (array object : Reader) {rest : List Char} (hrest : Ended rest) :
    readWith array object (x.text ++ rest) = .ok (.double x, rest) := by
  obtain ⟨read, hyields, hread⟩ := exists_readWith_double x
  have hdocument : readDocument x.text = .ok (.double x) := by
    simpa [parse, toText, compact, Steps.mapError_eq_ok_iff] using h
  obtain ⟨⟨found, remaining⟩, hvalue, hend⟩ := Steps.bind_eq_ok_iff.1 hdocument
  have halone : read [] = .ok (found, remaining) := by
    rw [← hvalue, ← List.append_nil x.text]
    exact (hread _ _ []).symm
  have hended : Ended [] := fun _ h => nomatch h
  rw [hread]
  obtain ⟨y, hy⟩ | hfault := hyields
  · cases (hy [] hended).symm.trans halone
    cases hend
    exact hy rest hrest
  · obtain ⟨fault, hfault⟩ := hfault [] hended
    cases hfault.symm.trans halone

/-- A field is read if its value is. -/
lemma readField_of_readValue (key : String) {depth : Nat} {text remaining : List Char} {found : Json}
    (h : readValue depth text = .ok (found, remaining)) :
    readField (readValue depth) (key.toList.flatMap escape ++ '"' :: ':' :: ' ' :: text) =
      .ok ((key, found), remaining) := by
  unfold readField
  rw [readString_escape]
  dsimp only [bind, Except.bind]
  rw [skipSpace_cons (by decide)]
  simp only [readValue_blank, h]

mutual

-- The recursion is on the document, as in `outline_of_readValue`. There reading is supposed to
-- succeed; here the depth and the fuel have to be enough.

/-- **Values are read back**, and what follows them remains. -/
lemma readValue_pretty : (document : Json) → document.Legible → document.Faithful →
    ∀ {depth k : Nat} {rest : List Char}, document.nesting ≤ depth → Ended rest →
      readValue depth (pretty k document ++ rest) = .ok (document, rest)
  | .null, _, _, depth, _, _, _, _ => by cases depth <;> rfl
  | .bool true, _, _, depth, _, _, _, _ => by cases depth <;> rfl
  | .bool false, _, _, depth, _, _, _, _ => by cases depth <;> rfl
  | .integer i, hlegible, _, depth, _, _, _, hrest => by
    cases depth <;> exact readWith_integer _ _ (i := i) hlegible hrest
  | .double _, _, hfaithful, depth, _, _, _, hrest => by
    cases depth <;> exact readWith_double hfaithful _ _ hrest
  | .text s, _, _, depth, k, rest, _, _ => by
    rw [pretty_text_append]
    cases depth <;> exact readWith_text _ _ s rest
  | .array [], _, _, depth, _, _, hdepth, _ => by
    cases depth with
    | zero => cases hdepth
    | succ depth => rfl
  | .array (item :: items), hlegible, hfaithful, depth, k, rest, hdepth, _ => by
    cases depth with
    | zero => cases hdepth
    | succ depth =>
      obtain ⟨hitem, hitems⟩ := max_le_iff.1 (Nat.le_of_succ_le_succ hdepth)
      obtain ⟨c, more, hskip, hbracket, htext⟩ :=
        skipSpace_newLine_pretty (k + 1) item (prettyItems k items ++ rest)
      rw [pretty_array_append]
      change readArray (readValue depth) (newLine (k + 1) ++ _) = _
      rw [readArray_open hskip hbracket, htext,
        readValue_pretty item hlegible.1 hfaithful.1 hitem (ended_prettyItems k items rest)]
      dsimp only [bind, Except.bind]
      rw [readItems_prettyItems items hlegible.2 hfaithful.2 hitems
        (length_lt_prettyItems_append k items rest)]
  | .object [], _, _, depth, _, _, hdepth, _ => by
    cases depth with
    | zero => cases hdepth
    | succ depth => rfl
  | .object ((key, value) :: fields), hlegible, hfaithful, depth, k, rest, hdepth, _ => by
    cases depth with
    | zero => cases hdepth
    | succ depth =>
      obtain ⟨hvalue, hfields⟩ := max_le_iff.1 (Nat.le_of_succ_le_succ hdepth)
      have hread := readValue_pretty value hlegible.2.1 hfaithful.1 hvalue (k := k + 1)
        (ended_prettyFields k fields rest)
      rw [pretty_object_append]
      change readObject (readValue depth) (newLine (k + 1) ++ _) = _
      rw [readObject_open (skipSpace_newLine_quote _ _ _), readField_of_readValue key hread]
      dsimp only [bind, Except.bind]
      rw [readFields_prettyFields fields hlegible.2.2 hfaithful.2 hfields
        (length_lt_prettyFields_append k fields rest)]
      dsimp only
      rw [OrderedMap.ofList_of_uniqueKeys hlegible.1]

/-- Items are read back. -/
lemma readItems_prettyItems : (items : List Json) → LegibleItems items → FaithfulItems items →
    ∀ {depth fuel k : Nat} {rest : List Char}, nestingItems items ≤ depth → items.length < fuel →
      readItems (readValue depth) fuel (prettyItems k items ++ rest) = .ok (items, rest)
  | [], _, _, depth, fuel, k, rest, _, hfuel => by
    obtain ⟨fuel, rfl⟩ := Nat.exists_eq_succ_of_ne_zero (Nat.ne_of_gt hfuel)
    rw [prettyItems_nil_append, readItems_close]
  | item :: items, hlegible, hfaithful, depth, fuel, k, rest, hdepth, hfuel => by
    obtain ⟨hitem, hitems⟩ := max_le_iff.1 hdepth
    obtain ⟨fuel, rfl⟩ : ∃ n, fuel = n + 1 := ⟨fuel - 1, by omega⟩
    obtain ⟨c, more, hskip, hbracket, htext⟩ :=
      skipSpace_newLine_pretty (k + 1) item (prettyItems k items ++ rest)
    rw [prettyItems_cons_append, readItems_comma hskip hbracket, htext,
      readValue_pretty item hlegible.1 hfaithful.1 hitem (ended_prettyItems k items rest)]
    dsimp only [bind, Except.bind]
    rw [readItems_prettyItems items hlegible.2 hfaithful.2 hitems (Nat.lt_of_succ_lt_succ hfuel)]

/-- Fields are read back. -/
lemma readFields_prettyFields : (fields : List (String × Json)) → LegibleFields fields →
    FaithfulFields fields → ∀ {depth fuel k : Nat} {rest : List Char},
      nestingFields fields ≤ depth → fields.length < fuel →
        readFields (readValue depth) fuel (prettyFields k fields ++ rest) = .ok (fields, rest)
  | [], _, _, depth, fuel, k, rest, _, hfuel => by
    obtain ⟨fuel, rfl⟩ := Nat.exists_eq_succ_of_ne_zero (Nat.ne_of_gt hfuel)
    rw [prettyFields_nil_append, readFields_close]
  | (key, value) :: fields, hlegible, hfaithful, depth, fuel, k, rest, hdepth, hfuel => by
    obtain ⟨hvalue, hfields⟩ := max_le_iff.1 hdepth
    obtain ⟨fuel, rfl⟩ : ∃ n, fuel = n + 1 := ⟨fuel - 1, by omega⟩
    have hread := readValue_pretty value hlegible.1 hfaithful.1 hvalue (k := k + 1)
      (ended_prettyFields k fields rest)
    rw [prettyFields_cons_append, readFields_comma (skipSpace_newLine_quote _ _ _),
      readField_of_readValue key hread]
    dsimp only [bind, Except.bind]
    rw [readFields_prettyFields fields hlegible.2 hfaithful.2 hfields (Nat.lt_of_succ_lt_succ hfuel)]

end

/-- **Documents are read back**: a legible document that does not nest too deep is read as it is from its
indented form, if its double precision numbers are read back. -/
theorem parse_toPrettyText {document : Json} (hlegible : document.Legible) (hfaithful : document.Faithful)
    (hnesting : document.nesting ≤ maxDepth) :
    parse (document.toPrettyText ++ "\n") = .ok document := by
  have htext : (document.toPrettyText ++ "\n").toList = pretty 0 document ++ ['\n'] := by
    simp [toPrettyText]
  have hread : readDocument (document.toPrettyText ++ "\n").toList = .ok document := by
    unfold readDocument
    rw [htext, readValue_pretty document hlegible hfaithful hnesting (ended_cons (by decide) _)]
    rfl
  rw [parse, hread]
  rfl

end LayeredProfiles.Json
