import Mathlib.Data.List.DropRight
import LayeredProfiles.Proofs.Json.Legible
import LayeredProfiles.Proofs.Json.Numerals
import LayeredProfiles.Proofs.Json.Strings

set_option autoImplicit false

/-!
# Written documents are read back

A document that was read, and is written in indented form and read again, is the same but for its
double precision numbers: where one of those stands, some double precision number is read. This is
said by comparing outlines, which leave the double precision numbers out.

Reading may fail, since brackets nest only so deep and a number may be too large. But if it
succeeds, the outline is the same.

## Main definitions

* `Json.outline` — a document without its double precision numbers.

## Main results

* `Json.readWith_integer`, `Json.exists_readWith_double` — numbers are read back.
* `Json.outline_of_readValue` — values are read back.
* `Json.outline_of_parse` — documents are read back.
-/

namespace LayeredProfiles.Json

mutual

/-- A document with zero in the place of every double precision number. -/
def outline : Json → Json
  | .double _ => .double (Binary64.zero false)
  | .array items => .array (outlineItems items)
  | .object fields => .object (outlineFields fields)
  | document => document

/-- Items with zeros in the place of double precision numbers. -/
def outlineItems : List Json → List Json
  | [] => []
  | item :: rest => outline item :: outlineItems rest

/-- Fields with zeros in the place of double precision numbers. -/
def outlineFields : List (String × Json) → List (String × Json)
  | [] => []
  | (key, value) :: rest => (key, outline value) :: outlineFields rest

end

/-- Fields with the same outline have the same keys. -/
lemma keys_outlineFields (fields : List (String × Json)) :
    OrderedMap.keys (outlineFields fields) = OrderedMap.keys fields := by
  induction fields with
  | nil => rfl
  | cons field rest ih => simp [outlineFields, ih]

/-! ## Spaces -/

/-- Spaces are skipped once. -/
lemma skipSpace_skipSpace (input : List Char) : skipSpace (skipSpace input) = skipSpace input :=
  List.dropWhile_idempotent _ _

/-- The start of a line is space. -/
lemma skipSpace_newLine (depth : Nat) (input : List Char) :
    skipSpace (newLine depth ++ input) = skipSpace input := by
  refine List.dropWhile_append_of_pos fun c hc => ?_
  rcases List.mem_cons.1 hc with rfl | hspace
  · rfl
  · rw [List.eq_of_mem_replicate hspace]
    rfl

/-- A character that is no space is not skipped. -/
lemma skipSpace_cons {c : Char} (h : isSpace c = false) (input : List Char) :
    skipSpace (c :: input) = c :: input := by
  simp [skipSpace, h]

/-- Spaces in front of a value are skipped. -/
lemma readValue_skipSpace (depth : Nat) (input : List Char) :
    readValue depth (skipSpace input) = readValue depth input := by
  cases depth <;> simp only [readValue, readWith, skipSpace_skipSpace]

/-- A blank in front of a value is skipped. -/
lemma readValue_blank (depth : Nat) (input : List Char) :
    readValue depth (' ' :: input) = readValue depth input := by
  have hblank : skipSpace (' ' :: input) = skipSpace input := rfl
  rw [← readValue_skipSpace, hblank, readValue_skipSpace]

/-! ## Numbers -/

section Numbers

variable (array object : Reader)

/-- A digit is no space and does not begin anything but a number. -/
lemma readWith_digit {c : Char} (h : isDigit c = true) (rest : List Char) :
    readWith array object (c :: rest) = readNumber false (c :: rest) := by
  have hne : ∀ d : Char, isDigit d = false → c ≠ d := by
    rintro d hd rfl
    rw [h] at hd
    cases hd
  have hspace : isSpace c = false := by
    simp [isSpace, hne ' ' rfl, hne '\n' rfl, hne '\t' rfl, hne '\r' rfl]
  unfold readWith
  rw [skipSpace_cons hspace]
  dsimp only
  rw [if_neg (hne 'n' rfl), if_neg (hne 't' rfl), if_neg (hne 'f' rfl), if_neg (hne '-' rfl),
    if_pos h]

/-- A minus sign begins a number. -/
lemma readWith_minus (rest : List Char) :
    readWith array object ('-' :: rest) = readNumber true rest :=
  rfl

/-- A whole number that fits is read back. -/
lemma readWith_integer {i : Int} (hfits : Fits i) {rest : List Char} (hrest : Ended rest) :
    readWith array object (integerText i ++ rest) = .ok (.integer i, rest) := by
  obtain ⟨hlow, hhigh⟩ := hfits
  unfold integerText
  split
  · next hnegative =>
    have hbound : i.natAbs ≤ twoTo 63 := by omega
    have hword : twoTo 63 ≤ maxWord := by decide +kernel
    rw [List.cons_append, readWith_minus, readNumber_toDigits (by omega) hrest, wholeNumber,
      if_neg (by decide), if_pos (by omega)]
    have hsigned : signed true i.natAbs = i := by
      rw [signed, if_pos rfl]
      omega
    rw [hsigned]
  · next hpositive =>
    cases hdigits : Nat.toDigits 10 i.natAbs with
    | nil => exact absurd hdigits Nat.toDigits_ne_nil
    | cons c more =>
      have hc : isDigit c = true := isDigit_of_mem_toDigits (n := i.natAbs) (by simp [hdigits])
      rw [List.cons_append, readWith_digit array object hc, ← List.cons_append, ← hdigits,
        readNumber_toDigits (by omega) hrest, wholeNumber, if_pos (by decide)]
      have hsame : (i.natAbs : Int) = i := by omega
      rw [hsame]

/-- A double precision number is written as a number, with a minus sign in front or without. -/
lemma decimals_text (x : Binary64) :
    ∃ body, Decimals body ∧ (x.text = body ∨ x.text = '-' :: body) := by
  refine ⟨if x.isZero then ['0', '.', '0'] else Binary64.decimalText x.shortest, ?_, ?_⟩
  · split
    · have hzero : ∀ c ∈ ['0'], isDigit c = true := fun c hc => List.mem_singleton.1 hc ▸ rfl
      exact ⟨['0'], ['.', '0'], [], rfl, by simp, hzero, .inr ⟨['0'], hzero, rfl⟩, .inl rfl, by simp⟩
    · exact decimals_decimalText _
  · unfold Binary64.text
    dsimp only
    by_cases hsign : x.negative = true
    · exact .inr (if_pos hsign)
    · exact .inl (if_neg hsign)

/-- Where a double precision number is written, one is read, and which one it is depends neither on
what follows nor on how lists and objects are read. -/
lemma exists_readWith_double (x : Binary64) :
    ∃ read, YieldsDouble read ∧
      ∀ array object rest, readWith array object (x.text ++ rest) = read rest := by
  obtain ⟨body, hbody, htext | htext⟩ := decimals_text x
  · refine ⟨_, yieldsDouble_readNumber false hbody, fun array object rest => ?_⟩
    obtain ⟨whole, fraction, power, rfl, hwhole, hdigits, -⟩ := hbody
    obtain ⟨c, more, rfl⟩ := List.exists_cons_of_ne_nil hwhole
    rw [htext]
    simp only [List.cons_append]
    rw [readWith_digit array object (hdigits c List.mem_cons_self)]
  · exact ⟨_, yieldsDouble_readNumber true hbody, fun array object rest => by rw [htext]; rfl⟩

end Numbers

/-! ## Values -/

/-- What follows a value in a list cannot belong to a number. -/
lemma ended_prettyItems (k : Nat) (items : List Json) (rest : List Char) :
    Ended (prettyItems k items ++ rest) := by
  cases items <;> exact ended_cons (by decide) _

/-- What follows a value in an object cannot belong to a number. -/
lemma ended_prettyFields (k : Nat) (fields : List (String × Json)) (rest : List Char) :
    Ended (prettyFields k fields ++ rest) := by
  cases fields <;> exact ended_cons (by decide) _

/-- A value begins with neither a space nor a closing bracket. -/
lemma exists_pretty_eq_cons (k : Nat) (document : Json) :
    ∃ c more, pretty k document = c :: more ∧ isSpace c = false ∧ c ≠ ']' := by
  have hdigit : ∀ c, isDigit c = true → isSpace c = false ∧ c ≠ ']' := by
    intro c hc
    have hne : ∀ d : Char, isDigit d = false → c ≠ d := by
      rintro d hd rfl
      rw [hc] at hd
      cases hd
    refine ⟨?_, hne ']' rfl⟩
    simp [isSpace, hne ' ' rfl, hne '\n' rfl, hne '\t' rfl, hne '\r' rfl]
  match document with
  | .null => exact ⟨'n', _, rfl, by decide⟩
  | .bool true => exact ⟨'t', _, rfl, by decide⟩
  | .bool false => exact ⟨'f', _, rfl, by decide⟩
  | .text s => exact ⟨'"', _, rfl, by decide⟩
  | .array [] | .array (_ :: _) => exact ⟨'[', _, rfl, by decide⟩
  | .object [] | .object ((_, _) :: _) => exact ⟨'{', _, rfl, by decide⟩
  | .integer i =>
    cases hdigits : Nat.toDigits 10 i.natAbs with
    | nil => exact absurd hdigits Nat.toDigits_ne_nil
    | cons c more =>
      have hc := hdigit c (isDigit_of_mem_toDigits (n := i.natAbs) (by simp [hdigits]))
      by_cases hsign : i < 0
      · exact ⟨'-', c :: more, by simp [pretty, integerText, hsign, hdigits], by decide⟩
      · exact ⟨c, more, by simp [pretty, integerText, hsign, hdigits], hc⟩
  | .double x =>
    obtain ⟨body, ⟨whole, fraction, power, rfl, hwhole, hdigits, -⟩, htext | htext⟩ :=
      decimals_text x
    · obtain ⟨c, more, rfl⟩ := List.exists_cons_of_ne_nil hwhole
      exact ⟨c, _, by rw [pretty, htext]; rfl, hdigit c (hdigits c List.mem_cons_self)⟩
    · exact ⟨'-', _, by rw [pretty, htext], by decide⟩

/-- Behind the start of a line, a value begins with neither a space nor a closing bracket. -/
lemma skipSpace_newLine_pretty (k : Nat) (document : Json) (rest : List Char) :
    ∃ c more, skipSpace (newLine k ++ (pretty k document ++ rest)) = c :: more ∧ c ≠ ']' ∧
      c :: more = pretty k document ++ rest := by
  obtain ⟨c, more, hpretty, hspace, hbracket⟩ := exists_pretty_eq_cons k document
  refine ⟨c, more ++ rest, ?_, hbracket, by rw [hpretty, List.cons_append]⟩
  rw [skipSpace_newLine, hpretty, List.cons_append, skipSpace_cons hspace]

/-- A text is read back. -/
lemma readWith_text (array object : Reader) (s : String) (rest : List Char) :
    readWith array object ('"' :: (s.toList.flatMap escape ++ '"' :: rest)) =
      .ok (.text s, rest) := by
  change (readString (s.toList.flatMap escape ++ '"' :: rest) >>= _) = _
  rw [readString_escape]
  rfl

/-- Fields have the same outline one by one. -/
lemma outlineFields_cons {field : String × Json} {key : String} {value : Json}
    {others fields : List (String × Json)} (hkey : field.1 = key)
    (hvalue : field.2.outline = value.outline)
    (hfields : outlineFields others = outlineFields fields) :
    outlineFields (field :: others) = outlineFields ((key, value) :: fields) := by
  obtain ⟨_, _⟩ := field
  dsimp only at hkey hvalue
  simp only [outlineFields, hkey, hvalue, hfields]

/-- No field is lost if no two of them have the same key. -/
lemma outline_ofList {found fields : List (String × Json)} (hunique : OrderedMap.UniqueKeys fields)
    (h : outlineFields found = outlineFields fields) :
    (Json.object (OrderedMap.ofList found)).outline = (Json.object fields).outline := by
  have hkeys : OrderedMap.UniqueKeys found := by
    unfold OrderedMap.UniqueKeys
    rw [← keys_outlineFields, h, keys_outlineFields]
    exact hunique
  rw [OrderedMap.ofList_of_uniqueKeys hkeys]
  exact congrArg Json.object h

/-- A field is read back if its value is. -/
lemma readField_quote {value : Reader} {key : String} {text : List Char} {field : String × Json}
    {remaining : List Char}
    (h : readField value (key.toList.flatMap escape ++ '"' :: ':' :: ' ' :: text) =
      .ok (field, remaining)) :
    field.1 = key ∧ value (' ' :: text) = .ok (field.2, remaining) := by
  unfold readField at h
  rw [readString_escape] at h
  dsimp only [bind, Except.bind] at h
  rw [skipSpace_cons (by decide)] at h
  obtain ⟨⟨found, rest⟩, hfound, h⟩ := Steps.bind_eq_ok_iff.1 h
  cases h
  exact ⟨rfl, hfound⟩

/-- Behind the opening bracket the first item is read, if there is one. -/
lemma readArray_open {value : Reader} {input : List Char} {c : Char} {more : List Char}
    (hskip : skipSpace input = c :: more) (hbracket : c ≠ ']') :
    readArray value input = (do
      let (item, rest) ← value (c :: more)
      let (items, rest) ← readItems value (rest.length + 1) rest
      .ok (.array (item :: items), rest)) := by
  unfold readArray
  rw [hskip]
  split
  · next heq => cases heq
  · next heq => exact absurd (List.cons.inj heq).1 hbracket
  · rfl

/-- Behind the opening bracket the first field is read, if there is one. -/
lemma readObject_open {value : Reader} {input more : List Char}
    (hskip : skipSpace input = '"' :: more) :
    readObject value input = (do
      let (field, rest) ← readField value more
      let (fields, rest) ← readFields value (rest.length + 1) rest
      .ok (.object (OrderedMap.ofList (field :: fields)), rest)) := by
  simp only [readObject, hskip]

/-- Behind a comma another item is read. -/
lemma readItems_comma {value : Reader} {fuel : Nat} {input : List Char} {c : Char}
    {more : List Char} (hskip : skipSpace input = c :: more) (hbracket : c ≠ ']') :
    readItems value (fuel + 1) (',' :: input) = (do
      let (item, rest) ← value (c :: more)
      let (items, rest) ← readItems value fuel rest
      .ok (item :: items, rest)) := by
  have hcomma : skipSpace (',' :: input) = ',' :: input := rfl
  simp only [readItems, hcomma, hskip]
  split
  · next heq => cases heq
  · next heq => exact absurd (List.cons.inj heq).1 hbracket
  · rfl

/-- Behind a comma another field is read. -/
lemma readFields_comma {value : Reader} {fuel : Nat} {input more : List Char}
    (hskip : skipSpace input = '"' :: more) :
    readFields value (fuel + 1) (',' :: input) = (do
      let (field, rest) ← readField value more
      let (fields, rest) ← readFields value fuel rest
      .ok (field :: fields, rest)) := by
  have hcomma : skipSpace (',' :: input) = ',' :: input := rfl
  simp only [readFields, hcomma, hskip]

/-- Items end at a closing bracket. -/
lemma readItems_close (value : Reader) (fuel k : Nat) (rest : List Char) :
    readItems value (fuel + 1) (newLine k ++ ']' :: rest) = .ok ([], rest) := by
  rw [readItems, skipSpace_newLine]
  rfl

/-- Fields end at a closing bracket. -/
lemma readFields_close (value : Reader) (fuel k : Nat) (rest : List Char) :
    readFields value (fuel + 1) (newLine k ++ '}' :: rest) = .ok ([], rest) := by
  rw [readFields, skipSpace_newLine]
  rfl

/-- A quoted key and what follows it, behind the start of a line. -/
lemma skipSpace_newLine_quote (k : Nat) (key : String) (rest : List Char) :
    skipSpace (newLine k ++ (quote key ++ rest)) =
      '"' :: (key.toList.flatMap escape ++ '"' :: rest) := by
  rw [skipSpace_newLine]
  simp [quote, skipSpace_cons (show isSpace '"' = false from rfl)]

/-! ## How lists and objects are written -/

/-- A text in its quotes, and what follows it. -/
lemma pretty_text_append (k : Nat) (s : String) (rest : List Char) :
    pretty k (.text s) ++ rest = '"' :: (s.toList.flatMap escape ++ '"' :: rest) := by
  simp [pretty, quote]

/-- A list opens with its first item. -/
lemma pretty_array_append (k : Nat) (item : Json) (items : List Json) (rest : List Char) :
    pretty k (.array (item :: items)) ++ rest =
      '[' :: (newLine (k + 1) ++ (pretty (k + 1) item ++ (prettyItems k items ++ rest))) := by
  simp [pretty]

/-- An object opens with its first field. -/
lemma pretty_object_append (k : Nat) (key : String) (value : Json) (fields : List (String × Json))
    (rest : List Char) :
    pretty k (.object ((key, value) :: fields)) ++ rest =
      '{' :: (newLine (k + 1) ++ (quote key ++ (':' :: ' ' :: (pretty (k + 1) value ++
        (prettyFields k fields ++ rest))))) := by
  simp [pretty]

/-- Another item stands behind a comma. -/
lemma prettyItems_cons_append (k : Nat) (item : Json) (items : List Json) (rest : List Char) :
    prettyItems k (item :: items) ++ rest =
      ',' :: (newLine (k + 1) ++ (pretty (k + 1) item ++ (prettyItems k items ++ rest))) := by
  simp [prettyItems]

/-- Another field stands behind a comma. -/
lemma prettyFields_cons_append (k : Nat) (key : String) (value : Json)
    (fields : List (String × Json)) (rest : List Char) :
    prettyFields k ((key, value) :: fields) ++ rest =
      ',' :: (newLine (k + 1) ++ (quote key ++ (':' :: ' ' :: (pretty (k + 1) value ++
        (prettyFields k fields ++ rest))))) := by
  simp [prettyFields]

/-- A list closes on a line of its own. -/
lemma prettyItems_nil_append (k : Nat) (rest : List Char) :
    prettyItems k [] ++ rest = newLine k ++ ']' :: rest := by
  simp [prettyItems]

/-- An object closes on a line of its own. -/
lemma prettyFields_nil_append (k : Nat) (rest : List Char) :
    prettyFields k [] ++ rest = newLine k ++ '}' :: rest := by
  simp [prettyFields]

mutual

-- The recursion is on the document. That it nests too deep for the reader, or has more items than
-- there is fuel, need not be ruled out: then reading fails.

/-- **Values are read back**: if reading the text of a value succeeds, what remains is what follows
it, and the outline is the same. -/
lemma outline_of_readValue : (document : Json) → document.Legible →
    ∀ {depth k : Nat} {rest remaining : List Char} {found : Json}, Ended rest →
      readValue depth (pretty k document ++ rest) = .ok (found, remaining) →
        remaining = rest ∧ found.outline = document.outline
  | .null, _, depth, _, _, _, _, _, h => by
    cases depth <;> cases h <;> exact ⟨rfl, rfl⟩
  | .bool true, _, depth, _, _, _, _, _, h => by
    cases depth <;> cases h <;> exact ⟨rfl, rfl⟩
  | .bool false, _, depth, _, _, _, _, _, h => by
    cases depth <;> cases h <;> exact ⟨rfl, rfl⟩
  | .integer i, hlegible, depth, _, _, _, _, hrest, h => by
    have hread := fun array object => readWith_integer array object (i := i) hlegible hrest
    cases depth <;>
    · simp only [readValue, pretty, hread] at h
      cases h
      exact ⟨rfl, rfl⟩
  | .double x, _, depth, _, rest, remaining, found, hrest, h => by
    obtain ⟨read, hyields, hread⟩ := exists_readWith_double x
    have hrun : read rest = .ok (found, remaining) := by
      rw [← h]
      cases depth <;> exact (hread _ _ rest).symm
    obtain ⟨y, hy⟩ | hfault := hyields
    · cases (hy rest hrest).symm.trans hrun
      exact ⟨rfl, rfl⟩
    · obtain ⟨fault, hfault⟩ := hfault rest hrest
      cases hfault.symm.trans hrun
  | .text s, _, depth, k, rest, _, _, _, h => by
    rw [pretty_text_append] at h
    cases depth <;>
    · simp only [readValue, readWith_text] at h
      cases h
      exact ⟨rfl, rfl⟩
  | .array [], _, depth, _, _, _, _, _, h => by
    cases depth <;> cases h
    exact ⟨rfl, rfl⟩
  | .array (item :: items), hlegible, depth, k, rest, remaining, found, _, h => by
    cases depth with
    | zero => cases h
    | succ depth =>
      obtain ⟨c, more, hskip, hbracket, htext⟩ :=
        skipSpace_newLine_pretty (k + 1) item (prettyItems k items ++ rest)
      rw [pretty_array_append] at h
      change readArray (readValue depth) (newLine (k + 1) ++ _) = _ at h
      rw [readArray_open hskip hbracket, htext] at h
      obtain ⟨⟨first, after⟩, hfirst, hmore⟩ := Steps.bind_eq_ok_iff.1 h
      obtain ⟨⟨others, last⟩, hothers, hend⟩ := Steps.bind_eq_ok_iff.1 hmore
      -- the first item leaves what is written behind it, which is read as the others
      obtain ⟨rfl, hitem⟩ := outline_of_readValue item hlegible.1
        (ended_prettyItems k items rest) hfirst
      obtain ⟨rfl, hitems⟩ := outline_of_readItems items hlegible.2 hothers
      cases hend
      exact ⟨rfl, by simp only [outline, outlineItems, hitem, hitems]⟩
  | .object [], _, depth, _, _, _, _, _, h => by
    cases depth <;> cases h
    exact ⟨rfl, rfl⟩
  | .object ((key, value) :: fields), hlegible, depth, k, rest, remaining, found, _, h => by
    cases depth with
    | zero => cases h
    | succ depth =>
      rw [pretty_object_append] at h
      change readObject (readValue depth) (newLine (k + 1) ++ _) = _ at h
      rw [readObject_open (skipSpace_newLine_quote _ _ _)] at h
      obtain ⟨⟨field, after⟩, hfield, hmore⟩ := Steps.bind_eq_ok_iff.1 h
      obtain ⟨⟨others, last⟩, hothers, hend⟩ := Steps.bind_eq_ok_iff.1 hmore
      obtain ⟨hkey, hvalue⟩ := readField_quote hfield
      rw [readValue_blank] at hvalue
      obtain ⟨rfl, houtline⟩ := outline_of_readValue value hlegible.2.1
        (ended_prettyFields k fields rest) hvalue
      obtain ⟨rfl, hfields⟩ := outline_of_readFields fields hlegible.2.2 hothers
      cases hend
      exact ⟨rfl, outline_ofList hlegible.1 (outlineFields_cons hkey houtline hfields)⟩

/-- Items are read back. -/
lemma outline_of_readItems : (items : List Json) → LegibleItems items →
    ∀ {depth fuel k : Nat} {rest remaining : List Char} {found : List Json},
      readItems (readValue depth) fuel (prettyItems k items ++ rest) = .ok (found, remaining) →
        remaining = rest ∧ outlineItems found = outlineItems items
  | [], _, depth, fuel, k, rest, remaining, found, h => by
    cases fuel with
    | zero => cases h
    | succ fuel =>
      rw [prettyItems_nil_append, readItems_close] at h
      cases h
      exact ⟨rfl, rfl⟩
  | item :: items, hlegible, depth, fuel, k, rest, remaining, found, h => by
    cases fuel with
    | zero => cases h
    | succ fuel =>
      obtain ⟨c, more, hskip, hbracket, htext⟩ :=
        skipSpace_newLine_pretty (k + 1) item (prettyItems k items ++ rest)
      rw [prettyItems_cons_append, readItems_comma hskip hbracket, htext] at h
      obtain ⟨⟨first, after⟩, hfirst, hmore⟩ := Steps.bind_eq_ok_iff.1 h
      obtain ⟨⟨others, last⟩, hothers, hend⟩ := Steps.bind_eq_ok_iff.1 hmore
      obtain ⟨rfl, hitem⟩ := outline_of_readValue item hlegible.1
        (ended_prettyItems k items rest) hfirst
      obtain ⟨rfl, hitems⟩ := outline_of_readItems items hlegible.2 hothers
      cases hend
      exact ⟨rfl, by simp only [outlineItems, hitem, hitems]⟩

/-- Fields are read back. -/
lemma outline_of_readFields : (fields : List (String × Json)) → LegibleFields fields →
    ∀ {depth fuel k : Nat} {rest remaining : List Char} {found : List (String × Json)},
      readFields (readValue depth) fuel (prettyFields k fields ++ rest) = .ok (found, remaining) →
        remaining = rest ∧ outlineFields found = outlineFields fields
  | [], _, depth, fuel, k, rest, remaining, found, h => by
    cases fuel with
    | zero => cases h
    | succ fuel =>
      rw [prettyFields_nil_append, readFields_close] at h
      cases h
      exact ⟨rfl, rfl⟩
  | (key, value) :: fields, hlegible, depth, fuel, k, rest, remaining, found, h => by
    cases fuel with
    | zero => cases h
    | succ fuel =>
      rw [prettyFields_cons_append, readFields_comma (skipSpace_newLine_quote _ _ _)] at h
      obtain ⟨⟨field, after⟩, hfield, hmore⟩ := Steps.bind_eq_ok_iff.1 h
      obtain ⟨⟨others, last⟩, hothers, hend⟩ := Steps.bind_eq_ok_iff.1 hmore
      obtain ⟨hkey, hvalue⟩ := readField_quote hfield
      rw [readValue_blank] at hvalue
      obtain ⟨rfl, houtline⟩ := outline_of_readValue value hlegible.1
        (ended_prettyFields k fields rest) hvalue
      obtain ⟨rfl, hfields⟩ := outline_of_readFields fields hlegible.2 hothers
      cases hend
      exact ⟨rfl, outlineFields_cons hkey houtline hfields⟩

end

/-- **Documents are read back**: if reading the indented form of a legible document succeeds, the
outline is the same. -/
theorem outline_of_parse {document found : Json} (hlegible : document.Legible)
    (h : parse (document.toPrettyText ++ "\n") = .ok found) : found.outline = document.outline := by
  have htext : (document.toPrettyText ++ "\n").toList = pretty 0 document ++ ['\n'] := by
    simp [toPrettyText]
  obtain ⟨⟨value, rest⟩, hvalue, hrest⟩ := Steps.bind_eq_ok_iff.1 (Steps.mapError_eq_ok_iff.1 h)
  rw [htext] at hvalue
  obtain ⟨rfl, houtline⟩ := outline_of_readValue document hlegible (ended_cons (by decide) _) hvalue
  cases hrest
  exact houtline

end LayeredProfiles.Json
