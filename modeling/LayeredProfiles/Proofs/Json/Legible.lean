import LayeredProfiles.Json.Reader
import LayeredProfiles.Proofs.Steps

set_option autoImplicit false

/-!
# What reading yields

Not every document can be the result of reading a text: no object in it has a key twice, and its
whole numbers fit 64 bits.

## Main definitions

* `Json.Legible` — what holds of a document that was read.
* `Json.Yields` — readers that yield only what is as it should be.

## Main results

* `Json.Legible.tidy` — a legible document is tidy.
* `Json.yields_readNumber` — what a number can be.
* `Json.yieldsLegible_readValue`, `Json.legible_of_parse` — reading yields legible documents.
-/

namespace LayeredProfiles.Json

/-- Whether a whole number is one of 64 bits, with or without a sign. -/
def Fits (i : Int) : Prop :=
  -(twoTo 63 : Int) ≤ i ∧ i ≤ maxWord

mutual

/-- No object in the document has a key twice, and whole numbers fit 64 bits. -/
def Legible : Json → Prop
  | .integer i => Fits i
  | .array items => LegibleItems items
  | .object fields => OrderedMap.UniqueKeys fields ∧ LegibleFields fields
  | _ => True

/-- Every item is legible. -/
def LegibleItems : List Json → Prop
  | [] => True
  | item :: rest => Legible item ∧ LegibleItems rest

/-- Every field's value is legible. -/
def LegibleFields : List (String × Json) → Prop
  | [] => True
  | field :: rest => Legible field.2 ∧ LegibleFields rest

end

/-- The fields of a legible object are legible. -/
lemma legibleFields_iff {fields : List (String × Json)} :
    LegibleFields fields ↔ ∀ field ∈ fields, Legible field.2 := by
  induction fields with
  | nil => simp [LegibleFields]
  | cons field rest ih => simp [LegibleFields, ih]

mutual

/-- A legible document is tidy. -/
lemma Legible.tidy : (document : Json) → Legible document → Tidy document
  | .array items, h => LegibleItems.tidy items h
  | .object fields, h => ⟨h.1, LegibleFields.tidy fields h.2⟩
  | .null, _ | .bool _, _ | .integer _, _ | .double _, _ | .text _, _ => trivial

/-- Legible items are tidy. -/
lemma LegibleItems.tidy : (items : List Json) → LegibleItems items → TidyItems items
  | [], _ => trivial
  | item :: rest, h => ⟨Legible.tidy item h.1, LegibleItems.tidy rest h.2⟩

/-- Legible fields are tidy. -/
lemma LegibleFields.tidy : (fields : List (String × Json)) → LegibleFields fields → TidyFields fields
  | [], _ => trivial
  | field :: rest, h => ⟨Legible.tidy field.2 h.1, LegibleFields.tidy rest h.2⟩

end

/-! ## Numbers -/

/-- What was read, if anything was, is as it should be. -/
def Yields (holds : Json → Prop) (outcome : Except Fault (Json × List Char)) : Prop :=
  ∀ document rest, outcome = .ok (document, rest) → holds document

/-- Digits are taken only as long as the number fits. -/
lemma takeDigits_le {number : Nat} (h : number ≤ maxWord) (taken : Nat) (input : List Char) :
    (takeDigits number taken input).1 ≤ maxWord := by
  induction input generalizing number taken with
  | nil => exact h
  | cons c rest ih =>
    unfold takeDigits
    split
    · next hfits => exact ih (by simpa using (Bool.and_eq_true_iff.1 hfits).2) _
    · exact h

section Yields

variable {holds : Json → Prop}

/-- Nothing was read. -/
lemma yields_error (fault : Fault) : Yields holds (.error fault) :=
  fun _ _ h => nomatch h

/-- What was read is as it should be. -/
lemma yields_ok {document : Json} (h : holds document) (rest : List Char) :
    Yields holds (.ok (document, rest)) := by
  intro found remaining hfound
  cases hfound
  exact h

/-- A word stands for its value. -/
lemma yields_readWord {value : Json} (h : holds value) (word input : List Char) :
    Yields holds (readWord word value input) := by
  induction word generalizing input with
  | nil => exact yields_ok h input
  | cons w word ih =>
    cases input with
    | nil => exact yields_error _
    | cons c rest =>
      unfold readWord
      split_ifs
      · exact ih rest
      · exact yields_error _

variable (hdouble : ∀ x, holds (.double x))

include hdouble

lemma yields_finishDouble (negative : Bool) (digits : Nat) (exponent : Int)
    (rest : List Char) : Yields holds (finishDouble negative digits exponent rest) := by
  unfold finishDouble
  split
  · exact yields_ok (hdouble _) rest
  · exact yields_error _

lemma yields_readExponentDigits (negative : Bool) (digits : Nat) (before : Int) (minus : Bool)
    (exponent : Nat) (input : List Char) :
    Yields holds (readExponentDigits negative digits before minus exponent input) := by
  induction input generalizing exponent with
  | nil => exact yields_finishDouble hdouble _ _ _ _
  | cons c rest ih =>
    unfold readExponentDigits
    dsimp only
    split_ifs
    · exact ih _
    · exact yields_error _
    · exact yields_ok (hdouble _) _
    · exact yields_finishDouble hdouble _ _ _ _

lemma yields_readExponent (negative : Bool) (digits : Nat) (before : Int)
    (input : List Char) : Yields holds (readExponent negative digits before input) := by
  unfold readExponent
  dsimp only
  split
  · exact yields_error _
  · split_ifs
    · exact yields_readExponentDigits hdouble _ _ _ _ _ _
    · exact yields_error _

lemma yields_readScale (negative : Bool) (digits : Nat) (exponent : Int)
    (input : List Char) : Yields holds (readScale negative digits exponent input) := by
  unfold readScale
  split
  · exact yields_finishDouble hdouble _ _ _ _
  · split_ifs
    · exact yields_readExponent hdouble _ _ _ _
    · exact yields_finishDouble hdouble _ _ _ _

lemma yields_readFraction (negative : Bool) (digits : Nat) (before : Int)
    (input : List Char) : Yields holds (readFraction negative digits before input) := by
  unfold readFraction
  dsimp only
  split <;> split_ifs <;>
    first | exact yields_error _ | exact yields_readScale hdouble _ _ _ _

variable (hinteger : ∀ i, Fits i → holds (.integer i))

include hinteger

lemma yields_wholeNumber (negative : Bool) {digits : Nat} (h : digits ≤ maxWord)
    (rest : List Char) : Yields holds (wholeNumber negative digits rest) := by
  unfold wholeNumber
  split_ifs with hsign hsize
  · have hpos := Int.natCast_nonneg (twoTo 63)
    have hdigits := Int.natCast_nonneg digits
    have hfits : Fits digits := ⟨by omega, by exact_mod_cast h⟩
    exact yields_ok (hinteger _ hfits) rest
  · have hsize' : (digits : Int) ≤ twoTo 63 := by exact_mod_cast hsize.2
    have hword := Int.natCast_nonneg maxWord
    have hfits : Fits (signed true digits) := by
      change Fits (-digits)
      unfold Fits
      omega
    exact yields_ok (hinteger _ hfits) rest
  · exact yields_finishDouble hdouble _ _ _ _

lemma yields_readAfterWhole (negative : Bool) {digits : Nat} (h : digits ≤ maxWord)
    (input : List Char) : Yields holds (readAfterWhole negative digits input) := by
  unfold readAfterWhole
  dsimp only
  split
  · exact yields_wholeNumber hdouble hinteger negative h _
  · split_ifs
    · exact yields_readFraction hdouble _ _ _ _
    · exact yields_readExponent hdouble _ _ _ _
    · split
      · exact yields_readFraction hdouble _ _ _ _
      · exact yields_readScale hdouble _ _ _ _
    · exact yields_wholeNumber hdouble hinteger negative h _

/-- A number is a double precision number, or a whole number that fits 64 bits. -/
lemma yields_readNumber (negative : Bool) (input : List Char) :
    Yields holds (readNumber negative input) := by
  rw [readNumber.eq_def]
  split
  · exact yields_error _
  · next c rest =>
    have hdigits := takeDigits_le (Nat.zero_le maxWord) 0 (c :: rest)
    split_ifs
    · split
      · split_ifs
        · exact yields_error _
        · exact yields_readAfterWhole hdouble hinteger negative (Nat.zero_le _) _
      · exact yields_readAfterWhole hdouble hinteger negative (Nat.zero_le _) _
    · exact yields_readAfterWhole hdouble hinteger negative hdigits _
    · exact yields_error _

end Yields

/-! ## Lists and objects -/

/-- What was read, if anything was, is legible. -/
def YieldsLegible (outcome : Except Fault (Json × List Char)) : Prop :=
  ∀ document rest, outcome = .ok (document, rest) → document.Legible

section Parts

variable {value : Reader} (hvalue : ∀ input, YieldsLegible (value input))

include hvalue

/-- Items are legible if every value is. -/
lemma legible_readItems {fuel : Nat} {input rest : List Char} {items : List Json}
    (h : readItems value fuel input = .ok (items, rest)) : LegibleItems items := by
  induction fuel generalizing input items with
  | zero => cases h
  | succ fuel ih =>
    unfold readItems at h
    split at h
    · cases h
    · cases h
      trivial
    · split at h
      · cases h
      · cases h
      · obtain ⟨⟨item, after⟩, hitem, h⟩ := Steps.bind_eq_ok_iff.1 h
        obtain ⟨⟨more, last⟩, hmore, h⟩ := Steps.bind_eq_ok_iff.1 h
        cases h
        exact ⟨hvalue _ _ _ hitem, ih hmore⟩
    · cases h

/-- A list is legible if every value is. -/
lemma yieldsLegible_readArray (input : List Char) : YieldsLegible (readArray value input) := by
  intro document rest h
  unfold readArray at h
  split at h
  · cases h
  · cases h
    trivial
  · obtain ⟨⟨item, after⟩, hitem, h⟩ := Steps.bind_eq_ok_iff.1 h
    obtain ⟨⟨items, last⟩, hitems, h⟩ := Steps.bind_eq_ok_iff.1 h
    cases h
    exact ⟨hvalue _ _ _ hitem, legible_readItems hvalue hitems⟩

/-- A field is legible if every value is. -/
lemma legible_readField {input rest : List Char} {field : String × Json}
    (h : readField value input = .ok (field, rest)) : field.2.Legible := by
  obtain ⟨⟨key, after⟩, -, h⟩ := Steps.bind_eq_ok_iff.1 h
  dsimp only at h
  split at h
  · cases h
  · obtain ⟨⟨found, last⟩, hfound, h⟩ := Steps.bind_eq_ok_iff.1 h
    cases h
    exact hvalue _ _ _ hfound
  · cases h

/-- Fields are legible if every value is. -/
lemma legible_readFields {fuel : Nat} {input rest : List Char} {fields : List (String × Json)}
    (h : readFields value fuel input = .ok (fields, rest)) : LegibleFields fields := by
  induction fuel generalizing input fields with
  | zero => cases h
  | succ fuel ih =>
    unfold readFields at h
    split at h
    · cases h
    · cases h
      trivial
    · split at h
      · cases h
      · obtain ⟨⟨field, after⟩, hfield, h⟩ := Steps.bind_eq_ok_iff.1 h
        obtain ⟨⟨more, last⟩, hmore, h⟩ := Steps.bind_eq_ok_iff.1 h
        cases h
        exact ⟨legible_readField hvalue hfield, ih hmore⟩
      · cases h
      · cases h
    · cases h

/-- An object is legible if every value is: of a key that is written twice one value counts. -/
lemma yieldsLegible_readObject (input : List Char) : YieldsLegible (readObject value input) := by
  intro document rest h
  unfold readObject at h
  split at h
  · cases h
  · cases h
    exact ⟨List.nodup_nil, trivial⟩
  · obtain ⟨⟨field, after⟩, hfield, h⟩ := Steps.bind_eq_ok_iff.1 h
    obtain ⟨⟨fields, last⟩, hfields, h⟩ := Steps.bind_eq_ok_iff.1 h
    cases h
    have hall : LegibleFields (field :: fields) :=
      ⟨legible_readField hvalue hfield, legible_readFields hvalue hfields⟩
    refine ⟨OrderedMap.uniqueKeys_ofList _, legibleFields_iff.2 fun entry hentry => ?_⟩
    exact legibleFields_iff.1 hall entry
      ((OrderedMap.mem_of_mem_extend hentry).resolve_left List.not_mem_nil)
  · cases h

end Parts

/-! ## Documents -/

/-- A value is legible if lists and objects are. -/
lemma yieldsLegible_readWith {array object : Reader} (harray : ∀ input, YieldsLegible (array input))
    (hobject : ∀ input, YieldsLegible (object input)) (input : List Char) :
    YieldsLegible (readWith array object input) := by
  unfold readWith
  split
  · exact yields_error _
  · split_ifs
    · exact yields_readWord (by trivial) _ _
    · exact yields_readWord (by trivial) _ _
    · exact yields_readWord (by trivial) _ _
    · exact yields_readNumber (fun _ => trivial) (fun _ hfits => hfits) _ _
    · exact yields_readNumber (fun _ => trivial) (fun _ hfits => hfits) _ _
    · intro document rest h
      obtain ⟨⟨text, after⟩, -, h⟩ := Steps.bind_eq_ok_iff.1 h
      cases h
      trivial
    · exact harray _
    · exact hobject _
    · exact yields_error _

/-- Reading a value yields legible documents. -/
lemma yieldsLegible_readValue (depth : Nat) (input : List Char) :
    YieldsLegible (readValue depth input) := by
  induction depth generalizing input with
  | zero =>
    exact yieldsLegible_readWith (fun _ => yields_error _) (fun _ => yields_error _)
      input
  | succ depth ih =>
    exact yieldsLegible_readWith (fun _ => yieldsLegible_readArray ih _)
      (fun _ => yieldsLegible_readObject ih _) input

/-- Reading a text yields a legible document. -/
lemma legible_of_parse {text : String} {document : Json} (h : parse text = .ok document) :
    document.Legible := by
  obtain ⟨⟨found, rest⟩, hfound, hrest⟩ := Steps.bind_eq_ok_iff.1 (Steps.mapError_eq_ok_iff.1 h)
  dsimp only at hrest
  split at hrest
  · cases hrest
    exact yieldsLegible_readValue maxDepth _ _ _ hfound
  · cases hrest

end LayeredProfiles.Json
