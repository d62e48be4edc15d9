import LayeredProfiles.Number.Shortest
import LayeredProfiles.OrderedMap

set_option autoImplicit false

/-!
# Documents

A document is a JSON value whose objects remember the order of their keys. Whole numbers stay
whole; every other number is a double precision number.

## Main definitions

* `Json` — a document.
* `Json.decEq` — equality of documents is decidable: same keys in the same order, same numbers.
* `Json.agrees` — equality up to the order of keys and the spelling of numbers.
* `Json.Tidy` — no object in the document has a key twice.

## Main results

* `Json.tidy_object_append` — when fields make a tidy object together.

## Implementation notes

An object is a list of entries and not a map, so that a document can be taken apart by recursion.
Reading a text yields tidy documents only.
-/

namespace LayeredProfiles

/-- A document. -/
inductive Json where
  /-- The value `null`. -/
  | null
  /-- A truth value. -/
  | bool (value : Bool)
  /-- A whole number, from `-2 ^ 63` to `2 ^ 64 - 1` if it was read. -/
  | integer (value : Int)
  /-- Any other number. -/
  | double (value : Binary64)
  /-- A string. -/
  | text (value : String)
  /-- A list. -/
  | array (items : List Json)
  /-- An object, its keys in order. -/
  | object (fields : List (String × Json))
deriving Repr

namespace Json

instance : Inhabited Json := ⟨.null⟩

/-! ## Equality -/

mutual

/-- Equality of documents. -/
def decEq : (a b : Json) → Decidable (a = b)
  | .null, .null => isTrue rfl
  | .bool a, .bool b => if h : a = b then isTrue (h ▸ rfl) else isFalse fun e => h (Json.bool.inj e)
  | .integer a, .integer b =>
    if h : a = b then isTrue (h ▸ rfl) else isFalse fun e => h (Json.integer.inj e)
  | .double a, .double b =>
    if h : a = b then isTrue (h ▸ rfl) else isFalse fun e => h (Json.double.inj e)
  | .text a, .text b => if h : a = b then isTrue (h ▸ rfl) else isFalse fun e => h (Json.text.inj e)
  | .array a, .array b =>
    match decEqItems a b with
    | isTrue h => isTrue (h ▸ rfl)
    | isFalse h => isFalse fun e => h (Json.array.inj e)
  | .object a, .object b =>
    match decEqFields a b with
    | isTrue h => isTrue (h ▸ rfl)
    | isFalse h => isFalse fun e => h (Json.object.inj e)
  | .null, .bool _ | .null, .integer _ | .null, .double _ | .null, .text _ | .null, .array _
  | .null, .object _ => isFalse nofun
  | .bool _, .null | .bool _, .integer _ | .bool _, .double _ | .bool _, .text _
  | .bool _, .array _ | .bool _, .object _ => isFalse nofun
  | .integer _, .null | .integer _, .bool _ | .integer _, .double _ | .integer _, .text _
  | .integer _, .array _ | .integer _, .object _ => isFalse nofun
  | .double _, .null | .double _, .bool _ | .double _, .integer _ | .double _, .text _
  | .double _, .array _ | .double _, .object _ => isFalse nofun
  | .text _, .null | .text _, .bool _ | .text _, .integer _ | .text _, .double _
  | .text _, .array _ | .text _, .object _ => isFalse nofun
  | .array _, .null | .array _, .bool _ | .array _, .integer _ | .array _, .double _
  | .array _, .text _ | .array _, .object _ => isFalse nofun
  | .object _, .null | .object _, .bool _ | .object _, .integer _ | .object _, .double _
  | .object _, .text _ | .object _, .array _ => isFalse nofun

/-- Equality of lists of documents. -/
def decEqItems : (a b : List Json) → Decidable (a = b)
  | [], [] => isTrue rfl
  | [], _ :: _ => isFalse nofun
  | _ :: _, [] => isFalse nofun
  | a :: as, b :: bs =>
    match decEq a b, decEqItems as bs with
    | isTrue h, isTrue t => isTrue (h ▸ t ▸ rfl)
    | isFalse h, _ => isFalse fun e => h (List.cons.inj e).1
    | _, isFalse t => isFalse fun e => t (List.cons.inj e).2

/-- Equality of lists of fields. -/
def decEqFields : (a b : List (String × Json)) → Decidable (a = b)
  | [], [] => isTrue rfl
  | [], _ :: _ => isFalse nofun
  | _ :: _, [] => isFalse nofun
  | (k, a) :: as, (l, b) :: bs =>
    if hk : k = l then
      match decEq a b, decEqFields as bs with
      | isTrue h, isTrue t => isTrue (hk ▸ h ▸ t ▸ rfl)
      | isFalse h, _ => isFalse fun e => h (Prod.mk.inj (List.cons.inj e).1).2
      | _, isFalse t => isFalse fun e => t (List.cons.inj e).2
    else isFalse fun e => hk (Prod.mk.inj (List.cons.inj e).1).1

end

instance : DecidableEq Json := decEq

/-- The whole number that a number denotes, if it denotes one. -/
def wholeValue? : Json → Option Int
  | .integer i => some i
  | .double x =>
    if x.isWhole then
      let n : Int := x.num / x.den
      some (if x.negative then -n else n)
    else none
  | _ => none

mutual

/-- Equality up to the order of keys and the spelling of numbers: `1` and `1.0` agree. -/
def agrees : Json → Json → Bool
  | .null, .null => true
  | .bool a, .bool b => a == b
  | .integer a, b => b.wholeValue? == some a
  | .double a, .integer b => wholeValue? (.double a) == some b
  | .double a, .double b => a == b || (a.isZero && b.isZero)
  | .text a, .text b => a == b
  | .array a, .array b => agreesItems a b
  | .object a, .object b => a.length == b.length && agreesFields a b
  | _, _ => false

/-- Lists agree item by item. -/
def agreesItems : List Json → List Json → Bool
  | [], [] => true
  | a :: as, b :: bs => agrees a b && agreesItems as bs
  | _, _ => false

/-- Every field on the left has an agreeing one on the right. -/
def agreesFields : List (String × Json) → List (String × Json) → Bool
  | [], _ => true
  | (k, a) :: rest, fields =>
    (match OrderedMap.get? fields k with
      | some b => agrees a b
      | none => false) && agreesFields rest fields

end

/-! ## Parts -/

/-- The fields of an object. -/
def fields? : Json → Option (OrderedMap String Json)
  | .object fields => some fields
  | _ => none

/-- The text of a string. -/
def text? : Json → Option String
  | .text value => some value
  | _ => none

/-- The texts of a list that holds strings only. -/
def texts? : Json → Option (List String)
  | .array items => items.mapM text?
  | _ => none

/-- Only objects have fields. -/
theorem fields?_eq_some_iff {document : Json} {fields : OrderedMap String Json} :
    document.fields? = some fields ↔ document = .object fields := by
  cases document <;> simp [fields?]

/-- Only strings have a text. -/
theorem text?_eq_some_iff {document : Json} {text : String} :
    document.text? = some text ↔ document = .text text := by
  cases document <;> simp [text?]

/-- The list of the given strings. -/
def ofTexts (texts : List String) : Json :=
  .array (texts.map .text)

mutual

/-- No object in the document has a key twice. -/
def Tidy : Json → Prop
  | .array items => TidyItems items
  | .object fields => OrderedMap.UniqueKeys fields ∧ TidyFields fields
  | _ => True

/-- Every item is tidy. -/
def TidyItems : List Json → Prop
  | [] => True
  | item :: rest => Tidy item ∧ TidyItems rest

/-- Every field's value is tidy. -/
def TidyFields : List (String × Json) → Prop
  | [] => True
  | field :: rest => Tidy field.2 ∧ TidyFields rest

end

/-- Items are tidy if each of them is. -/
theorem tidyItems_iff {items : List Json} : TidyItems items ↔ ∀ item ∈ items, Tidy item := by
  induction items with
  | nil => simp [TidyItems]
  | cons item rest ih => simp [TidyItems, ih]

/-- Fields are tidy if the value of each of them is. -/
theorem tidyFields_iff {fields : List (String × Json)} :
    TidyFields fields ↔ ∀ field ∈ fields, Tidy field.2 := by
  induction fields with
  | nil => simp [TidyFields]
  | cons field rest ih => simp [TidyFields, ih]

/-- Fields with different keys make a tidy object together if they do so separately. -/
theorem tidy_object_append {fields more : List (String × Json)} (h : Tidy (.object fields))
    (hmore : Tidy (.object more))
    (hapart : ∀ key ∈ OrderedMap.keys fields, key ∉ OrderedMap.keys more) :
    Tidy (.object (fields ++ more)) := by
  refine ⟨?_, tidyFields_iff.2 fun field hfield => ?_⟩
  · unfold OrderedMap.UniqueKeys OrderedMap.keys at *
    rw [List.map_append, List.nodup_append]
    exact ⟨h.1, hmore.1, fun key hkey other hother hsame => hapart key hkey (hsame ▸ hother)⟩
  · rcases List.mem_append.1 hfield with hmem | hmem
    · exact tidyFields_iff.1 h.2 field hmem
    · exact tidyFields_iff.1 hmore.2 field hmem

/-- The values of a tidy object are tidy. -/
theorem Tidy.of_mem {fields : List (String × Json)} (h : (Json.object fields).Tidy)
    {field : String × Json} (hfield : field ∈ fields) : field.2.Tidy :=
  tidyFields_iff.1 h.2 field hfield

/-- A tidy object stays one when fields are left out. -/
theorem Tidy.filter {fields : List (String × Json)} (h : (Json.object fields).Tidy)
    (test : String × Json → Bool) : (Json.object (fields.filter test)).Tidy :=
  ⟨OrderedMap.uniqueKeys_filter h.1 test,
    tidyFields_iff.2 fun _ hfield => h.of_mem (List.mem_filter.1 hfield).1⟩

/-- Own fields, whose keys are among some names, and other fields, whose keys are not, make a tidy
object together. -/
theorem tidy_object_of_own (names : List String) (own : List (String × Json))
    {extra : List (String × Json)} (hnames : names.Nodup)
    (hkeys : (OrderedMap.keys own).Sublist names) (hvalues : ∀ field ∈ own, field.2.Tidy)
    (hextra : (Json.object extra).Tidy) (hapart : ∀ field ∈ extra, field.1 ∉ names) :
    (Json.object (own ++ extra)).Tidy := by
  refine tidy_object_append ⟨hnames.sublist hkeys, tidyFields_iff.2 hvalues⟩ hextra ?_
  intro key hkey hother
  obtain ⟨value, hfield⟩ := OrderedMap.mem_keys_iff.1 hother
  exact hapart _ hfield (hkeys.subset hkey)

end Json

end LayeredProfiles
