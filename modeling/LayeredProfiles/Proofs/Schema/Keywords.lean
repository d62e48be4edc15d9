import LayeredProfiles.Proofs.Steps
import LayeredProfiles.Schema.Violation

set_option autoImplicit false

/-!
# What keywords ask of acceptable values

Whoever checks documents against schemas has to follow the rules of the keywords: the value of a
field satisfies the schema that is kept for its key, an item satisfies the schema of the items unless
there is a schema for its position, a key satisfies the schema of the keys, and a value is one of its
options. These rules speak about the document that holds the schema. Checking with the schema that was
read from the document follows them, whatever other keywords there are.

## Main definitions

* `Schema.positional` — how many items of a list have schemas for their positions.
* `Schema.Respects` — a notion of acceptance follows the rules of the keywords.
* `Schema.Accepts` — the schema that a document holds finds nothing wrong with a value.

## Main results

* `Schema.reflects_readParts` — reading a schema takes these keywords over.
* `Schema.keywordViolations_eq_nil` — no keyword finds anything wrong with an acceptable value.
* `Schema.respects_accepts` — checking with a schema follows the rules of the keywords.
-/

namespace LayeredProfiles.Schema

/-! ## The rules of the keywords -/

/-- The number of schemas in a list of schemas, if there is one. -/
def headCount : Option Json → Nat
  | some (.array heads) => heads.length
  | _ => 0

/-- The number of items of a list for whose positions the fields of a document hold schemas. -/
def positional (schema : OrderedMap String Json) : Nat :=
  headCount (OrderedMap.get? schema "prefixItems")

/-- A notion of acceptance, of a value by the document that holds a schema, follows the rules of
`properties`, `items`, `propertyNames` and `enum`. -/
structure Respects (accepts : Json → Json → Prop) : Prop where
  /-- The value of a field satisfies the schema that is kept for its key. -/
  properties : ∀ {schema table fields : OrderedMap String Json} {key : String} {inner value : Json},
    accepts (.object schema) (.object fields) →
      OrderedMap.get? schema "properties" = some (.object table) →
      OrderedMap.get? table key = some inner → OrderedMap.get? fields key = some value →
        accepts inner value
  /-- An item behind those that have schemas for their positions satisfies the schema of the items. -/
  items : ∀ {schema : OrderedMap String Json} {values : List Json} {inner item : Json},
    accepts (.object schema) (.array values) → OrderedMap.get? schema "items" = some inner →
      item ∈ values.drop (positional schema) → accepts inner item
  /-- A key satisfies the schema of the keys. -/
  propertyNames : ∀ {schema fields : OrderedMap String Json} {key : String} {inner : Json},
    accepts (.object schema) (.object fields) →
      OrderedMap.get? schema "propertyNames" = some inner → key ∈ OrderedMap.keys fields →
        accepts inner (.text key)
  /-- A value is one of its options, up to the order of keys and the spelling of numbers. -/
  options : ∀ {schema : OrderedMap String Json} {value : Json} {values : List Json},
    accepts (.object schema) value → OrderedMap.get? schema "enum" = some (.array values) →
      ∃ option ∈ values, value.agrees option = true

/-- The schema that a document holds finds nothing wrong with a value. -/
def Accepts (document value : Json) : Prop :=
  ∃ schema, ofJson? document = some schema ∧ schema.violations value = []

/-! ## Reading a schema -/

/-- The parts of a schema are the values that its document has under these keywords. -/
structure Parts.Reflects (fields : OrderedMap String Json) (parts : Parts) : Prop where
  /-- The options are those that the document lists. -/
  options : ∀ values, OrderedMap.get? fields "enum" = some (.array values) →
    parts.options = some values
  /-- The table is the one that the document holds. -/
  properties : ∀ written, OrderedMap.get? fields "properties" = some (.object written) →
    ∃ table, readTable written = some table ∧ parts.properties = some table
  /-- The schema of the keys is the one that the document holds. -/
  propertyNames : ∀ value, OrderedMap.get? fields "propertyNames" = some value →
    ∃ schema, ofJson? value = some schema ∧ parts.propertyNames = some schema
  /-- The schema of the items is the one that the document holds. -/
  items : ∀ value, OrderedMap.get? fields "items" = some value →
    ∃ schema, ofJson? value = some schema ∧ parts.items = some schema
  /-- As many items are checked by their positions as the document has schemas for positions. -/
  positional : parts.positional = Schema.positional fields

/-- The keywords whose values a schema reflects. -/
def reflectedKeys : List String := ["enum", "properties", "propertyNames", "items", "prefixItems"]

/-- A field under another keyword does not matter to what is reflected. -/
lemma Parts.Reflects.cons {rest : OrderedMap String Json} {before after : Parts}
    {field : String × Json} (h : before.Reflects rest) (hkey : field.1 ∉ reflectedKeys)
    (hafter : after.options = before.options ∧ after.properties = before.properties ∧
      after.propertyNames = before.propertyNames ∧ after.items = before.items ∧
      after.prefixItems = before.prefixItems) :
    after.Reflects (field :: rest) := by
  have hskip : ∀ key ∈ reflectedKeys,
      OrderedMap.get? (field :: rest) key = OrderedMap.get? rest key :=
    fun key hmem => if_neg fun heq : field.1 = key => hkey (heq ▸ hmem)
  constructor
  · rw [hskip "enum" (by decide), hafter.1]
    exact h.options
  · rw [hskip "properties" (by decide), hafter.2.1]
    exact h.properties
  · rw [hskip "propertyNames" (by decide), hafter.2.2.1]
    exact h.propertyNames
  · rw [hskip "items" (by decide), hafter.2.2.2.1]
    exact h.items
  · rw [Parts.positional, Schema.positional, hskip "prefixItems" (by decide), hafter.2.2.2.2]
    exact h.positional

/-- A list of schemas has as many of them as the document has. -/
lemma length_readList {written : List Json} {heads : List Schema}
    (h : readList written = some heads) : heads.length = written.length := by
  induction written generalizing heads with
  | nil =>
    obtain rfl := Option.some.inj h
    rfl
  | cons value rest ih =>
    rw [readList] at h
    obtain ⟨schema, -, h⟩ := Option.bind_eq_some_iff.1 h
    obtain ⟨more, hmore, h⟩ := Option.bind_eq_some_iff.1 h
    obtain rfl := Option.some.inj h
    exact congrArg (· + 1) (ih hmore)

/-- Reading a schema takes these keywords over. -/
lemma reflects_readParts {fields : OrderedMap String Json} {parts : Parts}
    (h : readParts fields = some parts) : parts.Reflects fields := by
  induction fields generalizing parts with
  | nil =>
    obtain rfl := Option.some.inj h
    exact ⟨nofun, nofun, nofun, nofun, rfl⟩
  | cons field rest ih =>
    obtain ⟨key, value⟩ := field
    rw [readParts] at h
    obtain ⟨before, hbefore, h⟩ := Option.bind_eq_some_iff.1 h
    have hrest := ih hbefore
    split at h
    case h_2 =>
      obtain ⟨values, hvalues, rfl⟩ := Option.map_eq_some_iff.1 h
      refine ⟨fun listed hlisted => ?_, hrest.properties, hrest.propertyNames, hrest.items,
        hrest.positional⟩
      obtain rfl := Option.some.inj hlisted
      exact hvalues.symm
    case h_6 =>
      split at h
      · next written =>
        obtain ⟨table, htable, rfl⟩ := Option.map_eq_some_iff.1 h
        refine ⟨hrest.options, fun found hfound => ?_, hrest.propertyNames, hrest.items,
          hrest.positional⟩
        obtain rfl := Json.object.inj (Option.some.inj hfound)
        exact ⟨table, htable, rfl⟩
      · cases h
    case h_8 =>
      obtain ⟨names, hnames, rfl⟩ := Option.map_eq_some_iff.1 h
      refine ⟨hrest.options, hrest.properties, fun found hfound => ?_, hrest.items,
        hrest.positional⟩
      obtain rfl := Option.some.inj hfound
      exact ⟨names, hnames, rfl⟩
    case h_9 =>
      split at h
      · obtain ⟨heads, hheads, rfl⟩ := Option.map_eq_some_iff.1 h
        exact ⟨hrest.options, hrest.properties, hrest.propertyNames, hrest.items,
          length_readList hheads⟩
      · cases h
    case h_10 =>
      obtain ⟨each, heach, rfl⟩ := Option.map_eq_some_iff.1 h
      refine ⟨hrest.options, hrest.properties, hrest.propertyNames, fun found hfound => ?_,
        hrest.positional⟩
      obtain rfl := Option.some.inj hfound
      exact ⟨each, heach, rfl⟩
    case h_11 h1 h2 h3 h4 h5 h6 h7 h8 h9 h10 =>
      obtain rfl := Option.some.inj h
      exact hrest.cons (by simpa [reflectedKeys] using ⟨h2, h6, h8, h10, h9⟩)
        ⟨rfl, rfl, rfl, rfl, rfl⟩
    -- what is left are the keywords that say nothing about keys, options, fields or items
    all_goals
      obtain ⟨_, -, rfl⟩ := Option.map_eq_some_iff.1 h
      exact hrest.cons (by simp [reflectedKeys]) ⟨rfl, rfl, rfl, rfl, rfl⟩

/-- A schema in an object consists of the keywords of the object. -/
lemma exists_parts_of_ofJson? {fields : OrderedMap String Json} {schema : Schema}
    (h : ofJson? (.object fields) = some schema) :
    ∃ parts : Parts, schema = .all parts.keywords ∧ parts.Reflects fields := by
  rw [ofJson?] at h
  obtain ⟨parts, hparts, rfl⟩ := Option.map_eq_some_iff.1 h
  exact ⟨parts, rfl, reflects_readParts hparts⟩

/-- What stands in a table of schemas is the schema of what stands in the document. -/
lemma get?_readTable {written : OrderedMap String Json} {table : List (String × Schema)}
    (h : readTable written = some table) {key : String} {inner : Json}
    (hget : OrderedMap.get? written key = some inner) :
    ∃ schema, ofJson? inner = some schema ∧ OrderedMap.get? table key = some schema := by
  induction written generalizing table with
  | nil => cases hget
  | cons field rest ih =>
    obtain ⟨k, value⟩ := field
    rw [readTable] at h
    obtain ⟨first, hfirst, h⟩ := Option.bind_eq_some_iff.1 h
    obtain ⟨more, hmore, h⟩ := Option.bind_eq_some_iff.1 h
    obtain rfl := Option.some.inj h
    by_cases hk : k = key
    · rw [OrderedMap.get?, if_pos hk, Option.some.injEq] at hget
      subst hget
      exact ⟨first, hfirst, if_pos hk⟩
    · rw [OrderedMap.get?, if_neg hk] at hget
      obtain ⟨schema, hschema, hfound⟩ := ih hmore hget
      exact ⟨schema, hschema, (if_neg hk).trans hfound⟩

/-! ## Checking a value -/

/-- A value satisfies keywords if it satisfies each of them. -/
lemma allViolations_eq_nil_iff {keywords : List Keyword} {value : Json} :
    allViolations keywords value = [] ↔
      ∀ keyword ∈ keywords, keywordViolations keyword value = [] := by
  induction keywords with
  | nil => simp [allViolations]
  | cons keyword rest ih => simp [allViolations, List.append_eq_nil_iff, ih]

/-- A keyword of a schema finds nothing wrong with a value that the schema accepts. -/
lemma keywordViolations_eq_nil {parts : Parts} {value : Json}
    (h : violations (.all parts.keywords) value = []) (keyword : Keyword)
    (hmem : some keyword ∈ [parts.kinds.map .kinds, parts.options.map .options,
      parts.minLength.map .minLength, parts.minItems.map .minItems, parts.required.map .required,
      parts.fields, parts.propertyNames.map .propertyNames, parts.prefixItems.map .prefixItems,
      parts.items.map (.items parts.positional)]) :
    keywordViolations keyword value = [] := by
  rw [violations] at h
  exact allViolations_eq_nil_iff.1 h keyword (List.mem_filterMap.2 ⟨_, hmem, rfl⟩)

/-- The check of a key is the check of the schema that is kept for the key. -/
lemma get?_tabulated (table : List (String × Schema)) (key : String) :
    OrderedMap.get? (tabulated table) key = (OrderedMap.get? table key).map violations := by
  induction table with
  | nil => rfl
  | cons entry rest ih =>
    obtain ⟨k, schema⟩ := entry
    by_cases hk : k = key <;> simp [tabulated, OrderedMap.get?, hk, ih]

/-- Checking fields by a table checks the value of a field by the check of its key. -/
lemma eq_nil_of_checkTable {table : List (String × Check)} {fields : OrderedMap String Json}
    (h : checkTable table (.object fields) = []) {key : String} {check : Check} {value : Json}
    (hcheck : OrderedMap.get? table key = some check)
    (hvalue : OrderedMap.get? fields key = some value) : check value = [] := by
  have hentry := List.flatMap_eq_nil_iff.1 h (key, check) (OrderedMap.mem_of_get? hcheck)
  simpa [hvalue] using hentry

/-- So does checking the fields in their order. -/
lemma eq_nil_of_checkFields {table : List (String × Check)} {rest : Check}
    {fields : OrderedMap String Json} (h : checkFields table rest (.object fields) = [])
    {key : String} {check : Check} {value : Json}
    (hcheck : OrderedMap.get? table key = some check)
    (hvalue : OrderedMap.get? fields key = some value) : check value = [] := by
  have hfield := List.flatMap_eq_nil_iff.1 h (key, value) (OrderedMap.mem_of_get? hvalue)
  simpa [hcheck] using hfield

/-- Checking the keys of an object checks each of them. -/
lemma violations_eq_nil_of_checkNames {names : Schema} {fields : OrderedMap String Json}
    (h : checkNames names (violations names) (.object fields) = []) {key : String}
    (hkey : key ∈ OrderedMap.keys fields) : violations names (.text key) = [] := by
  obtain ⟨value, hfield⟩ := OrderedMap.mem_keys_iff.1 hkey
  unfold checkNames at h
  split at h
  · next hempty =>
    cases hempty
    cases hfield
  · next hfields =>
    cases hfields
    split at h
    · cases h
    · exact List.flatMap_eq_nil_iff.1 h _ hfield
  · next hother => exact absurd rfl (hother fields)

/-- Whatever a schema says about the other fields, the value of a field that is in its table satisfies
the schema that is kept for its key. -/
lemma violations_eq_nil_of_properties {parts : Parts} {table : List (String × Schema)}
    {fields : OrderedMap String Json} (h : violations (.all parts.keywords) (.object fields) = [])
    (htable : parts.properties = some table) {key : String} {schema : Schema} {value : Json}
    (hschema : OrderedMap.get? table key = some schema)
    (hvalue : OrderedMap.get? fields key = some value) : schema.violations value = [] := by
  have hcheck : OrderedMap.get? (tabulated table) key = some schema.violations := by
    rw [get?_tabulated, hschema, Option.map_some]
  have hkeyword : ∀ keyword, parts.fields = some keyword →
      keywordViolations keyword (.object fields) = [] :=
    fun keyword hfields => keywordViolations_eq_nil h keyword (by simp [hfields])
  -- what is said about the other fields decides which keyword the table is part of
  unfold Parts.fields at hkeyword
  rw [htable] at hkeyword
  cases hothers : parts.others with
  | none =>
    rw [hothers] at hkeyword
    exact eq_nil_of_checkTable (hkeyword (.properties table) rfl) hcheck hvalue
  | some rest =>
    rw [hothers] at hkeyword
    cases rest with
    | anything => exact eq_nil_of_checkTable (hkeyword (.properties table) rfl) hcheck hvalue
    | nothing =>
      have hboth := List.append_eq_nil_iff.1 (hkeyword (.noOthers table) rfl)
      exact eq_nil_of_checkFields hboth.1 hcheck hvalue
    | all keywords =>
      exact eq_nil_of_checkFields (hkeyword (.others table (.all keywords)) rfl) hcheck hvalue

/-- **Checking with a schema follows the rules of the keywords**, whatever else the document says.

**Proof sketch.** Reading takes these keywords over (`reflects_readParts`), and a value that is
acceptable satisfies each keyword of the schema (`keywordViolations_eq_nil`). -/
theorem respects_accepts : Respects Accepts where
  properties := by
    rintro schema table fields key inner value ⟨whole, hwhole, haccepts⟩ htable hinner hvalue
    obtain ⟨parts, rfl, hparts⟩ := exists_parts_of_ofJson? hwhole
    obtain ⟨schemas, hschemas, hproperties⟩ := hparts.properties table htable
    obtain ⟨found, hfound, hget⟩ := get?_readTable hschemas hinner
    exact ⟨found, hfound, violations_eq_nil_of_properties haccepts hproperties hget hvalue⟩
  items := by
    rintro schema values inner item ⟨whole, hwhole, haccepts⟩ hinner hitem
    obtain ⟨parts, rfl, hparts⟩ := exists_parts_of_ofJson? hwhole
    obtain ⟨each, heach, hitems⟩ := hparts.items inner hinner
    have hcheck := keywordViolations_eq_nil haccepts (.items parts.positional each)
      (by simp [hitems])
    rw [← hparts.positional] at hitem
    exact ⟨each, heach, List.flatMap_eq_nil_iff.1 hcheck item hitem⟩
  propertyNames := by
    rintro schema fields key inner ⟨whole, hwhole, haccepts⟩ hinner hkey
    obtain ⟨parts, rfl, hparts⟩ := exists_parts_of_ofJson? hwhole
    obtain ⟨names, hnames, hkeys⟩ := hparts.propertyNames inner hinner
    have hcheck := keywordViolations_eq_nil haccepts (.propertyNames names) (by simp [hkeys])
    exact ⟨names, hnames, violations_eq_nil_of_checkNames hcheck hkey⟩
  options := by
    rintro schema value values ⟨whole, hwhole, haccepts⟩ hvalues
    obtain ⟨parts, rfl, hparts⟩ := exists_parts_of_ofJson? hwhole
    have hcheck := keywordViolations_eq_nil haccepts (.options values)
      (by simp [hparts.options values hvalues])
    unfold keywordViolations checkOptions at hcheck
    split at hcheck
    · next hany => exact List.any_eq_true.1 hany
    · cases hcheck

end LayeredProfiles.Schema
