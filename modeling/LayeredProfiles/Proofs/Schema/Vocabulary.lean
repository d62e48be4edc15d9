import LayeredProfiles.Config.Basic
import LayeredProfiles.Proofs.Chain.Lookups
import LayeredProfiles.Proofs.Fragment.Reading
import LayeredProfiles.Proofs.Layers.Origins
import LayeredProfiles.Proofs.Schema.InPlace
import LayeredProfiles.Proofs.Schema.Keywords

set_option autoImplicit false

/-!
# Accepted fragments use the vocabulary of the library

The conventional place of the enumeration in a schema is the list of options for the keys of the
parameters in the items of a table. So a schema that was brought in line with a library accepts only
fragments whose parameters are in the library, as far as they write their tables as lists. Merging
adds no parameter to what the fragments of a chain carry, so the library has whatever a chain of
accepted fragments amounts to.

Items for whose positions the schema holds schemas of their own are not checked at the conventional
place: in such an entry of a table any name is accepted.

## Main definitions

* `FragmentSource.reading` — the source that reads texts.
* `Schema.positionalEntries` — how many entries of a table are checked by their positions.
* `Fragment.WritesList` — a text writes its table of requests as a list, if it has one.
* `Fragment.BareBefore` — the first entries of a table carry no parameters.
* `Schema.AcceptsText` — a text is accepted.
* `Resolution.Reads` — the texts that were read for a fragment and its ancestors.

## Main results

* `Schema.mem_names_of_accepts` — the place of the enumeration is where the keys of parameters are
  checked.
* `Fragment.mem_names_of_carries` — an accepted fragment carries parameters of the library only.
* `Schema.accepted_chain_known` — joining what an accepted chain amounts to with the library never
  fails because of an unknown parameter.
* `Schema.positional_entry_unknown` — an entry that is checked by its position may use any name.
-/

namespace LayeredProfiles

/-- The source that reads the texts that are kept under keys. -/
def FragmentSource.reading (texts : Path → Except Failure String) : FragmentSource := fun key => do
  Fragment.parse key (← texts key)

/-- A text writes its table of requests as a list, if it has one. -/
def Fragment.WritesList (text : String) : Prop :=
  ∀ fields value, Json.parse text = .ok (.object fields) →
    OrderedMap.get? fields "pids" = some value → ∃ items, value = .array items

/-- The first entries of a table that a text writes as a list, as many as given, carry no
parameters. -/
def Fragment.BareBefore (n : Nat) (text : String) : Prop :=
  ∀ fields items inner written, Json.parse text = .ok (.object fields) →
    OrderedMap.get? fields "pids" = some (.array items) → .object inner ∈ items.take n →
      OrderedMap.get? inner "parameters" = some (.object written) → written = []

/-- The number of entries of a table for whose positions a document holds schemas. -/
def Schema.positionalEntries (document : Json) : Nat :=
  headCount (Enumeration.valueAt? ["properties", "pids", "prefixItems"] document)

/-- A text is accepted by the document that holds a schema. -/
def Schema.AcceptsText (accepts : Json → Json → Prop) (schema : Json) (text : String) : Prop :=
  ∃ document, Json.parse text = .ok document ∧ accepts schema document

/-- A text was read to resolve a leaf: it is the leaf's, or that of one of its ancestors. -/
def Resolution.Reads (texts : Path → Except Failure String) (leafText : String)
    (resolution : Resolution) (text : String) : Prop :=
  text = leafText ∨ ∃ ancestor ∈ resolution.chain.tail, texts ancestor = .ok text

/-! ## The place of the enumeration -/

/-- What stands at the end of a path stands in the object that the path enters first. -/
lemma Enumeration.exists_of_valueAt?_cons {segment : String} {rest : List String}
    {document value : Json} (h : valueAt? (segment :: rest) document = some value) :
    ∃ fields inner, document = .object fields ∧ OrderedMap.get? fields segment = some inner ∧
      valueAt? rest inner = some value := by
  cases document with
  | object fields =>
    obtain ⟨inner, hinner, hrest⟩ := Option.bind_eq_some_iff.1 h
    exact ⟨fields, inner, rfl, hinner, hrest⟩
  | _ => cases h

namespace Schema

/-- The segments of the conventional place of the enumeration. -/
def vocabularyPath : List String :=
  ["properties", "pids", "items", "properties", "parameters", "propertyNames", "enum"]

/-- The conventional place leads to the options for the keys of parameters. -/
lemma segments_schemaEnumPath :
    Enumeration.segments BuildConfig.default.schemaEnumPath = vocabularyPath := by
  decide

variable {accepts : Json → Json → Prop} {names : List String}

section Steps

variable {schema value : Json} {rest : List String}

/-- A path that starts at a key of the fields leads on from the schema of the field's value. -/
lemma Respects.enter_property (h : Respects accepts) {key : String}
    {fields : OrderedMap String Json} {inner : Json}
    (hpath : Enumeration.valueAt? ("properties" :: key :: rest) schema = some value)
    (haccepts : accepts schema (.object fields)) (hinner : OrderedMap.get? fields key = some inner) :
    ∃ next, Enumeration.valueAt? ["properties", key] schema = some next ∧ accepts next inner ∧
      Enumeration.valueAt? rest next = some value := by
  obtain ⟨keywords, table, rfl, htable, hpath⟩ := Enumeration.exists_of_valueAt?_cons hpath
  obtain ⟨entries, next, rfl, hnext, hrest⟩ := Enumeration.exists_of_valueAt?_cons hpath
  refine ⟨next, ?_, h.properties haccepts htable hnext hinner, hrest⟩
  simp [Enumeration.valueAt?, htable, hnext]

/-- A path that starts at the items leads on from the schema of an item behind those that are checked
by their positions. -/
lemma Respects.enter_item (h : Respects accepts) {fields : OrderedMap String Json}
    {items : List Json} {item : Json}
    (hpath : Enumeration.valueAt? ("items" :: rest) (.object fields) = some value)
    (haccepts : accepts (.object fields) (.array items)) (hitem : item ∈ items.drop (positional fields)) :
    ∃ next, accepts next item ∧ Enumeration.valueAt? rest next = some value := by
  obtain ⟨next, hnext, hrest⟩ := Option.bind_eq_some_iff.1 hpath
  exact ⟨next, h.items haccepts hnext hitem, hrest⟩

/-- A path that starts at the keys leads on from the schema of a key. -/
lemma Respects.enter_key (h : Respects accepts) {fields : OrderedMap String Json} {key : String}
    (hpath : Enumeration.valueAt? ("propertyNames" :: rest) schema = some value)
    (haccepts : accepts schema (.object fields)) (hkey : key ∈ OrderedMap.keys fields) :
    ∃ next, accepts next (.text key) ∧ Enumeration.valueAt? rest next = some value := by
  obtain ⟨keywords, next, rfl, hnext, hrest⟩ := Enumeration.exists_of_valueAt?_cons hpath
  exact ⟨next, h.propertyNames haccepts hnext hkey, hrest⟩

/-- A text that is one of several listed names is listed. -/
lemma Respects.mem_names (h : Respects accepts) {name : String}
    (hpath : Enumeration.valueAt? ["enum"] schema = some (.ofTexts names))
    (haccepts : accepts schema (.text name)) : name ∈ names := by
  obtain ⟨keywords, listed, rfl, hlisted, hrest⟩ := Enumeration.exists_of_valueAt?_cons hpath
  obtain rfl : listed = .ofTexts names := Option.some.inj hrest
  obtain ⟨option, hoption, hagrees⟩ := h.options haccepts hlisted
  obtain ⟨other, hother, rfl⟩ := List.mem_map.1 hoption
  have hsame : name = other := by simpa [Json.agrees] using hagrees
  exact hsame ▸ hother

end Steps

/-- The entries that are checked by their positions are those for whose positions the schema of tables
holds schemas. -/
lemma positionalEntries_eq {document : Json} {fields : OrderedMap String Json}
    (h : Enumeration.valueAt? ["properties", "pids"] document = some (.object fields)) :
    positionalEntries document = positional fields := by
  obtain ⟨keywords, table, rfl, htable, h⟩ := Enumeration.exists_of_valueAt?_cons h
  obtain ⟨entries, next, rfl, hnext, h⟩ := Enumeration.exists_of_valueAt?_cons h
  obtain rfl := Option.some.inj h
  unfold positionalEntries positional
  simp [Enumeration.valueAt?, htable, hnext]

/-- Putting names at the conventional place does not change how many entries are checked by their
positions. -/
lemma positionalEntries_of_setAt {document updated : Json} {changed : Bool}
    (h : Enumeration.setAt BuildConfig.default.schemaEnumPath names document =
      .ok (changed, updated)) : positionalEntries updated = positionalEntries document := by
  unfold positionalEntries
  rw [(Enumeration.placed_of_put (Enumeration.segments_ne_nil _) h).elsewhere _ (by decide)
    (by decide)]

/-- A schema with names at the conventional place accepts a table that is a list only if the names of
the parameters behind the entries that are checked by their positions are among them. -/
lemma mem_names_of_accepts (h : Respects accepts) {schema : Json}
    (hpath : Enumeration.valueAt? vocabularyPath schema = some (.ofTexts names))
    {fields inner written : OrderedMap String Json} {items : List Json}
    (haccepts : accepts schema (.object fields))
    (hitems : OrderedMap.get? fields "pids" = some (.array items))
    (hitem : .object inner ∈ items.drop (positionalEntries schema))
    (hwritten : OrderedMap.get? inner "parameters" = some (.object written)) {name : String}
    (hname : name ∈ OrderedMap.keys written) : name ∈ names := by
  obtain ⟨atTable, hplace, htable, hpath⟩ := h.enter_property hpath haccepts hitems
  obtain ⟨keywords, -, rfl, -, -⟩ := Enumeration.exists_of_valueAt?_cons hpath
  rw [positionalEntries_eq hplace] at hitem
  obtain ⟨atItem, hentry, hpath⟩ := h.enter_item hpath htable hitem
  obtain ⟨atParameters, -, hparameters, hpath⟩ := h.enter_property hpath hentry hwritten
  obtain ⟨atKey, hkey, hpath⟩ := h.enter_key hpath hparameters hname
  exact h.mem_names hpath hkey

end Schema

/-! ## Accepted fragments -/

/-- A fragment whose text is accepted, and writes its table as a list, carries parameters with the
enumerated names only, unless they stand in an entry that is checked by its position. -/
lemma Fragment.mem_names_of_carries {accepts : Json → Json → Prop} (h : Schema.Respects accepts)
    {names : List String} {schema : Json}
    (hpath : Enumeration.valueAt? Schema.vocabularyPath schema = some (.ofTexts names))
    {path : Path} {text : String} {f : Fragment} (hparse : parse path text = .ok f)
    (hlist : WritesList text) (hbare : BareBefore (Schema.positionalEntries schema) text)
    (haccepts : Schema.AcceptsText accepts schema text)
    {code name expression : String} (hcarries : Layers.Carries (f.pids.getD []) code name expression) :
    name ∈ names := by
  obtain ⟨fields, hdocument, htidy, hfragment⟩ := exists_of_parse hparse
  obtain ⟨document, hsame, haccepts⟩ := haccepts
  obtain rfl : .object fields = document := Except.ok.inj (hdocument.symm.trans hsame)
  obtain ⟨entry, hentry, -, hparameter⟩ := hcarries
  cases htable : f.pids with
  | none =>
    rw [htable] at hentry
    cases hentry
  | some table =>
    rw [htable, Option.getD_some] at hentry
    obtain ⟨value, hpids, hread⟩ :=
      Option.bind_eq_some_iff.1 ((pids_ofJson htidy.1 hfragment).symm.trans htable)
    obtain ⟨items, rfl⟩ := hlist fields value hdocument hpids
    obtain ⟨item, hitem, hof⟩ := Steps.exists_of_mem_values (Steps.mapM_eq_some_iff.1 hread) hentry
    obtain ⟨inner, rfl, hwritten⟩ := PidEntry.writtenAs_of_ofItem? hof
    obtain ⟨written, hget, hnames⟩ := hwritten.parameters
    have hname := hnames name (OrderedMap.mem_keys_iff.2 ⟨expression, hparameter⟩)
    rw [← List.take_append_drop (Schema.positionalEntries schema) items, List.mem_append] at hitem
    rcases hitem with hfirst | hlater
    · obtain rfl := hbare fields items inner written hdocument hpids hfirst hget
      cases hname
    · exact Schema.mem_names_of_accepts h hpath haccepts hpids hlater hget hname

/-- Every fragment of a chain has a text that was read. -/
lemma Resolution.exists_reads_of_mem {texts : Path → Except Failure String} {leafText : String}
    {maxDepth : Nat} {key : Path} {leaf : Fragment} {chain : Chain} {resolution : Resolution}
    (hleaf : Fragment.parse key leafText = .ok leaf)
    (hcollect : Chain.collect (.reading texts) maxDepth key leaf = .ok chain)
    (hfound : Resolution.ofChain? chain = some resolution) {link : Path × Fragment}
    (hlink : link ∈ chain) :
    ∃ path text, resolution.Reads texts leafText text ∧ Fragment.parse path text = .ok link.2 := by
  have hkeys : resolution.chain = chain.keys := by
    obtain ⟨merged, -, rfl⟩ := Option.map_eq_some_iff.1 hfound
    rfl
  obtain ⟨ancestors, rfl, -, hsources⟩ := Chain.exists_lookups_of_collect hcollect
  rcases List.mem_cons.1 hlink with rfl | hancestor
  · exact ⟨key, leafText, .inl rfl, hleaf⟩
  · obtain ⟨text, htext, hparse⟩ := Steps.bind_eq_ok_iff.1 (hsources link hancestor)
    refine ⟨link.1, text, .inr ⟨link.1, ?_, htext⟩, hparse⟩
    rw [hkeys]
    exact List.mem_map_of_mem hancestor

/-- If every text that was read for a leaf is accepted, joining what the leaf resolves to with the
library never fails because of an unknown parameter. -/
lemma Resolution.ne_unknownParameter {accepts : Json → Json → Prop} (h : Schema.Respects accepts)
    {library : ParameterLibrary} {schema : Json}
    (hpath : Enumeration.valueAt? Schema.vocabularyPath schema = some (.ofTexts library.names))
    {texts : Path → Except Failure String} {leafText : String} {maxDepth : Nat} {key : Path}
    {leaf : Fragment} {resolution : Resolution} (hleaf : Fragment.parse key leafText = .ok leaf)
    (hresolve : leaf.resolve (.reading texts) maxDepth key = .ok resolution)
    (hlists : ∀ text, resolution.Reads texts leafText text → Fragment.WritesList text)
    (hbare : ∀ text, resolution.Reads texts leafText text →
      Fragment.BareBefore (Schema.positionalEntries schema) text)
    (haccepts : ∀ text, resolution.Reads texts leafText text →
      Schema.AcceptsText accepts schema text)
    (against : Path) (origins : Origins) (fragment : Path) (name : String) :
    ResolvedProfile.of against resolution.profile library origins ≠
      .error (.unknownParameter fragment name) := by
  intro hunknown
  obtain ⟨-, hmissing, table, code, expression, htable, hcarries⟩ :=
    ResolvedProfile.exists_of_unknownParameter hunknown
  obtain ⟨chain, hcollect, hfound⟩ := Fragment.resolve_eq_ok_iff.1 hresolve
  obtain ⟨i, origin, f, hlink, -, hcarries, -⟩ :=
    Resolution.exists_origin_of_carries hfound htable hcarries
  obtain ⟨path, text, hreads, hparse⟩ :=
    exists_reads_of_mem hleaf hcollect hfound (List.mem_of_getElem? hlink)
  have hlisted := Fragment.mem_names_of_carries h hpath hparse (hlists text hreads)
    (hbare text hreads) (haccepts text hreads) hcarries
  have hknown := (library.contains_iff name).2 hlisted
  rw [ParameterLibrary.contains, hmissing] at hknown
  cases hknown

/-- A text that is not rejected by the schema of a document is accepted. -/
lemma Schema.acceptsText_of_rejectText? {file path : Path} {document : Json} {schema : Schema}
    {text : String} (hschema : ofDocument file document = .ok schema)
    (h : schema.rejectText? path text = none) : AcceptsText Accepts document text := by
  have hread : ofJson? document = some schema := by
    unfold ofDocument at hschema
    split at hschema
    · next found hfound => rw [hfound, Except.ok.inj hschema]
    · cases hschema
  unfold rejectText? at h
  split at h
  · next value hvalue =>
    exact ⟨value, hvalue, schema, hread, (reject?_eq_none_iff schema path value).1 h⟩
  · cases h

/-- **Accepted chains use the vocabulary of the library.** Let the names of a library be put at the
conventional place of any document, and let a leaf and its ancestors, whose texts may be kept
anywhere, write their tables as lists or not at all. If the document holds schemas for the positions of
the first entries of a table, let these carry no parameters; without such schemas there are no such
entries. If the chain resolves and every text of it is accepted by the document, then joining what the
chain amounts to with the library never fails because of an unknown parameter. This holds of every
notion of acceptance that follows the rules of the keywords, whatever else stands in the document, and
of checking with the schema that the document holds in particular.

**Proof sketch.** The conventional place is where the keys of the parameters in a list are checked,
behind the entries that are checked by their positions (`mem_names_of_accepts`), so an accepted
fragment carries names of the library only (`Fragment.mem_names_of_carries`). An unknown parameter
would be carried by a fragment of the chain (`Resolution.exists_origin_of_carries`). Checking with a
schema follows the rules of the keywords (`respects_accepts`). -/
theorem Schema.accepted_chain_known (library : ParameterLibrary) (document updated : Json)
    (changed : Bool)
    (hset : Enumeration.setAt BuildConfig.default.schemaEnumPath library.names document =
      .ok (changed, updated))
    (texts : Path → Except Failure String) (maxDepth : Nat) (key : Path) (leafText : String)
    (leaf : Fragment) (hleaf : Fragment.parse key leafText = .ok leaf) (resolution : Resolution)
    (hresolve : leaf.resolve (.reading texts) maxDepth key = .ok resolution)
    (hlists : ∀ text, resolution.Reads texts leafText text → Fragment.WritesList text)
    (hbare : ∀ text, resolution.Reads texts leafText text →
      Fragment.BareBefore (positionalEntries document) text) :
    (∀ accepts, Respects accepts →
      (∀ text, resolution.Reads texts leafText text → AcceptsText accepts updated text) →
        ∀ against origins fragment name,
          ResolvedProfile.of against resolution.profile library origins ≠
            .error (.unknownParameter fragment name)) ∧
    (∀ file schema, ofDocument file updated = .ok schema →
      (∀ text, resolution.Reads texts leafText text → ∃ path, schema.rejectText? path text = none) →
        ∀ against origins fragment name,
          ResolvedProfile.of against resolution.profile library origins ≠
            .error (.unknownParameter fragment name)) := by
  have hpath : Enumeration.valueAt? vocabularyPath updated = some (.ofTexts library.names) := by
    rw [← segments_schemaEnumPath]
    exact (Enumeration.valueAt?_of_put (Enumeration.segments_ne_nil _) hset).1
  rw [← positionalEntries_of_setAt hset] at hbare
  refine ⟨fun accepts h haccepts => ?_, fun file schema hschema haccepts => ?_⟩
  · exact Resolution.ne_unknownParameter h hpath hleaf hresolve hlists hbare haccepts
  · refine Resolution.ne_unknownParameter respects_accepts hpath hleaf hresolve hlists hbare ?_
    intro text hreads
    obtain ⟨path, haccepted⟩ := haccepts text hreads
    exact acceptsText_of_rejectText? hschema haccepted

/-- A fragment that lists a request without parameters and one with a parameter. -/
def sampleRequests : String :=
  r#"{"car_model": "B", "pids": [{"pid": "Z", "parameters": {}},
    {"pid": "A", "parameters": {"X": "1"}}]}"#

/-- It writes its table as a list, and the first entry carries no parameters. -/
lemma bareBefore_sampleRequests :
    Fragment.WritesList sampleRequests ∧ Fragment.BareBefore 1 sampleRequests := by
  have hdocument : Json.parse sampleRequests =
      .ok (.object [("car_model", .text "B"), ("pids", .array [
        .object [("pid", .text "Z"), ("parameters", .object [])],
        .object [("pid", .text "A"), ("parameters", .object [("X", .text "1")])]])]) := by
    decide +kernel
  constructor
  · intro fields value hfields hvalue
    cases hdocument.symm.trans hfields
    exact ⟨_, (Option.some.inj hvalue).symm⟩
  · intro fields items inner written hfields hitems hinner hwritten
    cases hdocument.symm.trans hfields
    obtain rfl := Json.array.inj (Option.some.inj hitems)
    cases List.mem_singleton.1 hinner
    exact (Json.object.inj (Option.some.inj hwritten)).symm

/-- The same fragment, under its key. -/
def sampleListing : OrderedMap Path String := [(⟨"base"⟩, sampleRequests)]

/-- A fragment that builds on it. -/
def sampleBuilding : String := r#"{"car_model": "L", "extends": "base"}"#

/-- What that fragment resolves to. -/
def sampleListed : Resolution where
  chain := [⟨"leaf"⟩, ⟨"base"⟩]
  profile := { Fragment.empty with
    carModel := "L", parent := some "base", pids := some [.ofExpressions "A" [("X", "1")]] }
  origins := ⟨[("X", ⟨"base"⟩)]⟩

/-- A document that enumerates names at the conventional place, holds a schema for the position of the
first entry, and says more than that. -/
def sampleVocabulary (names : List String) : Json :=
  .object [("properties", .object [("pids", .object
    [("minItems", .integer 1), ("prefixItems", .array [.bool true]), ("items", .object
      [("properties", .object [("parameters", .object [("propertyNames", .object
        [("enum", .ofTexts names), ("minLength", .integer 1)])])])])])])]

/-- The schema in the document that enumerates one name. -/
def sampleVocabularySchema : Schema :=
  .all [.properties [("pids", .all [.minItems 1, .prefixItems [.anything], .items 1
    (.all [.properties [("parameters",
      .all [.propertyNames (.all [.options [.text "X"], .minLength 1])])]])])]]

/-- The texts that are read for the fragment are its own and that of the other one. -/
lemma Resolution.reads_sampleListed {text : String}
    (h : sampleListed.Reads (FragmentSource.find sampleListing) sampleBuilding text) :
    text = sampleBuilding ∨ FragmentSource.find sampleListing ⟨"base"⟩ = .ok text := by
  refine h.imp_right ?_
  rintro ⟨ancestor, hancestor, htext⟩
  obtain rfl := List.mem_singleton.1 hancestor
  exact htext

/-- A leaf uses what the library has once the document enumerates it, instead of an older name: the
document accepts the leaf and the fragment that it builds on, whose first entry carries no
parameters. -/
theorem Schema.accepted_chain_known_sampleListed :
    Enumeration.setAt BuildConfig.default.schemaEnumPath
        (ParameterLibrary.ofDefinitions [⟨"X", none, []⟩]).names (sampleVocabulary ["Y"]) =
      .ok (true, sampleVocabulary ["X"]) ∧
    positionalEntries (sampleVocabulary ["Y"]) = 1 ∧
    ∀ against origins fragment name,
      ResolvedProfile.of against sampleListed.profile (.ofDefinitions [⟨"X", none, []⟩]) origins ≠
        .error (.unknownParameter fragment name) := by
  have hset : Enumeration.setAt BuildConfig.default.schemaEnumPath
      (ParameterLibrary.ofDefinitions [⟨"X", none, []⟩]).names (sampleVocabulary ["Y"]) =
        .ok (true, sampleVocabulary ["X"]) := by decide +kernel
  have hpositional : positionalEntries (sampleVocabulary ["Y"]) = 1 := by decide +kernel
  have hbase : FragmentSource.find sampleListing ⟨"base"⟩ = .ok sampleRequests := by decide +kernel
  have hleaf : Fragment.parse ⟨"leaf"⟩ sampleBuilding =
      .ok { Fragment.empty with carModel := "L", parent := some "base" } := by decide +kernel
  have hresolve : Fragment.resolve (.reading (FragmentSource.find sampleListing)) 16 ⟨"leaf"⟩
      { Fragment.empty with carModel := "L", parent := some "base" } = .ok sampleListed := by
    decide +kernel
  -- the leaf has no table
  have hdocument : Json.parse sampleBuilding =
      .ok (.object [("car_model", .text "L"), ("extends", .text "base")]) := by decide +kernel
  have htexts : ∀ text, sampleListed.Reads (FragmentSource.find sampleListing) sampleBuilding text →
      Fragment.WritesList text ∧
        Fragment.BareBefore (positionalEntries (sampleVocabulary ["Y"])) text ∧
        ∃ path, sampleVocabularySchema.rejectText? path text = none := by
    intro text hreads
    rw [hpositional]
    rcases Resolution.reads_sampleListed hreads with rfl | htext
    · refine ⟨fun fields value hfields hvalue => ?_, fun fields items inner written hfields hitems => ?_,
        ⟨"file.json"⟩, by decide +kernel⟩
      · cases hdocument.symm.trans hfields
        cases hvalue
      · cases hdocument.symm.trans hfields
        cases hitems
    · cases hbase.symm.trans htext
      exact ⟨bareBefore_sampleRequests.1, bareBefore_sampleRequests.2, ⟨"file.json"⟩,
        by decide +kernel⟩
  obtain ⟨-, hknown⟩ := accepted_chain_known _ _ _ _ hset _ _ _ _ _ hleaf _ hresolve
    (fun text hreads => (htexts text hreads).1) fun text hreads => (htexts text hreads).2.1
  exact ⟨hset, hpositional, hknown ⟨"schema.json"⟩ sampleVocabularySchema rfl
    fun text hreads => (htexts text hreads).2.2⟩

/-- A document that holds a schema for the position of the first entry of a table. -/
def samplePositional : Json :=
  .object [("properties", .object [("pids", .object [("prefixItems", .array [.bool true])])])]

/-- A fragment whose first entry carries a parameter. -/
def sampleFirst : String :=
  r#"{"car_model": "B", "pids": [{"pid": "A", "parameters": {"X": "1"}}]}"#

/-- It writes its table as a list. -/
lemma writesList_sampleFirst : Fragment.WritesList sampleFirst := by
  intro fields value hfields hvalue
  have hdocument : Json.parse sampleFirst =
      .ok (.object [("car_model", .text "B"), ("pids", .array [.object
        [("pid", .text "A"), ("parameters", .object [("X", .text "1")])]])]) := by
    decide +kernel
  cases hdocument.symm.trans hfields
  exact ⟨_, (Option.some.inj hvalue).symm⟩

/-- What it resolves to as a lone leaf. -/
def sampleAlone : Resolution where
  chain := [⟨"leaf"⟩]
  profile := { Fragment.empty with
    carModel := "B", pids := some [.ofExpressions "A" [("X", "1")]] }
  origins := ⟨[("X", ⟨"leaf"⟩)]⟩

/-- **An entry that is checked by its position may use any name.** The names of a library are put at the
conventional place of a document that holds a schema for the position of the first entry. Then it
accepts a leaf whose first and only entry carries a parameter that the library does not have, and
joining the leaf with the library fails because of that parameter. -/
theorem Schema.positional_entry_unknown :
    ∃ updated schema,
      Enumeration.setAt BuildConfig.default.schemaEnumPath
          (ParameterLibrary.ofDefinitions [⟨"Y", none, []⟩]).names samplePositional =
        .ok (true, updated) ∧
      ofDocument ⟨"schema.json"⟩ updated = .ok schema ∧
      (∃ leaf, Fragment.parse ⟨"leaf"⟩ sampleFirst = .ok leaf ∧
        leaf.resolve (.reading (FragmentSource.find [])) 16 ⟨"leaf"⟩ = .ok sampleAlone) ∧
      (∀ text, sampleAlone.Reads (FragmentSource.find []) sampleFirst text →
        Fragment.WritesList text ∧ schema.rejectText? ⟨"leaf.json"⟩ text = none) ∧
      ResolvedProfile.of ⟨"leaf"⟩ sampleAlone.profile (.ofDefinitions [⟨"Y", none, []⟩])
          sampleAlone.origins = .error (.unknownParameter ⟨"leaf"⟩ "X") := by
  refine ⟨.object [("properties", .object [("pids", .object [("prefixItems", .array [.bool true]),
      ("items", .object [("properties", .object [("parameters", .object
        [("propertyNames", .object [("enum", .ofTexts ["Y"])])])])])])])],
    .all [.properties [("pids", .all [.prefixItems [.anything], .items 1 (.all [.properties
      [("parameters", .all [.propertyNames (.all [.options [.text "Y"]])])]])])]],
    by decide +kernel, rfl,
    ⟨{ Fragment.empty with
        carModel := "B", pids := some [.ofExpressions "A" [("X", "1")]] },
      by decide +kernel, by decide +kernel⟩, ?_, by decide +kernel⟩
  rintro text (rfl | ⟨ancestor, hancestor, -⟩)
  · exact ⟨writesList_sampleFirst, by decide +kernel⟩
  · cases hancestor

end LayeredProfiles
