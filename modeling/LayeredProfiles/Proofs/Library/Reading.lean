import LayeredProfiles.Document.Rows
import LayeredProfiles.Proofs.Json.Members
import LayeredProfiles.Proofs.Profile.Enrich
import LayeredProfiles.Proofs.Schema.Enumeration

set_option autoImplicit false

/-!
# Reading a parameter library

A text is a parameter library if it holds an object in which every value is an entry. A name that is
written more than once stands where it is written first and has the entry that is written last. All
that is done with a library then goes by the same names: they are enumerated in the schema, every
parameter has its row, and a request can be joined with its settings if it uses no other names.

## Main definitions

* `ParameterDefinition.IsEntry` — the values that are entries of a library.

## Main results

* `ParameterDefinition.exists_ofField_iff` — a definition is read exactly from an entry.
* `ParameterLibrary.ofJson_eq_ok_iff` — the definitions that are read from an object, entry by entry.
* `ResolvedPid.exists_of_iff` — which requests can be joined with their settings.
* `ParameterLibrary.parse_names` — which texts are libraries, and what goes by their names.
-/

namespace LayeredProfiles

/-! ## Entries -/

namespace ParameterDefinition

/-- An entry of a library: an object without settings, or with an object of settings. -/
def IsEntry (value : Json) : Prop :=
  ∃ fields, value = .object fields ∧
    (OrderedMap.get? fields "settings" = none ∨ OrderedMap.get? fields "settings" = some .null ∨
      ∃ settings, OrderedMap.get? fields "settings" = some (.object settings))

/-- A definition has the name that its entry stands under. -/
lemma name_of_ofField {field : String × Json} {definition : ParameterDefinition}
    (h : ofField field = .ok definition) : definition.name = field.1 := by
  unfold ofField at h
  split at h
  · obtain ⟨settings, -, rfl⟩ := Steps.map_eq_ok_iff.1 h
    rfl
  · cases h

/-- **A definition is read exactly from an entry.** -/
lemma exists_ofField_iff {name : String} {value : Json} :
    (∃ definition, ofField (name, value) = .ok definition) ↔ IsEntry value := by
  constructor
  · rintro ⟨definition, h⟩
    unfold ofField at h
    split at h
    · next fields hfields =>
      obtain ⟨settings, hsettings, -⟩ := Steps.map_eq_ok_iff.1 h
      refine ⟨fields, hfields, ?_⟩
      unfold settingsIn at hsettings
      split at hsettings
      · next hnone => exact .inl hnone
      · next hnull => exact .inr (.inl hnull)
      · next found hfound => exact .inr (.inr ⟨found, hfound⟩)
      · cases hsettings
    · cases h
  · rintro ⟨fields, rfl, hsettings⟩
    have hread : ∃ settings, settingsIn name fields = .ok settings := by
      unfold settingsIn
      rcases hsettings with hnone | hnull | ⟨settings, hfound⟩
      · exact ⟨[], by rw [hnone]⟩
      · exact ⟨[], by rw [hnull]⟩
      · exact ⟨settings, by rw [hfound]⟩
    obtain ⟨settings, hread⟩ := hread
    exact ⟨_, Steps.map_eq_ok_iff.2 ⟨settings, hread, rfl⟩⟩

end ParameterDefinition

/-! ## Definitions -/

namespace ParameterLibrary

open ParameterDefinition (ofField IsEntry)

/-- A definition is read from a field, under its key. -/
def ReadsEntry (field : String × Json) (entry : String × ParameterDefinition) : Prop :=
  entry.1 = field.1 ∧ ofField field = .ok entry.2

variable {library : ParameterLibrary} {fields : List (String × Json)}
  {entries : List (String × ParameterDefinition)}

/-- Definitions stand under the keys of the fields that they are read from. -/
lemma keys_of_readsEntry (h : List.Forall₂ ReadsEntry fields entries) :
    OrderedMap.keys entries = OrderedMap.keys fields := by
  induction h with
  | nil => rfl
  | cons hentry _ ih => rw [OrderedMap.keys_cons, OrderedMap.keys_cons, hentry.1, ih]

/-- What is found under a name is read from the field of that name. -/
lemma get?_of_readsEntry (h : List.Forall₂ ReadsEntry fields entries) {name : String}
    {definition : ParameterDefinition} : OrderedMap.get? entries name = some definition ↔
      ∃ value, OrderedMap.get? fields name = some value ∧ ofField (name, value) = .ok definition := by
  induction h with
  | nil => simp [OrderedMap.get?]
  | @cons field entry _ _ hentry _ ih =>
    obtain ⟨key, value⟩ := field
    obtain ⟨other, found⟩ := entry
    obtain ⟨rfl, hread⟩ := hentry
    rw [OrderedMap.get?, OrderedMap.get?]
    by_cases hname : other = name
    · subst hname
      simp only [if_pos]
      simp [hread]
    · rw [if_neg hname, if_neg hname]
      exact ih

/-- **The definitions that are read from an object**, one for each field. -/
lemma ofJson_eq_ok_iff (hunique : OrderedMap.UniqueKeys fields) :
    ofJson (.object fields) = .ok library ↔ List.Forall₂ ReadsEntry fields library.entries := by
  have hof : ofJson (.object fields) = (fields.mapM ofField).map ofDefinitions := rfl
  rw [hof, Steps.map_eq_ok_iff]
  constructor
  · rintro ⟨definitions, hread, rfl⟩
    have hentries : List.Forall₂ ReadsEntry fields (definitions.map fun d => (d.name, d)) := by
      refine List.forall₂_map_right_iff.2 ((Steps.mapM_eq_ok_iff.1 hread).imp ?_)
      exact fun field definition hfield => ⟨ParameterDefinition.name_of_ofField hfield, hfield⟩
    have hkeys : OrderedMap.UniqueKeys (definitions.map fun d => (d.name, d)) := by
      rw [OrderedMap.UniqueKeys, keys_of_readsEntry hentries]
      exact hunique
    rw [ofDefinitions, OrderedMap.ofList_of_uniqueKeys hkeys]
    exact hentries
  · intro hentries
    have hread : List.Forall₂ (fun field definition => ofField field = .ok definition) fields
        library.definitions :=
      List.forall₂_map_right_iff.2 (hentries.imp fun _ _ hentry => hentry.2)
    have hnamed : (library.definitions.map fun d => (d.name, d)) = library.entries := by
      rw [definitions, List.map_map]
      refine (List.map_congr_left fun entry hentry => ?_).trans (List.map_id _)
      obtain ⟨field, -, hkey, hfield⟩ := Steps.exists_of_mem_values hentries hentry
      have hname : entry.2.name = entry.1 :=
        (ParameterDefinition.name_of_ofField hfield).trans hkey.symm
      simp [hname]
    refine ⟨library.definitions, Steps.mapM_eq_ok_iff.2 hread, ?_⟩
    have hkeys : OrderedMap.UniqueKeys library.entries := by
      rw [OrderedMap.UniqueKeys, keys_of_readsEntry hentries]
      exact hunique
    rw [ofDefinitions, hnamed, OrderedMap.ofList_of_uniqueKeys hkeys]

/-- A text is a library if it is an object from which definitions can be read. -/
lemma parse_eq_ok_iff {path : Path} {text : String} : parse path text = .ok library ↔
    ∃ fields, Json.parse text = .ok (.object fields) ∧
      List.Forall₂ ReadsEntry fields library.entries := by
  have hobject : parse path text = .ok library ↔
      ∃ fields, Json.parse text = .ok (.object fields) ∧ ofJson (.object fields) = .ok library := by
    unfold parse
    cases Json.parse text with
    | error e => simp
    | ok document =>
      dsimp only
      rw [Steps.mapError_eq_ok_iff]
      cases document with
      | object fields => simp
      | _ => simp [ofJson]
  rw [hobject]
  refine exists_congr fun fields => and_congr_right fun hparse => ?_
  exact ofJson_eq_ok_iff (Json.legible_of_parse hparse).1

end ParameterLibrary

/-! ## What goes by the names of a library -/

variable {library : ParameterLibrary}

/-- **Which requests can be joined with their settings**: those whose names the library all has. -/
lemma ResolvedPid.exists_of_iff {entry : PidEntry} :
    (∃ pid, ResolvedPid.of library entry = .ok pid) ↔
      ∀ name ∈ OrderedMap.keys entry.parameters, name ∈ library.names := by
  have hone : ∀ parameter : String × String,
      (∃ enriched, EnrichedParameter.of library parameter = .ok enriched) ↔
        parameter.1 ∈ library.names := by
    intro parameter
    rw [← ParameterLibrary.contains_iff, ParameterLibrary.contains, Option.isSome_iff_exists]
    simp only [EnrichedParameter.of_eq_ok_iff]
    constructor
    · rintro ⟨_, definition, hget, -⟩
      exact ⟨definition, hget⟩
    · rintro ⟨definition, hget⟩
      exact ⟨_, definition, hget, rfl⟩
  have hall : (∃ pid, ResolvedPid.of library entry = .ok pid) ↔
      ∃ parameters, List.Forall₂ (fun p enriched => EnrichedParameter.of library p = .ok enriched)
        entry.parameters parameters := by
    simp only [ResolvedPid.of_eq_ok_iff]
    constructor
    · rintro ⟨_, parameters, hread, -⟩
      exact ⟨parameters, hread⟩
    · rintro ⟨parameters, hread⟩
      exact ⟨_, parameters, hread, rfl⟩
  rw [hall, Steps.exists_values_iff, OrderedMap.keys, List.forall_mem_map]
  exact forall₂_congr fun parameter _ => hone parameter

namespace ParameterLibrary

/-- All that is done with a library goes by its names. -/
structure SharesNames (library : ParameterLibrary) : Prop where
  /-- The schema enumerates them, in order. -/
  enumerated : ∀ (file : SchemaFile) tree changed document,
    file.withNames tree library = .ok (changed, document) →
      Enumeration.valueAt? (Enumeration.segments file.enumPath) document =
        some (.ofTexts library.names)
  /-- The document of parameters has a row for each of them, in order. -/
  rows : ∃ rows, Document.parameterRows library = String.join rows ∧
    List.Forall₂ (fun name row => ∃ definition more, library.get? name = some definition ∧
      row = Document.parameterRow definition ∧ row = "| `" ++ name ++ "` | " ++ more) library.names rows
  /-- A request is accepted if all of its names are among them. -/
  accepted : ∀ entry, (∃ pid, ResolvedPid.of library entry = .ok pid) ↔
    ∀ name ∈ OrderedMap.keys entry.parameters, name ∈ library.names

/-- A row starts with the name of its parameter. -/
lemma exists_parameterRow (definition : ParameterDefinition) : ∃ more,
    Document.parameterRow definition = "| `" ++ definition.name ++ "` | " ++ more :=
  ⟨_, by simp only [Document.parameterRow, String.append_assoc]; rfl⟩

/-- If every definition stands under its own name, the names are shared. -/
lemma sharesNames (hunique : OrderedMap.UniqueKeys library.entries)
    (hnamed : ∀ entry ∈ library.entries, entry.2.name = entry.1) : library.SharesNames where
  enumerated file tree changed document h := by
    obtain ⟨_, _, -, -, hset⟩ := SchemaFile.withNames_eq_ok_iff.1 h
    exact (Enumeration.valueAt?_of_put (Enumeration.segments_ne_nil _) hset).1
  rows := by
    refine ⟨_, rfl, ?_⟩
    rw [definitions, List.map_map]
    refine List.forall₂_map_left_iff.2 (List.forall₂_map_right_iff.2 (List.forall₂_same.2 ?_))
    intro entry hentry
    obtain ⟨more, hrow⟩ := exists_parameterRow entry.2
    rw [hnamed entry hentry] at hrow
    exact ⟨entry.2, more, (OrderedMap.get?_eq_some_iff hunique _ _).2 hentry, rfl, hrow⟩
  accepted entry := ResolvedPid.exists_of_iff

/-! ## The whole -/

/-- **Which texts are libraries, and what goes by their names.** A text is a library exactly if it holds
an object in which every value is an object with settings that are missing, null or an object. The
names of the library are those of the members that the text writes, each once and at its first place,
and what is found under a name is read from the last value that is written under it. A definition has
the name that it is found under, and something is found under the names of the library only. The
enumeration of the schema, the rows of the document and the requests that are accepted share the names,
the first two in one order.

**Proof sketch.** The object that is read has every key of the members once (`Json.parse_eq_object_iff`),
so the definitions, each of which is named for its key, are gathered as they stand (`ofJson_eq_ok_iff`):
the second gathering replaces nothing. Keys, values and look-ups are then those of one list. -/
theorem parse_names (path : Path) (text : String) :
    ((∃ library, parse path text = .ok library) ↔
      ∃ fields, Json.parse text = .ok (.object fields) ∧
        ∀ field ∈ fields, ParameterDefinition.IsEntry field.2) ∧
    ∀ library, parse path text = .ok library →
      ∃ members, Json.HoldsMembers text members ∧
        Json.parse text = .ok (.object (OrderedMap.ofList members)) ∧
        library.names.Nodup ∧ library.names = (members.map Prod.fst).eraseDups ∧
        (∀ name definition, library.get? name = some definition ↔
          ∃ value, OrderedMap.get? members.reverse name = some value ∧
            ParameterDefinition.ofField (name, value) = .ok definition) ∧
        (∀ name, (∃ definition, library.get? name = some definition ∧ definition.name = name) ↔
          name ∈ library.names) ∧
        (∀ name definition, library.get? name = some definition → definition.name = name) ∧
        library.SharesNames := by
  constructor
  · simp only [parse_eq_ok_iff]
    constructor
    · rintro ⟨library, fields, hparse, hread⟩
      refine ⟨fields, hparse, fun field hfield => ?_⟩
      obtain ⟨entry, -, -, hof⟩ := Steps.exists_value_of_mem hread hfield
      exact ParameterDefinition.exists_ofField_iff.1 ⟨_, hof⟩
    · rintro ⟨fields, hparse, hentries⟩
      obtain ⟨entries, hread⟩ := (Steps.exists_values_iff (R := ReadsEntry)).2 fun field hfield =>
        (ParameterDefinition.exists_ofField_iff.2 (hentries field hfield)).imp' (field.1, ·)
          fun definition hof => ⟨rfl, hof⟩
      exact ⟨⟨entries⟩, fields, hparse, hread⟩
  · intro library h
    obtain ⟨fields, hparse, hread⟩ := parse_eq_ok_iff.1 h
    obtain ⟨members, hmembers, rfl⟩ := Json.parse_eq_object_iff.1 hparse
    have hkeys := keys_of_readsEntry hread
    have hunique : OrderedMap.UniqueKeys library.entries := by
      rw [OrderedMap.UniqueKeys, hkeys]
      exact OrderedMap.uniqueKeys_ofList members
    have hnamed : ∀ entry ∈ library.entries, entry.2.name = entry.1 := by
      intro entry hentry
      obtain ⟨field, -, hkey, hof⟩ := Steps.exists_of_mem_values hread hentry
      exact (ParameterDefinition.name_of_ofField hof).trans hkey.symm
    have hown : ∀ name definition, library.get? name = some definition → definition.name = name :=
      fun name definition hget => hnamed _ (OrderedMap.mem_of_get? hget)
    refine ⟨members, hmembers, hparse, hunique, hkeys.trans (OrderedMap.keys_ofList members),
      fun name definition => ?_, fun name => ?_, hown, sharesNames hunique hnamed⟩
    · rw [← OrderedMap.get?_ofList]
      exact get?_of_readsEntry hread
    · rw [← contains_iff, contains, Option.isSome_iff_exists]
      exact exists_congr fun definition => and_iff_left_of_imp (hown name definition)

/-- A text in which both names are written twice. What is written first under the first name is no
entry. -/
def repeatingText : String :=
  Json.toText (.object [("B", .integer 1), ("A", .object [("settings", .object [("unit", .text "V")])]),
    ("B", .object [("description", .text "x"), ("settings", .null)]),
    ("A", .object [("settings", .object [])])])

/-- The library that it holds. -/
def repeatedLibrary : ParameterLibrary where
  entries := [("B", ⟨"B", some "x", []⟩), ("A", ⟨"A", none, []⟩)]

/-- Each name stands where it is written first, and has what is written last. -/
theorem parse_names_repeatingText :
    parse ⟨"l"⟩ repeatingText = .ok repeatedLibrary ∧
      (∃ fields, Json.parse repeatingText = .ok (.object fields) ∧
        ∀ field ∈ fields, ParameterDefinition.IsEntry field.2) ∧
      (∃ members, Json.HoldsMembers repeatingText members ∧
        ["B", "A"] = (members.map Prod.fst).eraseDups) ∧
      repeatedLibrary.SharesNames := by
  have hparse : parse ⟨"l"⟩ repeatingText = .ok repeatedLibrary := by decide +kernel
  obtain ⟨hexists, hnames⟩ := parse_names ⟨"l"⟩ repeatingText
  obtain ⟨members, hmembers, -, -, hkeys, -, -, -, hshares⟩ := hnames _ hparse
  exact ⟨hparse, hexists.1 ⟨_, hparse⟩, ⟨members, hmembers, hkeys⟩, hshares⟩

end ParameterLibrary

end LayeredProfiles
