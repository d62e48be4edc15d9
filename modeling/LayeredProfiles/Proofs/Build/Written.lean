import LayeredProfiles.Proofs.Build.Omission
import LayeredProfiles.Proofs.Chain.Lookups
import LayeredProfiles.Proofs.Fragment.Folder
import LayeredProfiles.Proofs.Fragment.Roundtrip
import LayeredProfiles.Proofs.Layers.Extras
import LayeredProfiles.Proofs.Profile.Enrich

set_option autoImplicit false

/-!
# What a profile is written as

A profile is written with its own keys first, then with what it keeps of its document, and so are
its requests and their parameters. What is kept could collide with the own keys in all three places.
It never does: reading a fragment sorts the known keys out, of the fragment and of its requests,
merging makes up no fields, and the settings of a parameter are written without the keys of a
parameter.

## Main definitions

* `ParameterLibrary.Tidy` — no settings have a key twice.
* `ParameterLibrary.WritesParameter`, `ParameterLibrary.WritesRequest` — what a parameter and a
  request are written as.

## Main results

* `ParameterLibrary.tidy_of_parse` — a library that was read is tidy.
* `EnrichedParameter.tidy_toJson`, `ResolvedPid.tidy_toJson`, `ResolvedProfile.tidy_toJson` — own
  keys and others do not collide.
* `Build.compileFragment_written` — what the profile of a fragment is written as.
-/

namespace LayeredProfiles

/-! ## Tidy libraries -/

/-- The settings in a tidy entry of a library are tidy. -/
lemma ParameterDefinition.tidy_of_ofField {field : String × Json} {definition : ParameterDefinition}
    (htidy : field.2.Tidy) (h : ofField field = .ok definition) :
    (Json.object definition.settings).Tidy := by
  unfold ofField at h
  split at h
  · next fields hfields =>
    rw [hfields] at htidy
    obtain ⟨settings, hsettings, rfl⟩ := Steps.map_eq_ok_iff.1 h
    have hnone : (Json.object []).Tidy := ⟨List.nodup_nil, trivial⟩
    unfold settingsIn at hsettings
    split at hsettings
    · exact Except.ok.inj hsettings ▸ hnone
    · exact Except.ok.inj hsettings ▸ hnone
    · next found hfound =>
      exact Except.ok.inj hsettings ▸ htidy.of_mem (OrderedMap.mem_of_get? hfound)
    · cases hsettings
  · cases h

namespace ParameterLibrary

/-- No settings have a key twice, at any depth. -/
def Tidy (library : ParameterLibrary) : Prop :=
  ∀ name definition, library.get? name = some definition →
    (Json.object definition.settings).Tidy

/-- A library that was read is tidy. -/
lemma tidy_of_parse {path : Path} {text : String} {library : ParameterLibrary}
    (h : parse path text = .ok library) : library.Tidy := by
  unfold parse at h
  split at h
  · cases h
  · next document hdocument =>
    have htidy := (Json.legible_of_parse hdocument).tidy
    cases document with
    | object fields =>
      obtain ⟨definitions, hdefinitions, rfl⟩ :=
        Steps.map_eq_ok_iff.1 (Steps.mapError_eq_ok_iff.1 h)
      intro name definition hget
      rcases OrderedMap.mem_of_mem_extend (OrderedMap.mem_of_get? hget) with hnil | hmem
      · cases hnil
      · obtain ⟨found, hfound, hentry⟩ := List.mem_map.1 hmem
        obtain rfl : found = definition := congrArg Prod.snd hentry
        obtain ⟨field, hfield, hof⟩ :=
          Steps.exists_of_mem_values (Steps.mapM_eq_ok_iff.1 hdefinitions) hfound
        exact ParameterDefinition.tidy_of_ofField (htidy.of_mem hfield) hof
    | _ => cases h

end ParameterLibrary

/-! ## Own keys and others -/

/-- A parameter with tidy settings is written as a tidy object. -/
lemma EnrichedParameter.tidy_toJson {p : EnrichedParameter} (h : (Json.object p.settings).Tidy) :
    p.toJson.Tidy := by
  refine Json.tidy_object_of_own ownKeys
    [("name", .text p.name), ("expression", .text p.expression)] (by decide) (.refl _) ?_
    (h.filter _) fun field hfield => ?_
  · simp [Json.Tidy]
  · simpa using (List.mem_filter.1 hfield).2

/-- A request is written as a tidy object if its parameters are and it keeps unknown keys. -/
lemma ResolvedPid.tidy_toJson {pid : ResolvedPid} (hextra : OrderedMap.UniqueKeys pid.extra)
    (hkeeps : ∀ field ∈ pid.extra, PidEntry.Keeps field)
    (hparameters : ∀ p ∈ pid.parameters, p.toJson.Tidy) : pid.toJson.Tidy := by
  unfold ResolvedPid.toJson
  rw [List.append_cons]
  refine Json.tidy_object_of_own PidEntry.ownKeys _ (by decide)
    (PidEntry.keys_own_sublist _ _ _ _ _ _) ?_
    ⟨hextra, Json.tidyFields_iff.2 fun field hfield => (hkeeps field hfield).2⟩
    fun field hfield => (hkeeps field hfield).1
  have htable : (Json.array (pid.parameters.map EnrichedParameter.toJson)).Tidy :=
    Json.tidyItems_iff.2 (List.forall_mem_map.2 hparameters)
  cases pid.setup <;> simpa [PidEntry.optionalField, Json.Tidy] using htable

/-- A profile is written as a tidy object if its requests are and it keeps unknown keys. -/
lemma ResolvedProfile.tidy_toJson {profile : ResolvedProfile}
    (hextra : (Json.object profile.extra).Tidy)
    (hkeeps : ∀ field ∈ profile.extra, field.1 ∉ Fragment.ownKeys)
    (hpids : ∀ pid ∈ profile.pids, pid.toJson.Tidy) : profile.toJson.Tidy := by
  unfold ResolvedProfile.toJson
  rw [List.append_cons]
  refine Json.tidy_object_of_own Fragment.ownKeys _ (by decide)
    ((PidEntry.keys_own_sublist _ _ _ _ _ _).trans (by decide)) ?_ hextra hkeeps
  have htable : (Json.array (profile.pids.map ResolvedPid.toJson)).Tidy :=
    Json.tidyItems_iff.2 (List.forall_mem_map.2 hpids)
  cases profile.init <;> simpa [PidEntry.optionalField, Json.Tidy] using htable

/-- A request that is joined with a tidy library is written as a tidy object. -/
lemma ResolvedPid.tidy_of {library : ParameterLibrary} (hlibrary : library.Tidy) {entry : PidEntry}
    (hkeeps : ∀ field ∈ entry.extra, PidEntry.Keeps field) {pid : ResolvedPid}
    (h : ResolvedPid.of library entry = .ok pid) : pid.toJson.Tidy := by
  obtain ⟨parameters, hall, rfl⟩ := of_eq_ok_iff.1 h
  refine tidy_toJson entry.extra_unique hkeeps fun p hp => ?_
  obtain ⟨parameter, -, hof⟩ := Steps.exists_of_mem_values hall hp
  obtain ⟨definition, hget, rfl⟩ := EnrichedParameter.of_eq_ok_iff.1 hof
  exact EnrichedParameter.tidy_toJson (hlibrary parameter.1 definition hget)

/-- The own keys of a profile are the name of the vehicle, its setup and the requests. -/
lemma ResolvedProfile.mem_keys_toJson {profile : ResolvedProfile} {written : List (String × Json)}
    (h : profile.toJson = .object written) {name : String} (hname : name ∈ OrderedMap.keys written) :
    name ∈ ["car_model", "init", "pids"] ∨ name ∈ OrderedMap.keys profile.extra := by
  obtain rfl := Json.object.inj h
  rw [List.append_cons, OrderedMap.keys, List.map_append] at hname
  exact (List.mem_append.1 hname).imp_left ((PidEntry.keys_own_sublist _ _ _ _ _ _).subset ·)

/-! ## The written form -/

namespace ParameterLibrary

/-- What a parameter is written as: its name and its expression, then the settings that the library
has for it, in the order of the library, but for those under the keys of a parameter. -/
def WritesParameter (library : ParameterLibrary) (parameter : String × String) (written : Json) :
    Prop :=
  ∃ definition, library.get? parameter.1 = some definition ∧
    written = .object (("name", .text parameter.1) :: ("expression", .text parameter.2) ::
      definition.settings.filter fun setting => !(["name", "expression"].contains setting.1))

/-- What a request is written as: its code, its setup if it has one and its parameters, then what it
keeps. -/
def WritesRequest (library : ParameterLibrary) (entry : PidEntry) (written : Json) : Prop :=
  ∃ parameters, List.Forall₂ library.WritesParameter entry.parameters parameters ∧
    written = .object ((("pid", .text entry.code) :: PidEntry.optionalField "pid_init" entry.setup) ++
      ("parameters", .array parameters) :: entry.extra)

variable {library : ParameterLibrary}

/-- A parameter that is joined with the library is written with the settings that stand there. -/
lemma writesParameter_of {parameter : String × String} {p : EnrichedParameter}
    (h : EnrichedParameter.of library parameter = .ok p) :
    library.WritesParameter parameter p.toJson := by
  obtain ⟨definition, hget, rfl⟩ := EnrichedParameter.of_eq_ok_iff.1 h
  exact ⟨definition, hget, rfl⟩

/-- A request that is joined with the library is written parameter by parameter, and what it keeps
comes last. -/
lemma writesRequest_of {entry : PidEntry} {pid : ResolvedPid}
    (h : ResolvedPid.of library entry = .ok pid) : library.WritesRequest entry pid.toJson := by
  obtain ⟨parameters, hall, rfl⟩ := ResolvedPid.of_eq_ok_iff.1 h
  refine ⟨parameters.map EnrichedParameter.toJson, ?_, rfl⟩
  exact List.forall₂_map_right_iff.2 (hall.imp fun _ _ => writesParameter_of)

end ParameterLibrary

/-- What the requests of a chain keep: unknown keys with tidy values, each from a request of the same
code in a fragment of the chain. -/
def Chain.Keeps (chain : Chain) (code : String) (field : String × Json) : Prop :=
  PidEntry.Keeps field ∧ ∃ link ∈ chain, ∃ request ∈ link.2.pids.getD [],
    request.code = code ∧ field ∈ request.extra

/-- If every fragment of a chain was read, the resolved table keeps what the chain keeps. -/
lemma Resolution.keeps_of_parse {chain : Chain} {resolution : Resolution} {table : List PidEntry}
    (h : Resolution.ofChain? chain = some resolution) (htable : resolution.profile.pids = some table)
    (hread : ∀ link ∈ chain, ∃ path text, Fragment.parse path text = .ok link.2) :
    Layers.KeepsOnly chain.Keeps table := by
  refine Resolution.keepsOnly h htable fun link hlink request hrequest field hfield => ?_
  obtain ⟨path, text, hparse⟩ := hread link hlink
  exact ⟨Fragment.keeps_of_parse hparse request hrequest field hfield,
    link, hlink, request, hrequest, rfl, hfield⟩

namespace Build

variable {config : BuildConfig} {tree : FileTree} {key : Path}

/-- Every fragment of a chain that is collected was read from a text. -/
lemma exists_parse_of_collect {leaf : Fragment} {chain : Chain}
    (hleaf : config.folder.source tree key = .ok leaf)
    (h : Chain.collect (config.folder.source tree) config.maxDepth key leaf = .ok chain) :
    ∀ link ∈ chain, ∃ path text, Fragment.parse path text = .ok link.2 := by
  obtain ⟨ancestors, rfl, -, hsources⟩ := Chain.exists_lookups_of_collect h
  refine List.forall_mem_cons.2 ⟨?_, fun link hlink => ?_⟩
  · obtain ⟨text, -, hparse⟩ := ProfileFolder.exists_parse_of_source hleaf
    exact ⟨key, text, hparse⟩
  · obtain ⟨text, -, hparse⟩ := ProfileFolder.exists_parse_of_source (hsources link hlink)
    exact ⟨link.1, text, hparse⟩

/-- **What the profile of a fragment is written as.** A library that was read is tidy. If a fragment
compiles with a tidy library, no object in the written profile has a key twice. The profile is the
name of the vehicle, its setup if it has one, and the requests, then exactly those fields of the
leaf's document, in their order, that have none of the keys that a fragment knows; so none of the
keys that only layering and documents need is there. The requests are those of the resolved table:
each is its code, its setup if it has one, and its parameters, then what it keeps, which are fields
with keys that requests do not know, from requests of the same code in the chain. Each parameter is
its name and its expression, then the settings in the library's order, without those two keys.

**Proof sketch.** Reading sorts known keys out, of fragments (`Fragment.extra_ofJson`) and of
requests in both forms (`PidEntry.keeps_of_table?`), and merging makes up no fields
(`Resolution.keepsOnly`). With the own keys in front there is no collision at any of the three
levels (`Json.tidy_object_of_own`). -/
theorem compileFragment_written (config : BuildConfig) (tree : FileTree) (key : Path) :
    (∀ path text library, ParameterLibrary.parse path text = .ok library → library.Tidy) ∧
    (∀ library car, library.Tidy → compileFragment config tree library key = .ok car →
      car.toJson.Tidy ∧
      ∃ text fields leaf chain resolution table requests,
        config.folder.readText tree key = .ok text ∧ Json.parse text = .ok (.object fields) ∧
        Fragment.ofJson (.object fields) = .ok leaf ∧
        Chain.collect (config.folder.source tree) config.maxDepth key leaf = .ok chain ∧
        Resolution.ofChain? chain = some resolution ∧ resolution.profile.pids = some table ∧
        car.toJson = .object
          ((("car_model", .text leaf.carModel) :: PidEntry.optionalField "init" leaf.init) ++
            ("pids", .array requests) :: fields.filter fun field =>
              !(["car_model", "init", "extends", "pids", "add_to_docs", "note", "comment"].contains
                field.1)) ∧
        (∀ written, car.toJson = .object written →
          ∀ name ∈ ["extends", "note", "comment", "add_to_docs"], name ∉ OrderedMap.keys written) ∧
        List.Forall₂ library.WritesRequest table requests ∧
        ∀ entry ∈ table, ∀ field ∈ entry.extra,
          field.1 ∉ ["pid", "pid_init", "parameters"] ∧
            ∃ link ∈ chain, ∃ request ∈ link.2.pids.getD [],
              request.code = entry.code ∧ field ∈ request.extra) := by
  refine ⟨fun path text library => ParameterLibrary.tidy_of_parse, fun library car hlibrary h => ?_⟩
  obtain ⟨leaf, resolution, profile, note, hleaf, hresolve, hprofile, -, rfl⟩ :=
    compileFragment_eq_ok_iff.1 h
  obtain ⟨table, pids, htable, hjoined, rfl⟩ := ResolvedProfile.of_eq_ok_iff.1 hprofile
  obtain ⟨text, htext, hparse⟩ := ProfileFolder.exists_parse_of_source hleaf
  obtain ⟨fields, hdocument, htidy, hfragment⟩ := Fragment.exists_of_parse hparse
  obtain ⟨chain, hcollect, hfound⟩ := Fragment.resolve_eq_ok_iff.1 hresolve
  have hkeeps :=
    Resolution.keeps_of_parse hfound htable (exists_parse_of_collect hleaf hcollect)
  obtain ⟨ancestors, rfl, -⟩ := Chain.exists_lookups_of_collect hcollect
  obtain ⟨own, hown⟩ := Resolution.exists_profile_of_ofChain? hfound
  have hextra : resolution.profile.extra = PidEntry.fieldsBeyond Fragment.ownKeys fields := by
    rw [hown, ← Fragment.extra_ofJson hfragment]
  have hbeyond : ∀ field ∈ resolution.profile.extra, field.1 ∉ Fragment.ownKeys := fun field hfield =>
    (PidEntry.mem_fieldsBeyond_iff.1 (hextra ▸ hfield)).2
  have hpids : ∀ pid ∈ pids, pid.toJson.Tidy := by
    intro pid hpid
    obtain ⟨entry, hentry, hof⟩ := Steps.exists_of_mem_values hjoined hpid
    exact ResolvedPid.tidy_of hlibrary (fun field hfield => (hkeeps entry hentry field hfield).1) hof
  refine ⟨ResolvedProfile.tidy_toJson (hextra ▸ htidy.filter _) hbeyond hpids, text, fields, leaf, _,
    resolution, table, pids.map ResolvedPid.toJson, htext, hdocument, hfragment, hcollect, hfound,
    htable, ?_, fun written hwritten name hname hmem => ?_, ?_, fun entry hentry field hfield => ?_⟩
  · unfold ResolvedProfile.toJson
    dsimp only
    rw [hextra, hown]
    rfl
  · rcases ResolvedProfile.mem_keys_toJson hwritten hmem with howned | hkept
    · exact (by decide : ∀ name ∈ ["extends", "note", "comment", "add_to_docs"],
        name ∉ ["car_model", "init", "pids"]) name hname howned
    · obtain ⟨value, hfield⟩ := OrderedMap.mem_keys_iff.1 hkept
      exact hbeyond _ hfield ((by decide : ["extends", "note", "comment", "add_to_docs"] ⊆
        Fragment.ownKeys) hname)
  · exact List.forall₂_map_right_iff.2 (hjoined.imp fun _ _ => ParameterLibrary.writesRequest_of)
  · obtain ⟨⟨hkey, -⟩, hstems⟩ := hkeeps entry hentry field hfield
    exact ⟨hkey, hstems⟩

/-- A library that sets the key under which parameters have their names. -/
def sampleNamingText : String :=
  r#"{"X": {"settings": {"name": "x", "unit": "V"}}}"#

/-- What that text holds. -/
def sampleNaming : ParameterLibrary :=
  .ofDefinitions [⟨"X", none, [("name", .text "x"), ("unit", .text "V")]⟩]

/-- A base that has its requests in a mapping, with a code inside, and a leaf with keys that are for
layering and for the documents. -/
def sampleKeeping : FileTree :=
  ⟨[(["p"], .directory),
    (["p", "base.json"], .file (.text
      r#"{"pids": {"A": {"pid": "Z", "parameters": {"X": "1"}, "class": 1, "tail": 2}}}"#)),
    (["p", "leaf.json"], .file (.text
      r#"{"year": 3, "note": "n", "extends": "base.json", "comment": 4, "init": "i"}"#))], []⟩

/-- What the leaf compiles to: the last field of the request has taken the place of the code. -/
def sampleKept : ResolvedProfile where
  carModel := ""
  init := some "i"
  pids := [⟨"A", none, [⟨"X", "1", [("name", .text "x"), ("unit", .text "V")]⟩],
    [("tail", .integer 2), ("class", .integer 1)]⟩]
  extra := [("year", .integer 3)]
  note := some "(n)"
  listedInDocs := true
  source := ⟨"leaf.json"⟩

/-- The profile of the leaf is written without the keys that only layering and documents need, and
without a second name of the parameter. -/
theorem compileFragment_written_sampleKept :
    compileFragment { BuildConfig.default with profilesDir := ⟨"p"⟩ } sampleKeeping sampleNaming
        ⟨"leaf.json"⟩ = .ok sampleKept ∧
      sampleKept.toJson.Tidy ∧
      sampleKept.toJson = .object [("car_model", .text ""), ("init", .text "i"),
        ("pids", .array [.object [("pid", .text "A"), ("parameters", .array [.object
          [("name", .text "X"), ("expression", .text "1"), ("unit", .text "V")]]),
          ("tail", .integer 2), ("class", .integer 1)]]), ("year", .integer 3)] := by
  have hlibrary : ParameterLibrary.parse ⟨"params.json"⟩ sampleNamingText = .ok sampleNaming := by
    decide +kernel
  have hcompile : compileFragment { BuildConfig.default with profilesDir := ⟨"p"⟩ } sampleKeeping
      sampleNaming ⟨"leaf.json"⟩ = .ok sampleKept := by decide +kernel
  obtain ⟨hread, hwritten⟩ := compileFragment_written { BuildConfig.default with
    profilesDir := ⟨"p"⟩ } sampleKeeping ⟨"leaf.json"⟩
  exact ⟨hcompile, (hwritten _ _ (hread _ _ _ hlibrary) hcompile).1, by decide⟩

end Build

end LayeredProfiles
