import LayeredProfiles.Proofs.Build.Inputs
import LayeredProfiles.Proofs.Build.Writing

set_option autoImplicit false

/-!
# What a build would change

The files that a build would change are found without building: outputs are compared with the texts
that are there, and the schema is asked whether it would change. A build goes another way, by
writing temporary files and moving them. Both agree: the files that are listed are those whose bytes
differ before and after.

## Main definitions

* `Content.bytes`, `FileTree.bytes?` — the bytes of a file.

## Main results

* `Build.staleOutputs_eq` — the outputs that are not as they would be written.
* `Build.staleFiles_eq_changed` — the files that are listed are those that change.
-/

namespace LayeredProfiles

/-- The bytes of what a file holds, one by one. -/
def Content.bytes (content : Content) : List UInt8 :=
  content.toBytes.data.toList

/-- Only the same text has the same bytes. -/
lemma Content.bytes_text_inj {s t : String} : (text s).bytes = (text t).bytes ↔ s = t := by
  unfold bytes
  rw [Array.toList_inj, ← ByteArray.ext_iff]
  exact String.toByteArray_inj

/-- The bytes of the file that a path leads to, if there is one. -/
def FileTree.bytes? (tree : FileTree) (path : Path) : Option (List UInt8) :=
  match tree.lookup? path with
  | some (.file content) => some content.bytes
  | _ => none

/-- A file that can be read is there. -/
lemma FileTree.readIfThere_of_read {tree : FileTree} {path : Path} {text : String}
    (h : tree.read path = .ok text) : tree.readIfThere path = .ok (some text) := by
  unfold FileTree.readIfThere
  rw [Steps.mapError_eq_ok_iff.1 h]

namespace PlacedFile

variable {tree : FileTree} {file : PlacedFile}

/-- What is there under the path of a file is what is in its place. -/
lemma Leads.lookup?_eq (h : file.Leads tree) : tree.lookup? file.path = tree.at? file.location := by
  unfold FileTree.lookup?
  rw [FileTree.Spot.resolve h]
  rfl

/-- Where there is no directory and no file that is not a text, the bytes are those of the text that
can be read. -/
lemma Leads.exists_readIfThere (h : file.Leads tree) (hclear : file.Clear tree)
    (htext : ∀ bytes, tree.lookup? file.path ≠ some (.file (.binary bytes))) :
    ∃ current : Option String, tree.readIfThere file.path = .ok current ∧
      tree.bytes? file.path = current.map fun text => (Content.text text).bytes := by
  have hlookup := h.lookup?_eq
  have hresolve : tree.resolve file.path = .ok file.location := FileTree.Spot.resolve h
  unfold FileTree.readIfThere FileTree.readText FileTree.bytes?
  rw [hresolve, hlookup]
  rw [hlookup] at htext
  dsimp only [bind, Except.bind]
  cases hentry : tree.at? file.location with
  | none => exact ⟨none, rfl, rfl⟩
  | some entry =>
    match entry with
    | .directory => exact absurd hentry hclear.2
    | .file (.text text) => exact ⟨some text, rfl, rfl⟩
    | .file (.binary bytes) => exact absurd hentry (htext bytes)

/-- The bytes of a file that can be read are those of its text. -/
lemma Leads.bytes?_of_read (h : file.Leads tree) {text : String}
    (hread : tree.read file.path = .ok text) :
    tree.bytes? file.path = some (Content.text text).bytes := by
  have hresolve : tree.resolve file.path = .ok file.location := FileTree.Spot.resolve h
  obtain ⟨location, hlocation, hentry⟩ :=
    FileTree.readText_eq_ok_iff.1 (Steps.mapError_eq_ok_iff.1 hread)
  obtain rfl : file.location = location := Except.ok.inj (hresolve.symm.trans hlocation)
  unfold FileTree.bytes?
  rw [h.lookup?_eq, hentry]

end PlacedFile

namespace Build

variable {config : BuildConfig} {root : Path} {tree after : FileTree} {library : ParameterLibrary}
  {outs : Outputs} {sites : Sites} {updated : Bool} {document : Json}

/-- The files that are not as they would be written are those that differ from their contents. -/
lemma staleOutputs_eq {stale : Path → Bool} {files : List RenderedFile}
    (h : ∀ file ∈ files, ∃ current, tree.readIfThere file.path = .ok current ∧
      (current = some file.content ↔ stale file.path = false)) :
    staleOutputs tree files = .ok ((files.map RenderedFile.path).filter stale) := by
  induction files with
  | nil => rfl
  | cons file rest ih =>
    obtain ⟨current, hread, hcurrent⟩ := h file List.mem_cons_self
    have hrest := ih fun other hother => h other (List.mem_cons_of_mem _ hother)
    unfold staleOutputs
    rw [hread, hrest, List.map_cons]
    dsimp only [bind, Except.bind]
    by_cases hsame : current = some file.content
    · rw [if_pos hsame, List.filter_cons_of_neg (by simp [hcurrent.1 hsame])]
    · rw [if_neg hsame, List.filter_cons_of_pos (by simpa [hcurrent] using hsame)]

/-- The outputs that are not as they would be written are those whose bytes change. -/
lemma Wrote.staleOutputs_eq (h : Wrote sites config root library outs updated document tree after)
    (htext : ∀ file ∈ outs.files, ∀ bytes, tree.lookup? file.path ≠ some (.file (.binary bytes))) :
    staleOutputs tree outs.files = .ok ((outs.files.map RenderedFile.path).filter fun path =>
      tree.bytes? path ≠ after.bytes? path) := by
  refine Build.staleOutputs_eq fun rendered hrendered => ?_
  obtain ⟨file, hfile, rfl⟩ : ∃ file ∈ sites.outputs outs, file.toRenderedFile = rendered :=
    List.mem_map.1 hrendered
  have hchanged : file ∈ sites.changed outs (config.schemaFile.rendered document) updated :=
    List.mem_append_left _ hfile
  have hleads := h.leads file (List.mem_append_left _ hfile)
  obtain ⟨current, hread, hbytes⟩ := hleads.exists_readIfThere (h.clear file hchanged)
    (htext file.toRenderedFile hrendered)
  refine ⟨current, hread, ?_⟩
  have hafter := hleads.rewritten h.rewritten
  rw [hbytes, hafter.bytes?_of_read ((h.settled file hchanged).read_eq hafter)]
  cases current with
  | none => simp
  | some text => simp [Content.bytes_text_inj]

/-- The bytes of the schema change exactly if the schema does. -/
lemma Wrote.bytes?_schema_ne_iff (hconfig : config.Conventional root)
    (h : Wrote sites config root library outs updated document tree after) :
    tree.bytes? config.schemaPath ≠ after.bytes? config.schemaPath ↔ updated = true := by
  have hfile : sites.schema (config.schemaFile.rendered document) ∈
      sites.files outs (config.schemaFile.rendered document) := by simp [Sites.files]
  have hleads := h.leads _ hfile
  obtain ⟨text, found, hread, hparse, hset⟩ := SchemaFile.withNames_eq_ok_iff.1 h.withNames
  have hbefore : tree.bytes? config.schemaPath = some (Content.text text).bytes :=
    hleads.bytes?_of_read hread
  have hafter := hleads.rewritten h.rewritten
  rw [hbefore]
  cases updated with
  | false =>
    have hchanged : FileTree.Rewritten tree after (FileTree.touchedBy (sites.outputs outs)) := by
      simpa [Sites.changed] using h.rewritten_changed
    have hkept : after.bytes? config.schemaPath = some (Content.text text).bytes :=
      hafter.bytes?_of_read ((h.serve.rootAt.read_schema hconfig hchanged
        Sites.not_below_schema).trans hread)
    simp [hkept]
  | true =>
    have hsettled := h.settled _ (List.mem_append_right _ (List.mem_singleton_self _))
    have hnew : after.bytes? config.schemaPath =
        some (Content.text (SchemaFile.textOf document)).bytes :=
      hafter.bytes?_of_read (hsettled.read_eq hafter)
    rw [hnew]
    simpa [Content.bytes_text_inj] using Enumeration.ne_textOf_of_setAt hparse hset

/-- **What a build would change.** Under the conventional layout, with the artifact indented or not,
in a session whose tree stands for real files: if the outputs can be rendered and written and the
schema can be brought in line, and if the outputs that are there already are texts, then the files
that a build would change are found, and they are those of the artifact, the document of supported
vehicles, the document of supported parameters and the schema, in this order, whose bytes that does
change. Finding them changes no file.

**Proof sketch.** Writing touches the places of these four files only, and in the end each file that
was written holds its text (`exists_wrote`, `Wrote.settled`). So the bytes of an output change
unless it holds its text already. The schema is written exactly if its document changes, and then
the text does too: it would be read back as a document that does not change
(`Enumeration.ne_textOf_of_setAt`). -/
theorem staleFiles_eq_changed {root : Path} {pretty : Bool} {session rendering writing after : Session}
    (hconfig : session.config = { BuildConfig.forRoot root with pretty := pretty })
    (hgrounded : session.tree.Grounded) {choices : List Nat} {outputs : Outputs}
    {written : List Path} {updated : Bool}
    (hrender : (compiled choices >>= rendered).runIn session = (.ok outputs, rendering))
    (hemit : (emitted outputs).runIn rendering = (.ok written, writing))
    (hsync : syncSchema.runIn writing = (.ok updated, after))
    (htext : ∀ file ∈ outputs.files, ∀ bytes,
      session.tree.lookup? file.path ≠ some (.file (.binary bytes)))
    (others : List Nat) :
    (staleFiles others).runIn session =
        (.ok ([outputs.artifact.path, outputs.vehicles.path, outputs.parameters.path,
            session.config.schemaPath].filter fun path =>
          session.tree.bytes? path ≠ after.tree.bytes? path), rendering) ∧
      rendering.tree = session.tree := by
  have hlayout : session.config.Conventional root :=
    hconfig ▸ BuildConfig.conventional_forRoot root pretty
  obtain ⟨artifact, between, hcompiled, hrendered⟩ := runIn_bind_eq_ok_iff.1 hrender
  obtain ⟨library, hlibrary, rfl, hcompile⟩ := runIn_compiled_eq_ok_iff.1 hcompiled
  obtain ⟨_, ⟨⟩, rfl, houtputs⟩ := runIn_rendered_eq_ok_iff.1 hrendered
  obtain ⟨tree, hwrite, rfl⟩ := runIn_onFiles_eq_ok_iff.1 hemit
  obtain ⟨_, last, ⟨⟩, hschema, rfl⟩ := runIn_syncSchema_eq_ok_iff.1 hsync
  obtain ⟨sites, document, hwrote, -⟩ := exists_wrote hlayout hgrounded houtputs hwrite hschema
  have hcompiles :=
    compile_of_compile hgrounded.toWellNamed hcompile session.config rfl rfl rfl others
  have hcurrent : session.config.schemaFile.isCurrent session.tree library = .ok (!updated) :=
    congrArg (Except.map fun found : Bool × Json => !found.1) hwrote.withNames
  refine ⟨?_, rfl⟩
  rw [runIn_staleFiles hlibrary hcompiles houtputs (hwrote.staleOutputs_eq htext) hcurrent]
  have hchanges := hwrote.bytes?_schema_ne_iff hlayout
  change (Except.ok _, session.keep library) = (Except.ok (List.filter _
    (outputs.files.map RenderedFile.path ++ [session.config.schemaPath])), session.keep library)
  -- the outputs are settled, and what is left is the schema at the end of both lists
  rw [List.filter_append]
  cases updated with
  | false =>
    have hkept : ¬ session.tree.bytes? session.config.schemaPath ≠
        last.bytes? session.config.schemaPath := by simp [hchanges]
    simp [hkept]
  | true =>
    have hnew := hchanges.2 rfl
    simp [hnew]

/-! ## A session -/

/-- A session under the conventional layout with one fragment, an artifact that is as it should be,
an empty document of supported vehicles, none of supported parameters, and the given schema. -/
def sampleSite (schema : Json) : Session where
  config := { BuildConfig.forRoot ⟨"r"⟩ with pretty := false }
  library := none
  tree :=
    let text := fun document : Json => Entry.file (.text document.toText)
    ⟨[(["r"], .directory), (["r", ".vehicle_profiles"], .directory),
      (["r", ".vehicle_profiles", "params.json"],
        text (.object [("X", .object [("settings", .object [("unit", .text "V")])])])),
      (["r", ".vehicle_profiles", "schema.json"], text schema),
      (["r", "vehicle_profiles"], .directory),
      (["r", "vehicle_profiles", "a.json"],
        text (.object [("pids", .object [("A", .object [("parameters", .object
          [("X", .text "1")])])])])),
      (["r", "vehicle_profiles.json"], text (.object [("cars", .array [.object
        [("car_model", .text ""), ("pids", .array [.object [("pid", .text "A"),
          ("parameters", .array [.object [("name", .text "X"), ("expression", .text "1"),
            ("unit", .text "V")]])]])]])])),
      (["r", "docs"], .directory), (["r", "docs", "content"], .directory),
      (["r", "docs", "content", "1.Config"], .directory),
      (["r", "docs", "content", "1.Config", "1.Automate"], .directory),
      (["r", "docs", "content", "1.Config", "1.Automate", "2.Supported_Vehicles.md"],
        .file (.text ""))], []⟩

/-- With an empty schema, its tree stands for real files. -/
lemma grounded_sampleSite : (sampleSite (.object [])).tree.Grounded := by decide +kernel

/-- All its files are texts. -/
lemma lookup?_sampleSite_ne_binary (schema : Json) (path : Path) (bytes : List UInt8) :
    (sampleSite schema).tree.lookup? path ≠ some (.file (.binary bytes)) := by
  intro h
  unfold FileTree.lookup? at h
  split at h
  · next location _ =>
    cases location with
    | nil => cases h
    | cons name names =>
      have hentry := OrderedMap.mem_of_get? h
      simp [sampleSite] at hentry
  · cases h

/-- No directory is in the way of its outputs. -/
lemma clear_sampleSite (schema : Json) (sites : Sites) (hnamed : sites.Named) {outs : Outputs}
    {rendered : RenderedFile} :
    ∀ file ∈ sites.files outs rendered, file.Clear (sampleSite schema).tree := by
  refine Sites.clear_of_lastLetter hnamed fun l hl => ?_
  cases l with
  | nil => decide
  | cons name names =>
    have hentry := OrderedMap.mem_of_get? hl
    simp only [sampleSite, List.mem_cons, Prod.mk.injEq, reduceCtorEq, and_false, and_true, false_or,
      or_false, List.not_mem_nil] at hentry
    rcases hentry with h | h | h | h | h | h | h <;> rw [h] <;> decide

/-- A schema that enumerates the one parameter of the session. -/
def sampleSchema : Json :=
  ["properties", "pids", "items", "properties", "parameters", "propertyNames", "enum"].foldr
    (fun segment inner => .object [(segment, inner)]) (.ofTexts ["X"])

/-- The artifact of the session. -/
def siteArtifact : Artifact where
  cars := [⟨"", none, [⟨"A", none, [⟨"X", "1", [("unit", .text "V")]⟩], []⟩], [], none, true,
    ⟨"a.json"⟩⟩]

/-- The outputs of the session. -/
def siteOutputs : Outputs where
  artifact := ⟨⟨"r/vehicle_profiles.json"⟩, siteArtifact.toText false⟩
  vehicles := ⟨⟨"r/docs/content/1.Config/1.Automate/2.Supported_Vehicles.md"⟩,
    Document.render Document.vehiclesBody (Document.vehicleRows siteArtifact)⟩
  parameters := ⟨⟨"r/docs/content/1.Config/1.Automate/3.Supported_Parameters.md"⟩,
    Document.render Document.parametersBody (Document.parameterRows sampleLibrary)⟩

/-- The session once the outputs are written. -/
def siteWritten : Session :=
  { (sampleSite sampleSchema).keep sampleLibrary with
    tree := ((emit siteOutputs.files).runOn (sampleSite sampleSchema).tree).2 }

/-- The session once the schema is in line as well. -/
def siteSynced : Session :=
  { siteWritten.keep sampleLibrary with
    tree := ((siteWritten.config.schemaFile.sync sampleLibrary).runOn siteWritten.tree).2 }

/-- In the session with a schema that only is not indented, the two documents would change. -/
theorem staleFiles_eq_changed_sampleSite :
    (sampleSite sampleSchema).tree.Grounded ∧
      (compiled [] >>= rendered).runIn (sampleSite sampleSchema) =
        (.ok siteOutputs, (sampleSite sampleSchema).keep sampleLibrary) ∧
      (emitted siteOutputs).runIn ((sampleSite sampleSchema).keep sampleLibrary) =
        (.ok (siteOutputs.files.map RenderedFile.path), siteWritten) ∧
      syncSchema.runIn siteWritten = (.ok false, siteSynced) ∧
      (staleFiles [1]).runIn (sampleSite sampleSchema) =
        (.ok [siteOutputs.vehicles.path, siteOutputs.parameters.path],
          (sampleSite sampleSchema).keep sampleLibrary) := by
  have hconfig : (sampleSite sampleSchema).config =
      { BuildConfig.forRoot ⟨"r"⟩ with pretty := false } := rfl
  have hgrounded : (sampleSite sampleSchema).tree.Grounded := by decide +kernel
  have hcompiled : (compiled []).runIn (sampleSite sampleSchema) =
      (.ok siteArtifact, (sampleSite sampleSchema).keep sampleLibrary) :=
    runIn_compiled_eq_ok_iff.2 ⟨sampleLibrary, by decide +kernel, rfl, by decide +kernel⟩
  have hlayout : (sampleSite sampleSchema).config.Conventional ⟨"r"⟩ :=
    BuildConfig.conventional_forRoot ⟨"r"⟩ false
  have houtputs : render (sampleSite sampleSchema).config (sampleSite sampleSchema).tree
      sampleLibrary siteArtifact = .ok siteOutputs :=
    (render_eq_ok_iff hlayout).2 ⟨siteOutputs.vehicles.path, siteOutputs.parameters.path,
      by decide +kernel, by decide +kernel, rfl⟩
  have hrendered : (rendered siteArtifact).runIn ((sampleSite sampleSchema).keep sampleLibrary) =
      (.ok siteOutputs, (sampleSite sampleSchema).keep sampleLibrary) :=
    runIn_rendered_eq_ok_iff.2 ⟨sampleLibrary, rfl, rfl, houtputs⟩
  have hrender := runIn_bind_eq_ok_iff.2 ⟨siteArtifact, _, hcompiled, hrendered⟩
  have hnames : (sampleSite sampleSchema).config.schemaFile.withNames (sampleSite sampleSchema).tree
      sampleLibrary = .ok (false, sampleSchema) := by decide +kernel
  obtain ⟨sites, between, last, hwrote, hemit, hsync⟩ := exists_wrote_of_clear hlayout hgrounded
    houtputs hnames fun sites hnamed => clear_sampleSite sampleSchema sites hnamed
  have hwritten : siteWritten =
      { (sampleSite sampleSchema).keep sampleLibrary with tree := between } := by
    rw [siteWritten, hemit]
  have hsynced : siteSynced =
      { (sampleSite sampleSchema).keep sampleLibrary with tree := last } := by
    rw [siteSynced, hwritten]
    exact congrArg (fun run => { (sampleSite sampleSchema).keep sampleLibrary with tree := run.2 })
      hsync
  have hwrites : (emitted siteOutputs).runIn ((sampleSite sampleSchema).keep sampleLibrary) =
      (.ok (siteOutputs.files.map RenderedFile.path), siteWritten) := by
    rw [hwritten]
    exact runIn_onFiles_eq_ok_iff.2 ⟨between, hemit, rfl⟩
  have hsyncs : syncSchema.runIn siteWritten = (.ok false, siteSynced) := by
    rw [hsynced, hwritten]
    exact runIn_syncSchema_eq_ok_iff.2 ⟨sampleLibrary, last, rfl, hsync, rfl⟩
  have htext : ∀ file ∈ siteOutputs.files, ∀ bytes,
      (sampleSite sampleSchema).tree.lookup? file.path ≠ some (.file (.binary bytes)) :=
    fun file _ => lookup?_sampleSite_ne_binary sampleSchema file.path
  have hstale := staleFiles_eq_changed hconfig hgrounded hrender hwrites hsyncs htext [1]
  have hlisted : staleOutputs (sampleSite sampleSchema).tree siteOutputs.files =
      .ok [siteOutputs.vehicles.path, siteOutputs.parameters.path] := by decide +kernel
  have hfilter : (siteOutputs.files.map RenderedFile.path).filter (fun path =>
        (sampleSite sampleSchema).tree.bytes? path ≠ last.bytes? path) =
      [siteOutputs.vehicles.path, siteOutputs.parameters.path] :=
    Except.ok.inj ((hwrote.staleOutputs_eq htext).symm.trans hlisted)
  have hschema : ¬ (sampleSite sampleSchema).tree.bytes? (sampleSite sampleSchema).config.schemaPath ≠
      last.bytes? (sampleSite sampleSchema).config.schemaPath := by
    simp [hwrote.bytes?_schema_ne_iff hlayout]
  have hchanges : [siteOutputs.artifact.path, siteOutputs.vehicles.path,
      siteOutputs.parameters.path, (sampleSite sampleSchema).config.schemaPath].filter (fun path =>
        (sampleSite sampleSchema).tree.bytes? path ≠ siteSynced.tree.bytes? path) =
      [siteOutputs.vehicles.path, siteOutputs.parameters.path] := by
    rw [hsynced]
    change (siteOutputs.files.map RenderedFile.path ++ [_]).filter _ = _
    rw [List.filter_append, hfilter, List.filter_singleton, decide_eq_false hschema]
    rfl
  rw [hchanges] at hstale
  exact ⟨hgrounded, hrender, hwrites, hsyncs, hstale.1⟩

end Build

end LayeredProfiles
