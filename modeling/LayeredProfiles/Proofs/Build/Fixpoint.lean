import LayeredProfiles.Proofs.Build.Drift

set_option autoImplicit false

/-!
# Building again

A build under the conventional layout leaves a tree in which nothing is left to be built: the
fragments and the parameter library are in other places, a document that was made is found the next
time, and a schema that was written is read back with the names in it. So building again changes no
file, and no file is reported that a build would change.

## Main definitions

* `Build.Built` — nothing is left to be built.

## Main results

* `Build.Built.runIn_staleFiles`, `Build.Built.runIn_all` — where nothing is left to be built.
* `Build.Wrote.built` — what was written is what the next build finds.
* `Build.all_fixpoint` — building again changes nothing.
-/

namespace LayeredProfiles.Build

variable {config : BuildConfig} {root : Path} {tree after : FileTree} {library : ParameterLibrary}
  {artifact : Artifact} {outs : Outputs} {sites : Sites} {updated : Bool} {document : Json}

/-- Nothing is left to be built: the artifact and the outputs are these in whatever order tasks end,
and everything that would be written is there already. -/
structure Built (config : BuildConfig) (library : ParameterLibrary) (artifact : Artifact)
    (outs : Outputs) (tree : FileTree) : Prop where
  /-- The library can be loaded again. -/
  load : loadLibrary config tree = .ok library
  /-- The fragments compile to the artifact. -/
  compile : ∀ choices, compile config choices tree library = .ok artifact
  /-- The artifact is rendered to the outputs. -/
  render : render config tree library artifact = .ok outs
  /-- No output is stale. -/
  stale : staleOutputs tree outs.files = .ok []
  /-- Writing the outputs changes nothing. -/
  emit : (emit outs.files).runOn tree = (.ok (outs.files.map RenderedFile.path), tree)
  /-- The schema enumerates the parameters. -/
  names : ∃ document, config.schemaFile.withNames tree library = .ok (false, document)
  /-- All fragments pass the check. -/
  valid : ∀ choices, ∃ count, validate config choices tree = .ok count

/-! ## Where nothing is left to be built -/

namespace Built

variable {session : Session} (h : Built session.config library artifact outs session.tree)
  (hlibrary : session.library? = .ok library)

include h hlibrary

/-- Where nothing is left to be built, no file is reported. -/
lemma runIn_staleFiles (choices : List Nat) :
    (staleFiles choices).runIn session = (.ok [], session.keep library) := by
  obtain ⟨document, hnames⟩ := h.names
  have hcurrent : session.config.schemaFile.isCurrent session.tree library = .ok true :=
    congrArg (Except.map fun found : Bool × Json => !found.1) hnames
  exact Build.runIn_staleFiles hlibrary (h.compile choices) h.render h.stale hcurrent

/-- Where nothing is left to be built, building changes nothing. -/
lemma runIn_all (choices : List Nat) :
    (all choices).runIn session =
      (.ok ⟨artifact.cars.length, artifact.documented.length, false,
        outs.files.map RenderedFile.path⟩, session.keep library) := by
  obtain ⟨document, hnames⟩ := h.names
  have hkept : (session.keep library).library? = .ok library := rfl
  refine runIn_all_eq_ok_iff.2 ⟨artifact, _, session.keep library, false, ?_, ?_, rfl⟩
  · refine runIn_outputsHalf_eq_ok_iff.2 ⟨outs, session.keep library, ?_, session.keep library,
      ?_, ?_⟩
    · exact runIn_compiled_eq_ok_iff.2 ⟨library, hlibrary, rfl, h.compile choices⟩
    · exact runIn_rendered_eq_ok_iff.2 ⟨library, hkept, rfl, h.render⟩
    · exact runIn_onFiles_eq_ok_iff.2 ⟨session.tree, h.emit, rfl⟩
  · refine runIn_schemaHalf_eq_ok_iff.2 ⟨?_, h.valid choices⟩
    refine runIn_syncSchema_eq_ok_iff.2 ⟨library, session.tree, hkept, ?_, rfl⟩
    exact SchemaFile.runOn_sync_eq_ok_iff.2 ⟨document, [], hnames, rfl⟩

end Built

/-! ## What a build leaves -/

/-- A schema that was written is read. -/
lemma Wrote.read_schemaPath
    (h : Wrote sites config root library outs true document tree after) :
    after.read config.schemaPath = .ok (SchemaFile.textOf document) := by
  have hsettled := h.settled _ (List.mem_append_right _ (List.mem_singleton_self _))
  have hleads :=
    h.leads (sites.schema (config.schemaFile.rendered document)) (by simp [Sites.files])
  exact hsettled.read_eq (hleads.rewritten h.rewritten)

namespace Wrote

variable (h : Wrote sites config root library outs updated document tree after)
  (hconfig : config.Conventional root)

include h hconfig

/-- The library is loaded again from the same text. -/
lemma loadLibrary_eq (hload : loadLibrary config tree = .ok library) :
    loadLibrary config after = .ok library := by
  obtain ⟨text, hread, hparse⟩ := Steps.bind_eq_ok_iff.1 hload
  refine Steps.bind_eq_ok_iff.2 ⟨text, ?_, hparse⟩
  rw [hconfig.paramsPath] at hread ⊢
  exact (h.serve.read_eq_ok_iff h.rewritten (List.cons_ne_nil _ _) (by decide)
    Sites.params_not_touched).2 hread

/-- The schema that is there now enumerates the parameters, if it can be read back. -/
lemma exists_withNames {schema : Schema} (hschema : config.schemaFile.schema after = .ok schema) :
    ∃ found, config.schemaFile.withNames after library = .ok (false, found) := by
  cases updated with
  -- it had the names before and was left alone, or they were written and are read back
  | false =>
    have hchanged : FileTree.Rewritten tree after (FileTree.touchedBy (sites.outputs outs)) := by
      simpa [Sites.changed] using h.rewritten_changed
    exact ⟨document, (h.serve.rootAt.withNames_rewritten hconfig hchanged Sites.not_below_schema
      library).trans h.withNames⟩
  | true =>
    obtain ⟨text, before, -, hparse, hset⟩ := SchemaFile.withNames_eq_ok_iff.1 h.withNames
    obtain ⟨found, hfound, -⟩ := Steps.bind_eq_ok_iff.1 hschema
    obtain ⟨written, hread, hagain⟩ := SchemaFile.document_eq_ok_iff.1 hfound
    have hwritten : written = SchemaFile.textOf document :=
      Except.ok.inj (hread.symm.trans h.read_schemaPath)
    refine ⟨found, SchemaFile.withNames_eq_ok_iff.2 ⟨written, found, hread, hagain, ?_⟩⟩
    exact Enumeration.setAt_of_parse (Json.legible_of_parse hparse) hset (hwritten ▸ hagain)

/-- **What was written is what the next build finds**, if the library could be loaded, the outputs
are those of the fragments, and the fragments pass the check once the schema is in line. -/
theorem built (hgrounded : tree.Grounded) (hload : loadLibrary config tree = .ok library)
    {choices : List Nat} (hcompile : compile config choices tree library = .ok artifact)
    (hrender : render config tree library artifact = .ok outs) {count : Nat}
    (hvalid : validate config choices after = .ok count) :
    Built config library artifact outs after := by
  have hsettled : ∀ file ∈ sites.outputs outs, file.Settled after := fun file hfile =>
    h.settled file (List.mem_append_left _ hfile)
  have hleads : ∀ file ∈ sites.outputs outs, file.Leads after := fun file hfile =>
    (h.leads file (List.mem_append_left _ hfile)).rewritten h.rewritten
  obtain ⟨schema, hschema, -⟩ := Steps.bind_eq_ok_iff.1 hvalid
  exact {
    load := h.loadLibrary_eq hconfig hload
    compile := compile_rewritten h.rewritten (h.serve.rootAt.resolve_profilesDir hconfig)
      Sites.not_below_fragments hconfig.noteFile hgrounded hcompile
    render := h.serve.render_rewritten hconfig hrender h.rewritten hsettled
    stale := by
      have hnone : ([] : List Path) =
          (outs.files.map RenderedFile.path).filter fun _ => false := by simp
      rw [hnone]
      refine Build.staleOutputs_eq fun rendered hrendered => ⟨some rendered.content, ?_, by simp⟩
      obtain ⟨file, hfile, rfl⟩ : ∃ file ∈ sites.outputs outs, file.toRenderedFile = rendered :=
        List.mem_map.1 hrendered
      exact FileTree.readIfThere_of_read ((hsettled file hfile).read_eq (hleads file hfile))
    emit := (runOn_emit_eq_ok_iff hleads).2 ⟨fun file hfile => (hsettled file hfile).clear, rfl,
      (FileTree.written_of_settled hsettled).symm⟩
    names := h.exists_withNames hconfig hschema
    valid := fun others => ⟨count, validate_eq_ok_iff.2 (validate_eq_ok_iff.1 hvalid)⟩ }

end Wrote

/-- **Building again changes nothing.** Under the conventional layout, with the artifact indented or
not, in a tree that stands for real files: if a build succeeds, then afterwards, in the same session
or in a new one, no file is reported that a build would change, and a second build succeeds, writes
no schema and leaves every file as it is, whatever the order in which tasks end.

**Proof sketch.** The build touches the places of four files (`exists_wrote`), none of which is read
when fragments are compiled (`Sites.not_below_fragments`) or the library is loaded. The documents
are found in their places again (`Sites.Serve.render_rewritten`), and the schema, which was read
back when the fragments were checked, has the names in it (`Enumeration.setAt_of_parse`). So each
file that is written again holds its text already and has no temporary file beside it, and replacing
such a file by itself leaves the very same tree (`FileTree.written_of_settled`). -/
theorem all_fixpoint {root : Path} {pretty : Bool} {tree : FileTree} {session after : Session}
    (hopen : Session.open? { BuildConfig.forRoot root with pretty := pretty } tree = .ok session)
    (hgrounded : tree.Grounded) {choices : List Nat} {summary : BuildSummary}
    (hbuild : (all choices).runIn session = (.ok summary, after)) (second : Session)
    (hsecond : second = after ∨
      Session.open? { BuildConfig.forRoot root with pretty := pretty } after.tree = .ok second)
    (others : List Nat) :
    (staleFiles others).runIn second = (.ok [], after) ∧
      (all others).runIn second = (.ok { summary with schemaUpdated := false }, after) := by
  have hlayout := BuildConfig.conventional_forRoot root pretty
  generalize { BuildConfig.forRoot root with pretty := pretty } = config at hopen hsecond hlayout
  obtain ⟨⟨⟩, hcheck, ⟨⟩⟩ := Steps.bind_eq_ok_iff.1 hopen
  obtain ⟨artifact, written, between, updated, hfirst, hlast, rfl⟩ := runIn_all_eq_ok_iff.1 hbuild
  obtain ⟨outs, _, hcompiled, _, hrendered, hemitted⟩ := runIn_outputsHalf_eq_ok_iff.1 hfirst
  obtain ⟨library, hload, rfl, hcompile⟩ := runIn_compiled_eq_ok_iff.1 hcompiled
  obtain ⟨_, ⟨⟩, rfl, hrender⟩ := runIn_rendered_eq_ok_iff.1 hrendered
  obtain ⟨outcome, hemit, rfl⟩ := runIn_onFiles_eq_ok_iff.1 hemitted
  obtain ⟨hsynced, count, hvalid⟩ := runIn_schemaHalf_eq_ok_iff.1 hlast
  obtain ⟨_, last, ⟨⟩, hsync, rfl⟩ := runIn_syncSchema_eq_ok_iff.1 hsynced
  obtain ⟨sites, document, hwrote, rfl⟩ := exists_wrote hlayout hgrounded hrender hemit hsync
  -- the session keeps its library, and a new one loads the same
  have hbuilt := hwrote.built hlayout hgrounded hload hcompile hrender hvalid
  rcases hsecond with rfl | hreopened
  · exact ⟨hbuilt.runIn_staleFiles rfl others, hbuilt.runIn_all rfl others⟩
  · obtain ⟨⟨⟩, -, ⟨⟩⟩ := Steps.bind_eq_ok_iff.1 hreopened
    have hreload : Session.library? ⟨config, none, last⟩ = .ok library := hbuilt.load
    exact ⟨hbuilt.runIn_staleFiles hreload others, hbuilt.runIn_all hreload others⟩

/-- The session with an empty schema after a build. -/
def siteBuilt : Session :=
  ((all []).runIn (sampleSite (.object []))).2

/-- The session with an empty schema after a build in which tasks end in the given order. -/
def siteAfter (choices : List Nat) : Session :=
  ((all choices).runIn (sampleSite (.object []))).2

/-- It is what the build leaves. While the order is open, the build is not carried out to see this. -/
lemma siteAfter_eq {choices : List Nat} {outcome : Except Failure BuildSummary} {last : Session}
    (h : (all choices).runIn (sampleSite (.object [])) = (outcome, last)) :
    siteAfter choices = last :=
  congrArg Prod.snd h

/-- The schema of the session is read back once it is written. -/
lemma parse_textOf_sampleSchema :
    Json.parse (SchemaFile.textOf sampleSchema) = .ok sampleSchema := by
  refine Json.parse_toPrettyText ?_ ?_ (by decide +kernel)
  · simp [sampleSchema, Json.ofTexts, Json.Legible, Json.LegibleFields, Json.LegibleItems,
      OrderedMap.UniqueKeys]
  · simp [sampleSchema, Json.ofTexts, Json.Faithful, Json.FaithfulFields, Json.FaithfulItems]

/-- The fragment of the session passes the check once its schema is written. -/
lemma validate_sampleSite {last : FileTree}
    (hwrote : Wrote sites (sampleSite (.object [])).config ⟨"r"⟩ sampleLibrary siteOutputs true
      sampleSchema (sampleSite (.object [])).tree last) :
    validate (sampleSite (.object [])).config [] last = .ok 1 := by
  have hlayout : (sampleSite (.object [])).config.Conventional ⟨"r"⟩ :=
    BuildConfig.conventional_forRoot ⟨"r"⟩ false
  have hdocument : (sampleSite (.object [])).config.schemaFile.document last = .ok sampleSchema :=
    SchemaFile.document_eq_ok_iff.2 ⟨_, hwrote.read_schemaPath, parse_textOf_sampleSchema⟩
  have hresolve := hwrote.serve.rootAt.resolve_profilesDir hlayout
  have hkeys : (sampleSite (.object [])).config.folder.keys (sampleSite (.object [])).tree =
      .ok [⟨"a.json"⟩] := by decide +kernel
  have hchecked : (do
      let schema ← Schema.ofDocument (sampleSite (.object [])).config.schemaPath sampleSchema
      validateFragment (sampleSite (.object [])).config (sampleSite (.object [])).tree schema
        ⟨"a.json"⟩) = .ok none := by decide +kernel
  obtain ⟨schema, hschema, hpasses⟩ := Steps.bind_eq_ok_iff.1 hchecked
  refine validate_eq_ok_iff.2 ⟨schema, [⟨"a.json"⟩], Steps.bind_eq_ok_iff.2
    ⟨sampleSchema, hdocument, hschema⟩, ?_, ?_, rfl⟩
  · exact (ProfileFolder.keys_rewritten hwrote.rewritten hresolve Sites.not_below_fragments).trans hkeys
  · rw [validateFragment_rewritten hwrote.rewritten hresolve Sites.not_below_fragments]
    simpa using hpasses

/-- Building in the session with an empty schema makes a document and writes the schema. -/
lemma runIn_all_sampleSite :
    (all []).runIn (sampleSite (.object [])) =
      (.ok ⟨1, 1, true, siteOutputs.files.map RenderedFile.path⟩, siteBuilt) := by
  have hlayout : (sampleSite (.object [])).config.Conventional ⟨"r"⟩ :=
    BuildConfig.conventional_forRoot ⟨"r"⟩ false
  have hlibrary : (sampleSite (.object [])).library? = .ok sampleLibrary := by decide +kernel
  have hcompile : compile (sampleSite (.object [])).config [] (sampleSite (.object [])).tree
      sampleLibrary = .ok siteArtifact := by decide +kernel
  have hrender : render (sampleSite (.object [])).config (sampleSite (.object [])).tree
      sampleLibrary siteArtifact = .ok siteOutputs :=
    (render_eq_ok_iff hlayout).2 ⟨siteOutputs.vehicles.path, siteOutputs.parameters.path,
      by decide +kernel, by decide +kernel, rfl⟩
  have hnames : (sampleSite (.object [])).config.schemaFile.withNames (sampleSite (.object [])).tree
      sampleLibrary = .ok (true, sampleSchema) := by decide +kernel
  obtain ⟨sites, between, last, hwrote, hemit, hsync⟩ := exists_wrote_of_clear hlayout
    grounded_sampleSite hrender hnames fun sites hnamed => clear_sampleSite (.object []) sites hnamed
  have hcompiled : (compiled []).runIn (sampleSite (.object [])) =
      (.ok siteArtifact, (sampleSite (.object [])).keep sampleLibrary) :=
    runIn_compiled_eq_ok_iff.2 ⟨sampleLibrary, hlibrary, rfl, hcompile⟩
  have hrendered : (rendered siteArtifact).runIn ((sampleSite (.object [])).keep sampleLibrary) =
      (.ok siteOutputs, (sampleSite (.object [])).keep sampleLibrary) :=
    runIn_rendered_eq_ok_iff.2 ⟨sampleLibrary, rfl, rfl, hrender⟩
  have hall : (all []).runIn (sampleSite (.object [])) =
      (.ok ⟨1, 1, true, siteOutputs.files.map RenderedFile.path⟩,
        ⟨(sampleSite (.object [])).config, some sampleLibrary, last⟩) := by
    refine runIn_all_eq_ok_iff.2 ⟨siteArtifact, _,
      ⟨(sampleSite (.object [])).config, some sampleLibrary, between⟩, true,
      runIn_outputsHalf_eq_ok_iff.2 ⟨siteOutputs, _, hcompiled, _, hrendered, ?_⟩,
      runIn_schemaHalf_eq_ok_iff.2 ⟨?_, 1, validate_sampleSite hwrote⟩, rfl⟩
    · exact runIn_onFiles_eq_ok_iff.2 ⟨between, hemit, rfl⟩
    · exact runIn_syncSchema_eq_ok_iff.2 ⟨sampleLibrary, last, rfl, hsync, rfl⟩
  have hbuilt : siteBuilt = ⟨(sampleSite (.object [])).config, some sampleLibrary, last⟩ :=
    siteAfter_eq hall
  rw [hall, hbuilt]

/-- Building in the session with an empty schema makes a document and writes the schema; building
again does not. -/
theorem all_fixpoint_sampleSite :
    Session.open? { BuildConfig.forRoot ⟨"r"⟩ with pretty := false }
        (sampleSite (.object [])).tree = .ok (sampleSite (.object [])) ∧
      (sampleSite (.object [])).tree.Grounded ∧
      (all []).runIn (sampleSite (.object [])) =
        (.ok ⟨1, 1, true, siteOutputs.files.map RenderedFile.path⟩, siteBuilt) ∧
      (staleFiles []).runIn siteBuilt = (.ok [], siteBuilt) ∧
      (all [1]).runIn siteBuilt =
        (.ok ⟨1, 1, false, siteOutputs.files.map RenderedFile.path⟩, siteBuilt) := by
  have hopen : Session.open? { BuildConfig.forRoot ⟨"r"⟩ with pretty := false }
      (sampleSite (.object [])).tree = .ok (sampleSite (.object [])) :=
    Steps.bind_eq_ok_iff.2 ⟨(), by decide +kernel, rfl⟩
  refine ⟨hopen, grounded_sampleSite, runIn_all_sampleSite, ?_, ?_⟩
  · exact (all_fixpoint hopen grounded_sampleSite runIn_all_sampleSite siteBuilt (.inl rfl) []).1
  · exact (all_fixpoint hopen grounded_sampleSite runIn_all_sampleSite siteBuilt (.inl rfl) [1]).2

end LayeredProfiles.Build
