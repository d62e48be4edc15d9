import LayeredProfiles.Proofs.Build.Fixpoint
import LayeredProfiles.Proofs.Build.Interleaving
import LayeredProfiles.Proofs.FileTree.Stages

set_option autoImplicit false

/-!
# Outputs in each other's way

Where the outputs go is a matter of the configuration: the artifact has a path of its own, the
document of supported vehicles is found by a pattern, and that of supported parameters by another
pattern or by a name beside the first one. Nothing keeps these places apart. The outputs are written
whole, one after the other, so one of them is lost to another only by what is written after it: in its
place, or by way of a temporary file in its place. The schema is written at the same time as the
outputs, so it may also take the place of a temporary file before this is moved.

## Main definitions

* `Build.schemaWritten` — the schema, if a build has written it.
* `Build.Loses` — a build with some turns of its halves reports an output that is lost.

## Main results

* `FileOperation.directory_of_replace_eq_ok` — replacing a file leaves directories where they are.
* `Build.runOn_emit_append_eq_ok_iff` — writing some files and then others.
* `Build.readText_of_emit` — what is read under the path of a file that was written.
* `Build.apart_of_serve` — under the conventional layout nothing is in each other's way.
* `Build.written_files_hold` — what the outputs of a build hold.
* `Build.outputs_overwritten` — builds that lose one of their outputs.
-/

namespace LayeredProfiles

variable {tree after : FileTree} {path : Path} {text : String}

/-- Replacing a file leaves directories where they are. -/
lemma FileOperation.directory_of_replace_eq_ok
    (h : (replace path text).runOn tree = (.ok (), after)) {location : Location}
    (hdirectory : tree.at? location = some .directory) : after.at? location = some .directory := by
  obtain ⟨ready, base, name, hready, rfl⟩ := exists_ready_of_replace_eq_ok h
  have hthere : ready.at? location = some .directory := by
    rcases hready.grown.kept location with hsame | ⟨hnone, -⟩
    · rw [hsame, hdirectory]
    · rw [hdirectory] at hnone
      cases hnone
  -- neither of the two places that are touched is that of a directory
  have hplace : base ++ [name] ≠ location := fun hsame => hready.place_free (hsame ▸ hthere)
  have hscratch : FileTree.scratch base name ≠ location := fun hsame =>
    hready.scratch_free (hsame ▸ hthere)
  rw [FileTree.at?_replaced, if_neg hplace, if_neg hscratch, hthere]

/-- If replacing a file succeeds, the text is read under its path. -/
lemma FileOperation.readText_of_replace_eq_ok
    (h : (replace path text).runOn tree = (.ok (), after)) : after.readText path = .ok text := by
  obtain ⟨ready, base, name, hready, rfl⟩ := exists_ready_of_replace_eq_ok h
  exact (hready.of_replaced text).1

/-- A body is at most ended. -/
lemma Document.exists_withLineEnd_eq (body : String) : ∃ ending, withLineEnd body = body ++ ending := by
  unfold withLineEnd
  split
  · exact ⟨"", String.append_empty.symm⟩
  · split
    · exact ⟨"", String.append_empty.symm⟩
    · exact ⟨"\n", rfl⟩

/-- The two documents differ by their headings, whatever their rows. -/
lemma Document.render_vehiclesBody_ne (rows others : String) :
    render vehiclesBody rows ≠ render parametersBody others := by
  intro h
  obtain ⟨ending, hending⟩ := exists_withLineEnd_eq vehiclesBody
  obtain ⟨other, hother⟩ := exists_withLineEnd_eq parametersBody
  obtain ⟨first, hfirst⟩ : ∃ rest, vehiclesBody = "# Supported Vehicles\n" ++ rest := by
    unfold vehiclesBody
    iterate 5 rw [String.append_assoc]
    exact ⟨_, rfl⟩
  obtain ⟨second, hsecond⟩ : ∃ rest, parametersBody = "# Supported Parameters\n\n" ++ rest := by
    unfold parametersBody
    rw [String.append_assoc]
    exact ⟨_, rfl⟩
  unfold render at h
  rw [hending, hother, hfirst, hsecond, String.append_assoc, String.append_assoc] at h
  have hlists := congrArg String.toList h
  simp only [String.toList_append, List.append_assoc] at hlists
  have hheadings := List.append_cancel_left hlists
  simp at hheadings

namespace Build

/-! ## Writing files one after the other -/

variable {files more done rest : List RenderedFile} {file : RenderedFile} {paths : List Path}

/-- Some files and then others can be written if the others can be written after them. -/
lemma runOn_emit_append_eq_ok_iff :
    (emit (files ++ more)).runOn tree = (.ok paths, after) ↔
      ∃ first between second, (emit files).runOn tree = (.ok first, between) ∧
        (emit more).runOn between = (.ok second, after) ∧ paths = first ++ second := by
  induction files generalizing tree paths with
  | nil =>
    constructor
    · exact fun h => ⟨[], tree, paths, rfl, h, rfl⟩
    · rintro ⟨first, between, second, hnone, hmore, rfl⟩
      cases hnone
      exact hmore
  | cons file rest ih =>
    simp only [List.cons_append, runOn_emit_cons_eq_ok_iff, ih]
    constructor
    · rintro ⟨next, _, hfile, ⟨first, between, second, hfirst, hmore, rfl⟩, rfl⟩
      exact ⟨_, between, second, ⟨next, first, hfile, hfirst, rfl⟩, hmore, rfl⟩
    · rintro ⟨_, between, second, ⟨next, first, hfile, hfirst, rfl⟩, hmore, rfl⟩
      exact ⟨next, _, hfile, ⟨first, between, second, hfirst, hmore, rfl⟩, rfl⟩

/-- What was written is reported in order. -/
lemma paths_of_emit (h : (emit files).runOn tree = (.ok paths, after)) :
    paths = files.map RenderedFile.path := by
  induction files generalizing tree paths with
  | nil =>
    cases h
    rfl
  | cons file rest ih =>
    obtain ⟨next, others, -, hrest, rfl⟩ := runOn_emit_cons_eq_ok_iff.1 h
    rw [ih hrest, List.map_cons]

/-- Writing files leaves directories where they are. -/
lemma directory_of_emit (h : (emit files).runOn tree = (.ok paths, after)) {location : Location}
    (hdirectory : tree.at? location = some .directory) : after.at? location = some .directory := by
  induction files generalizing tree paths with
  | nil =>
    cases h
    exact hdirectory
  | cons file rest ih =>
    obtain ⟨next, others, hfile, hrest, rfl⟩ := runOn_emit_cons_eq_ok_iff.1 h
    exact ih hrest (FileOperation.directory_of_replace_eq_ok hfile hdirectory)

/-- **What is read under the path of a file that was written** is its content, unless a file that was
written later has touched its place. -/
theorem readText_of_emit (h : (emit (done ++ file :: rest)).runOn tree = (.ok paths, after))
    (hplace : tree.placeOf file.path ∉ placesOf tree (rest.map RenderedFile.path)) :
    after.readText file.path = .ok file.content := by
  obtain ⟨_, between, _, hdone, h, -⟩ := runOn_emit_append_eq_ok_iff.1 h
  obtain ⟨next, others, hfile, hrest, -⟩ := runOn_emit_cons_eq_ok_iff.1 h
  have hcurrent : next.current = tree.current :=
    (FileOperation.of_replace_eq_ok hfile).1.current.trans ((confined_emit done).spares hdone).current
  rw [← placesOf_congr hcurrent, ← FileTree.placeOf_congr hcurrent] at hplace
  exact FileTree.readText_of_spares ((confined_emit rest).spares hrest)
    (fun l hl => directory_of_emit hrest hl) (FileOperation.readText_of_replace_eq_ok hfile) hplace

/-! ## Builds -/

variable {choices : List Nat} {session last : Session}

/-- The schema, if a build has written it. -/
def schemaWritten (session : Session) (summary : BuildSummary) : List Path :=
  if summary.schemaUpdated then [session.config.schemaPath] else []

/-- The outputs that are written in a session are those that are rendered there. -/
lemma exists_emit_of_outputsHalf {artifact : Artifact} {written : List Path}
    (h : (outputsHalf choices).runIn session = (.ok (artifact, written), last)) :
    ∃ outputs ready, (compiled choices >>= rendered).runIn session = (.ok outputs, ready) ∧
      (emit outputs.files).runOn session.tree = (.ok written, last.tree) ∧
      last.config = session.config := by
  obtain ⟨outputs, between, hcompiled, ready, hrendered, hemitted⟩ :=
    runIn_outputsHalf_eq_ok_iff.1 h
  have hrender := runIn_bind_eq_ok_iff.2 ⟨artifact, between, hcompiled, hrendered⟩
  obtain ⟨hconfig, htree⟩ := unchanged_of_runIn_rendered hrender
  obtain ⟨tree, hemit, rfl⟩ := runIn_onFiles_eq_ok_iff.1 hemitted
  exact ⟨outputs, ready, hrender, htree ▸ hemit, hconfig⟩

/-- The second half of a build writes the schema if it has to. -/
lemma exists_emit_of_schemaHalf {updated : Bool}
    (h : (schemaHalf choices).runIn session = (.ok updated, last)) :
    ∃ document paths, (emit (session.config.schemaFile.writes updated document)).runOn session.tree =
      (.ok paths, last.tree) := by
  obtain ⟨hsynced, -⟩ := runIn_schemaHalf_eq_ok_iff.1 h
  obtain ⟨library, tree, -, hsync, rfl⟩ := runIn_syncSchema_eq_ok_iff.1 hsynced
  obtain ⟨document, paths, -, hwrites⟩ := SchemaFile.runOn_sync_eq_ok_iff.1 hsync
  exact ⟨document, paths, hwrites⟩

/-- What is written to bring a schema in line is the schema, if a build has written it. -/
lemma map_writes (session : Session) (summary : BuildSummary) (document : Json) :
    (session.config.schemaFile.writes summary.schemaUpdated document).map RenderedFile.path =
      schemaWritten session summary := by
  unfold SchemaFile.writes schemaWritten
  cases summary.schemaUpdated <;> rfl

/-- A whole build in the other order succeeds if both halves do. -/
lemma runIn_allSchemaFirst_eq_ok {summary : BuildSummary}
    (h : (allSchemaFirst choices).runIn session = (.ok summary, last)) :
    ∃ updated between artifact,
      (schemaHalf choices).runIn session = (.ok updated, between) ∧
      (outputsHalf choices).runIn between = (.ok (artifact, summary.written), last) := by
  unfold allSchemaFirst at h
  rw [runIn_attempt_bind, runIn_attempt_bind] at h
  rcases hschema : (schemaHalf choices).runIn session with ⟨reason | updated, between⟩ <;>
    rw [hschema] at h <;>
  rcases houtputs : (outputsHalf choices).runIn between with
      ⟨failure | ⟨artifact, written⟩, final⟩ <;> rw [houtputs] at h <;> cases h
  exact ⟨updated, between, artifact, rfl, houtputs⟩

/-- After a build each output holds what was rendered for it, unless what was written later has
touched its place. -/
lemma readText_of_all {summary : BuildSummary}
    (h : (all choices).runIn session = (.ok summary, last)) :
    ∃ outputs ready, (compiled choices >>= rendered).runIn session = (.ok outputs, ready) ∧
      summary.written = outputs.files.map RenderedFile.path ∧
      ∀ done file rest, outputs.files = done ++ file :: rest →
        session.tree.placeOf file.path ∉ placesOf session.tree
          (rest.map RenderedFile.path ++ schemaWritten session summary) →
        last.tree.readText file.path = .ok file.content := by
  obtain ⟨artifact, written, between, updated, hfirst, hsecond, rfl⟩ := runIn_all_eq_ok_iff.1 h
  obtain ⟨outputs, ready, hrender, hemit, hconfig⟩ := exists_emit_of_outputsHalf hfirst
  obtain ⟨document, paths, hschema⟩ := exists_emit_of_schemaHalf hsecond
  refine ⟨outputs, ready, hrender, paths_of_emit hemit, fun done file rest hfiles hplace => ?_⟩
  -- the schema is one more file that is written
  have hall := runOn_emit_append_eq_ok_iff.2 ⟨_, _, _, hemit, hschema, rfl⟩
  rw [hfiles, List.append_assoc, List.cons_append, hconfig] at hall
  rw [← map_writes session _ document, ← List.map_append] at hplace
  exact readText_of_emit hall hplace

/-- If the schema comes first, it does not matter. -/
lemma readText_of_allSchemaFirst {summary : BuildSummary}
    (h : (allSchemaFirst choices).runIn session = (.ok summary, last)) :
    ∃ outputs ready,
      (compiled choices >>= rendered).runIn ((schemaHalf choices).runIn session).2 =
        (.ok outputs, ready) ∧
      summary.written = outputs.files.map RenderedFile.path ∧
      ∀ done file rest, outputs.files = done ++ file :: rest →
        session.tree.placeOf file.path ∉ placesOf session.tree (rest.map RenderedFile.path) →
        last.tree.readText file.path = .ok file.content := by
  obtain ⟨updated, between, artifact, hschema, houtputs⟩ := runIn_allSchemaFirst_eq_ok h
  obtain ⟨outputs, ready, hrender, hemit, -⟩ := exists_emit_of_outputsHalf houtputs
  have hspared := (spares_schemaHalf choices session).2
  rw [hschema] at hspared ⊢
  refine ⟨outputs, ready, hrender, paths_of_emit hemit, fun done file rest hfiles hplace => ?_⟩
  rw [hfiles] at hemit
  rw [← FileTree.placeOf_congr hspared.current, ← placesOf_congr hspared.current] at hplace
  exact readText_of_emit hemit hplace

/-! ## The conventional layout -/

section Conventional

variable {config : BuildConfig} {root : Path} {sites : Sites} {outs : Outputs}

/-- Names that are seen from a directory, and the temporary file of the last one, have their places
below the directory. -/
lemma places_join {dir : Path} {base : Location} {names : List String} {name : String}
    (hreach : tree.reach dir = .ok base) (hnames : ∀ n ∈ names ++ [name], Path.IsName n) :
    places tree (dir.join (.ofNames (names ++ [name]))) =
      [base ++ names ++ [name], FileTree.scratch (base ++ names) name] := by
  have hname : (dir.join (.ofNames (names ++ [name]))).fileName? = some name :=
    Path.fileName?_join_ofNames hnames
  obtain ⟨above, hplace, hscratch⟩ := FileTree.exists_placeOf_of_fileName? tree hname
  have hnamed := FileTree.placeOf_join_of_reach hreach (by simp) hnames
  rw [hplace, ← List.append_assoc] at hnamed
  obtain rfl := List.append_inj_left' hnamed rfl
  rw [places, hplace, hscratch]

/-- Where a path leads to a name, the places of the file are those of the name and of its temporary
file. -/
lemma places_of_leads {file : PlacedFile} (h : file.Leads tree) :
    places tree file.path = [file.location, file.scratch] := by
  rw [places, FileTree.Spot.placeOf_eq h, FileTree.Spot.placeOf_eq (FileTree.Spot.temporary h)]
  rfl

/-- Under the conventional layout the outputs, the schema and their temporary files all have different
places. -/
lemma apart_of_serve (hconfig : session.config.Conventional root)
    (hserve : sites.Serve session.config root tree outs)
    (hcurrent : tree.current = session.tree.current) : Apart session outs := by
  have houtputs : placesOf tree (outs.files.map RenderedFile.path) =
      FileTree.touchedBy (sites.outputs outs) :=
    List.flatMap_congr fun file hfile => places_of_leads (hserve.leads hconfig file hfile)
  have hnames : ∀ name ∈ [".vehicle_profiles"] ++ ["schema.json"], Path.IsName name := by decide
  have hplaces := places_join hserve.reach hnames
  have hschema : placesOf tree [session.config.schemaPath] =
      FileTree.touchedBy [sites.schema outs.artifact] := by
    rw [hconfig.schemaPath]
    exact congrArg (· ++ []) hplaces
  have hall : placesOf tree (outs.files.map RenderedFile.path ++ [session.config.schemaPath]) =
      FileTree.touchedBy (sites.files outs outs.artifact) := by
    rw [placesOf_append, houtputs, hschema]
    exact List.flatMap_append.symm
  rw [Apart, ← placesOf_congr hcurrent, hall]
  exact Sites.nodup_touchedBy hserve.named

/-- Under the conventional layout all outputs hold what was rendered for them, whoever's turn it is
when. -/
lemma readText_of_conventional (hconfig : session.config.Conventional root)
    {division : Division choices} (hsteady : division.Steady session) {turns : List Bool}
    {artifact : Artifact} {written : List Path} {updated : Bool}
    (h : (division.halves turns).runIn session =
      (.ok (.ok (artifact, outs, written), .ok updated), last)) :
    ∀ file ∈ outs.files, last.tree.readText file.path = .ok file.content := by
  obtain ⟨tree, library, hreal, hcurrent, hrender⟩ := hsteady _ _ _ _ _ _ h
  obtain ⟨sites, hserve⟩ := Sites.exists_serve hconfig hreal hrender
  exact division.readText_of_apart h (apart_of_serve hconfig hserve hcurrent)

end Conventional

/-- **What the outputs of a build hold.** Let a build succeed, under whatever configuration and in
whatever tree.

* However its parts are divided into steps, and however the steps of its two halves follow each other,
  the files that it reports are the outputs that were rendered in it, and under the path of each of them
  its content is read afterwards. An exception is an output whose place has been touched by an output
  after it or by the schema, or the place of whose temporary file has been touched by the schema. What
  is touched are the place of a file that is written and that of its temporary file.
* If one half comes after the other one, which are two of these ways, then the schema does not matter to
  temporary files, and if it comes first, it does not matter at all.
* Under the conventional layout no two of these places are the same, so all outputs hold what was
  rendered for them, however the steps follow each other, and however the parts are divided, as long as
  the outputs are rendered in one tree. So they are if every part is taken at once.

**Proof sketch.** The steps of one half are taken amid those of the other one
(`exists_yields_of_together`). Each touches the file that it is about and its temporary file only, and
leaves directories where they are (`Touches`). The content is in the temporary file when that has been
written, so it is there when it is moved, and under the path from then on (`readText_of_amid`). If one
half comes after the other one, a build is the writing of one list of files
(`runOn_emit_append_eq_ok_iff`, `readText_of_emit`). -/
theorem written_files_hold (choices : List Nat) (session : Session) :
    (∀ (division : Division choices) turns summary last,
      (division.all turns).runIn session = (.ok summary, last) →
        ∃ artifact outputs, (division.halves turns).runIn session =
            (.ok (.ok (artifact, outputs, summary.written), .ok summary.schemaUpdated), last) ∧
          summary.written = outputs.files.map RenderedFile.path ∧
          ∀ done file rest, outputs.files = done ++ file :: rest →
            session.tree.placeOf file.path ∉ placesOf session.tree
              (rest.map RenderedFile.path ++ schemaWritten session summary) →
            session.tree.placeOf (FileOperation.temporary file.path) ∉ placesOf session.tree
              (schemaWritten session summary) →
            last.tree.readText file.path = .ok file.content) ∧
    (∀ division : Division choices, division.all [] = all choices ∧
      ∃ turns, (division.all turns).runIn session = (allSchemaFirst choices).runIn session) ∧
    (∀ summary last, (all choices).runIn session = (.ok summary, last) →
      ∃ outputs ready, (compiled choices >>= rendered).runIn session = (.ok outputs, ready) ∧
        summary.written = outputs.files.map RenderedFile.path ∧
        ∀ done file rest, outputs.files = done ++ file :: rest →
          session.tree.placeOf file.path ∉ placesOf session.tree
            (rest.map RenderedFile.path ++ schemaWritten session summary) →
          last.tree.readText file.path = .ok file.content) ∧
    (∀ summary last, (allSchemaFirst choices).runIn session = (.ok summary, last) →
      ∃ outputs ready,
        (compiled choices >>= rendered).runIn ((schemaHalf choices).runIn session).2 =
          (.ok outputs, ready) ∧
        summary.written = outputs.files.map RenderedFile.path ∧
        ∀ done file rest, outputs.files = done ++ file :: rest →
          session.tree.placeOf file.path ∉ placesOf session.tree (rest.map RenderedFile.path) →
          last.tree.readText file.path = .ok file.content) ∧
    ∀ root pretty, session.config = { BuildConfig.forRoot root with pretty := pretty } →
      session.tree.Grounded → (Division.whole choices).Steady session ∧
        ∀ division : Division choices, division.Steady session → ∀ turns summary last,
          (division.all turns).runIn session = (.ok summary, last) →
            ∃ artifact outputs, (division.halves turns).runIn session =
                (.ok (.ok (artifact, outputs, summary.written), .ok summary.schemaUpdated), last) ∧
              summary.written = outputs.files.map RenderedFile.path ∧
              ∀ file ∈ outputs.files, last.tree.readText file.path = .ok file.content := by
  refine ⟨fun division turns summary last h => ?_,
    fun division => ⟨division.all_nil, division.exists_turns_allSchemaFirst session⟩,
    fun _ _ h => readText_of_all h, fun _ _ h => readText_of_allSchemaFirst h,
    fun root pretty hconfig hgrounded => ⟨Division.steady_whole choices hgrounded,
      fun division hsteady turns summary last h => ?_⟩⟩
  · obtain ⟨artifact, outputs, hhalves⟩ := division.exists_halves_of_all h
    exact ⟨artifact, outputs, hhalves, division.readText_of_halves hhalves⟩
  · have hlayout : session.config.Conventional root :=
      hconfig ▸ BuildConfig.conventional_forRoot root pretty
    obtain ⟨artifact, outputs, hhalves⟩ := division.exists_halves_of_all h
    exact ⟨artifact, outputs, hhalves, (division.readText_of_halves hhalves).1,
      readText_of_conventional hlayout hsteady hhalves⟩

/-! ## Sessions whose outputs are in each other's way -/

/-- A build in a newly opened session, with the given turns of its halves, succeeds and reports a path,
but what is read there afterwards is not what was rendered for it. -/
structure Loses (session : Session) (turns : List Bool) (path : Path) : Prop where
  /-- The configuration is not refused. -/
  opened : Session.open? session.config session.tree = .ok session
  /-- The tree stands for real files. -/
  grounded : session.tree.Grounded
  /-- The build succeeds, and one of its outputs is lost. -/
  lost : ∃ artifact outputs summary last,
    ((Division.whole []).all turns).runIn session = (.ok summary, last) ∧
      ((Division.whole []).halves turns).runIn session =
        (.ok (.ok (artifact, outputs, summary.written), .ok summary.schemaUpdated), last) ∧
      path ∈ summary.written ∧
      ∃ file ∈ outputs.files, file.path = path ∧ last.tree.readText path ≠ .ok file.content

/-- A tree without fragments and parameters, with an empty document of supported vehicles and an empty
schema. -/
def clashTree : FileTree :=
  let text := fun document : Json => Entry.file (.text document.toText)
  ⟨[(["p"], .directory), (["l"], text (.object [])), (["s"], text (.object [])),
    (["d"], .directory), (["d", "v"], .file (.text ""))], []⟩

/-- It stands for real files. -/
lemma grounded_clashTree : clashTree.Grounded := by decide +kernel

/-- A session in it with the given place for the artifact and the given name for the document of
supported parameters. -/
def sampleClash (artifact fallback : String) : Session where
  config := { BuildConfig.default with
    profilesDir := ⟨"p"⟩, paramsPath := ⟨"l"⟩, schemaPath := ⟨"s"⟩, artifactPath := ⟨artifact⟩
    schemaEnumPath := "names", pretty := false
    docs := { DocsConfig.default with
      root := ⟨"d"⟩, vehiclesPattern := "v", parametersPattern := "w"
      parametersFallback := fallback } }
  library := none
  tree := clashTree

/-- What is rendered in such a session. -/
def clashOutputs (artifact fallback : String) : Outputs where
  artifact := ⟨⟨artifact⟩, (Artifact.mk []).toText false⟩
  vehicles := ⟨⟨"d/v"⟩, Document.render Document.vehiclesBody (Document.vehicleRows ⟨[]⟩)⟩
  parameters := ⟨Path.withFileName ⟨"d/v"⟩ fallback,
    Document.render Document.parametersBody (Document.parameterRows ⟨[]⟩)⟩

/-- Whatever is written where, the same outputs are rendered. -/
lemma runIn_rendered_sampleClash (artifact fallback : String) :
    (compiled [] >>= rendered).runIn (sampleClash artifact fallback) =
      (.ok (clashOutputs artifact fallback), (sampleClash artifact fallback).keep ⟨[]⟩) := by
  have hloaded : loadLibrary (sampleClash "" "").config clashTree = .ok ⟨[]⟩ := by decide +kernel
  have hlibrary : (sampleClash artifact fallback).library? = .ok ⟨[]⟩ := hloaded
  have hcompile : compile (sampleClash "" "").config [] clashTree ⟨[]⟩ = .ok ⟨[]⟩ := by
    decide +kernel
  have hvehicles : Document.locate clashTree ⟨"d"⟩ "v" = .ok ⟨"d/v"⟩ := by decide +kernel
  have hnone : Document.candidates clashTree ⟨"d"⟩ "w" = .ok [] := by decide +kernel
  have hcompiled : compile (sampleClash artifact fallback).config [] clashTree ⟨[]⟩ = .ok ⟨[]⟩ := by
    refine compile_of_compile grounded_clashTree.toWellNamed hcompile _ ?_ ?_ ?_ [] <;> rfl
  have hrender : render (sampleClash artifact fallback).config clashTree ⟨[]⟩ ⟨[]⟩ =
      .ok (clashOutputs artifact fallback) :=
    Steps.bind_eq_ok_iff.2 ⟨_, hvehicles, Steps.bind_eq_ok_iff.2
      ⟨_, Document.locateParameters_eq_ok_iff.2 (.inr ⟨hnone, rfl⟩), rfl⟩⟩
  exact runIn_bind_eq_ok_iff.2 ⟨⟨[]⟩, _,
    runIn_compiled_eq_ok_iff.2 ⟨⟨[]⟩, hlibrary, rfl, hcompiled⟩,
    runIn_rendered_eq_ok_iff.2 ⟨⟨[]⟩, rfl, rfl, hrender⟩⟩

/-- An output of such a session is lost if the build succeeds, one half after the other, and something
else is read in the end. -/
lemma loses_sampleClash {artifact fallback : String}
    (hvalid : (sampleClash artifact fallback).config.check = .ok ())
    (hbuilt : ((all []).runIn (sampleClash artifact fallback)).1 =
      .ok ⟨0, 0, true, (clashOutputs artifact fallback).files.map RenderedFile.path⟩)
    {file : RenderedFile} (hfile : file ∈ (clashOutputs artifact fallback).files)
    (hlost : ((all []).runIn (sampleClash artifact fallback)).2.tree.readText file.path ≠
      .ok file.content) :
    Loses (sampleClash artifact fallback) [] file.path where
  opened := Steps.bind_eq_ok_iff.2 ⟨(), hvalid, rfl⟩
  grounded := grounded_clashTree
  lost := by
    have hall := run_of_fst_eq_ok hbuilt
    rw [← (Division.whole []).all_nil] at hall hlost
    obtain ⟨found, outputs, hhalves⟩ := Division.exists_halves_of_all _ hall
    obtain ⟨ready, hrendered⟩ := Division.exists_rendered_of_halves_nil _ hhalves
    obtain ⟨⟨⟩, -⟩ :=
      Prod.mk.inj (hrendered.symm.trans (runIn_rendered_sampleClash artifact fallback))
    exact ⟨found, _, _, _, hall, hhalves, List.mem_map_of_mem hfile, file, hfile, rfl, hlost⟩

/-- A session in the same tree with a schema in the place of the temporary file of the artifact. -/
def sampleTangle : Session where
  config := { (sampleClash "a" "w").config with schemaPath := ⟨"a.tmp"⟩ }
  library := none
  tree := clashTree.put ["a.tmp"] (.file (.text (Json.object []).toText))

/-- The schema is compared with the library; the artifact is written to its temporary file; then the
schema is replaced and the fragments are checked, before the temporary file is moved. -/
def tangledTurns : List Bool :=
  [false, false, true, true, true, true, false, false, false, false]

/-- What becomes of a build in this session with these turns. -/
lemma runIn_all_sampleTangle :
    (((Division.whole []).all tangledTurns).runIn sampleTangle).1 =
      .ok ⟨0, 0, true, [⟨"a"⟩, ⟨"d/v"⟩, ⟨"d/w"⟩]⟩ := by
  decide +kernel

/-- What becomes of a build where the artifact has the place of the temporary file of a document. -/
lemma runIn_all_sampleClash_temporary :
    ((all []).runIn (sampleClash "d/v.tmp" "w")).1 =
      .ok ⟨0, 0, true, [⟨"d/v.tmp"⟩, ⟨"d/v"⟩, ⟨"d/w"⟩]⟩ := by
  decide +kernel

/-- **Outputs are lost to each other.** The document of supported vehicles is lost if the other
document is to have its name, and the artifact if its place is that of the temporary file of a
document, or that of a schema that is rewritten. If the schema is in the place of the temporary file of
the artifact, then this is lost if the schema is rewritten before the file is moved. -/
theorem outputs_overwritten :
    Loses (sampleClash "a" "v") [] ⟨"d/v"⟩ ∧ Loses (sampleClash "d/v.tmp" "w") [] ⟨"d/v.tmp"⟩ ∧
      Loses (sampleClash "s" "w") [] ⟨"s"⟩ ∧ Loses sampleTangle tangledTurns ⟨"a"⟩ := by
  have hfirst : ((all []).runIn (sampleClash "a" "v")).1 =
      .ok ⟨0, 0, true, (clashOutputs "a" "v").files.map RenderedFile.path⟩ := by decide +kernel
  have hsecond : ((all []).runIn (sampleClash "s" "w")).1 =
      .ok ⟨0, 0, true, (clashOutputs "s" "w").files.map RenderedFile.path⟩ := by decide +kernel
  -- what is read under the name of both documents is the one that was written last
  have hread : ((all []).runIn (sampleClash "a" "v")).2.tree.readText ⟨"d/v"⟩ =
      .ok (clashOutputs "a" "v").parameters.content := by
    obtain ⟨outputs, ready, hrendered, -, hholds⟩ := readText_of_all (run_of_fst_eq_ok hfirst)
    obtain ⟨⟨⟩, -⟩ := Prod.mk.inj (hrendered.symm.trans (runIn_rendered_sampleClash "a" "v"))
    have hpath : (clashOutputs "a" "v").parameters.path = ⟨"d/v"⟩ := by decide +kernel
    have hlast := hholds [(clashOutputs "a" "v").artifact, (clashOutputs "a" "v").vehicles]
      (clashOutputs "a" "v").parameters [] rfl (by decide +kernel)
    rwa [hpath] at hlast
  have hvehicles : ((all []).runIn (sampleClash "a" "v")).2.tree.readText ⟨"d/v"⟩ ≠
      .ok (clashOutputs "a" "v").vehicles.content := fun h =>
    Document.render_vehiclesBody_ne _ _ (Except.ok.inj (h.symm.trans hread))
  refine ⟨loses_sampleClash (by decide +kernel) hfirst (.tail _ (.head _)) hvehicles,
    loses_sampleClash (by decide +kernel) runIn_all_sampleClash_temporary (.head _)
      (by decide +kernel),
    loses_sampleClash (by decide +kernel) hsecond (.head _) (by decide +kernel), ?_⟩
  have hvalid : sampleTangle.config.check = .ok () := by decide +kernel
  refine ⟨Steps.bind_eq_ok_iff.2 ⟨(), hvalid, rfl⟩, by decide +kernel, ?_⟩
  have hall := run_of_fst_eq_ok runIn_all_sampleTangle
  obtain ⟨artifact, outputs, hhalves⟩ := Division.exists_halves_of_all _ hall
  have hartifact : (((Division.whole []).halves tangledTurns).runIn sampleTangle).1.map
      (fun ended => ended.1.map fun found => found.2.1.artifact) =
        .ok (.ok (clashOutputs "a" "w").artifact) := by decide +kernel
  rw [hhalves] at hartifact
  have hfile : outputs.artifact = (clashOutputs "a" "w").artifact :=
    Except.ok.inj (Except.ok.inj hartifact)
  refine ⟨artifact, outputs, _, _, hall, hhalves, .head _, outputs.artifact, .head _, ?_, ?_⟩
  · rw [hfile]
    rfl
  · rw [hfile]
    decide +kernel

/-- If the artifact has the place of the temporary file of a document, then both documents hold what
was rendered for them; if it has that of the schema, it is itself held once the schema comes first;
and under the conventional layout all outputs are held. If the schema is in the place of the temporary
file of the artifact, then both documents are held, however the steps follow each other. -/
theorem written_files_hold_sampleClash :
    (∃ last artifact outputs,
      ((Division.whole []).all tangledTurns).runIn sampleTangle =
        (.ok ⟨0, 0, true, [⟨"a"⟩, ⟨"d/v"⟩, ⟨"d/w"⟩]⟩, last) ∧
      ((Division.whole []).halves tangledTurns).runIn sampleTangle =
        (.ok (.ok (artifact, outputs, [⟨"a"⟩, ⟨"d/v"⟩, ⟨"d/w"⟩]), .ok true), last) ∧
      last.tree.readText ⟨"d/v"⟩ = .ok outputs.vehicles.content ∧
      last.tree.readText ⟨"d/w"⟩ = .ok outputs.parameters.content) ∧
    (∃ last, (all []).runIn (sampleClash "d/v.tmp" "w") =
        (.ok ⟨0, 0, true, [⟨"d/v.tmp"⟩, ⟨"d/v"⟩, ⟨"d/w"⟩]⟩, last) ∧
      last.tree.readText ⟨"d/v"⟩ = .ok (clashOutputs "d/v.tmp" "w").vehicles.content ∧
      last.tree.readText ⟨"d/w"⟩ = .ok (clashOutputs "d/v.tmp" "w").parameters.content) ∧
    (∃ last outputs ready, (allSchemaFirst []).runIn (sampleClash "s" "w") =
        (.ok ⟨0, 0, true, [⟨"s"⟩, ⟨"d/v"⟩, ⟨"d/w"⟩]⟩, last) ∧
      (compiled [] >>= rendered).runIn ((schemaHalf []).runIn (sampleClash "s" "w")).2 =
        (.ok outputs, ready) ∧
      last.tree.readText ⟨"s"⟩ = .ok outputs.artifact.content) ∧
    (sampleSite (.object [])).config = { BuildConfig.forRoot ⟨"r"⟩ with pretty := false } ∧
    (sampleSite (.object [])).tree.Grounded ∧
    ∃ artifact outputs,
      ((Division.whole []).halves []).runIn (sampleSite (.object [])) =
        (.ok (.ok (artifact, outputs, siteOutputs.files.map RenderedFile.path), .ok true),
          siteBuilt) ∧
      ∀ file ∈ outputs.files, siteBuilt.tree.readText file.path = .ok file.content := by
  have htangle := run_of_fst_eq_ok runIn_all_sampleTangle
  have htemporary := run_of_fst_eq_ok runIn_all_sampleClash_temporary
  have hschema : ((allSchemaFirst []).runIn (sampleClash "s" "w")).1 =
      .ok ⟨0, 0, true, [⟨"s"⟩, ⟨"d/v"⟩, ⟨"d/w"⟩]⟩ := by decide +kernel
  have hconfig : (sampleSite (.object [])).config =
      { BuildConfig.forRoot ⟨"r"⟩ with pretty := false } := rfl
  refine ⟨?_, ⟨_, htemporary, ?_⟩, ?_, hconfig, grounded_sampleSite, ?_⟩
  · obtain ⟨artifact, outputs, hhalves, hwritten, hholds⟩ :=
      (written_files_hold [] sampleTangle).1 (Division.whole []) tangledTurns _ _ htangle
    obtain ⟨first, vehicles, parameters⟩ := outputs
    simp only [Outputs.files, List.map_cons, List.map_nil, List.cons.injEq, and_true] at hwritten
    obtain ⟨hartifact, hvehicles, hparameters⟩ := hwritten
    refine ⟨_, artifact, _, htangle, hhalves, ?_, ?_⟩
    · rw [hvehicles]
      refine hholds [first] vehicles [parameters] rfl ?_ ?_ <;>
        simp only [List.map_cons, List.map_nil, ← hvehicles, ← hparameters] <;> decide +kernel
    · rw [hparameters]
      refine hholds [first, vehicles] parameters [] rfl ?_ ?_ <;>
        simp only [List.map_nil, ← hparameters] <;> decide +kernel
  · obtain ⟨outputs, ready, hrendered, -, hholds⟩ :=
      (written_files_hold [] (sampleClash "d/v.tmp" "w")).2.2.1 _ _ htemporary
    obtain ⟨⟨⟩, -⟩ := Prod.mk.inj (hrendered.symm.trans (runIn_rendered_sampleClash "d/v.tmp" "w"))
    have hpath : (clashOutputs "d/v.tmp" "w").parameters.path = ⟨"d/w"⟩ := by decide +kernel
    have hlast := hholds [(clashOutputs "d/v.tmp" "w").artifact,
      (clashOutputs "d/v.tmp" "w").vehicles] (clashOutputs "d/v.tmp" "w").parameters [] rfl
      (by decide +kernel)
    rw [hpath] at hlast
    exact ⟨hholds [(clashOutputs "d/v.tmp" "w").artifact] (clashOutputs "d/v.tmp" "w").vehicles
      [(clashOutputs "d/v.tmp" "w").parameters] rfl (by decide +kernel), hlast⟩
  · obtain ⟨outputs, ready, hrendered, hwritten, hholds⟩ :=
      (written_files_hold [] (sampleClash "s" "w")).2.2.2.1 _ _ (run_of_fst_eq_ok hschema)
    refine ⟨_, outputs, ready, run_of_fst_eq_ok hschema, hrendered, ?_⟩
    have hplace : (sampleClash "s" "w").tree.placeOf ⟨"s"⟩ ∉
        placesOf (sampleClash "s" "w").tree [⟨"d/v"⟩, ⟨"d/w"⟩] := by decide +kernel
    obtain ⟨artifact, vehicles, parameters⟩ := outputs
    simp only [Outputs.files, List.map_cons, List.map_nil, List.cons.injEq, and_true] at hwritten
    obtain ⟨hartifact, hvehicles, hparameters⟩ := hwritten
    rw [hartifact]
    refine hholds [] artifact [vehicles, parameters] rfl ?_
    rwa [List.map_cons, List.map_cons, List.map_nil, ← hartifact, ← hvehicles, ← hparameters]
  · have hsite := runIn_all_sampleSite
    rw [← (Division.whole []).all_nil] at hsite
    obtain ⟨hsteady, hconventional⟩ :=
      (written_files_hold [] (sampleSite (.object []))).2.2.2.2 ⟨"r"⟩ false hconfig
        grounded_sampleSite
    obtain ⟨artifact, outputs, hhalves, -, hholds⟩ := hconventional _ hsteady [] _ _ hsite
    exact ⟨artifact, outputs, hhalves, hholds⟩

end Build

end LayeredProfiles
