import Mathlib.Data.List.Nodup
import Mathlib.Data.List.Pairwise
import LayeredProfiles.CommandLine.Run
import LayeredProfiles.Proofs.Build.Coverage
import LayeredProfiles.Proofs.FileTree.Effects

set_option autoImplicit false

/-!
# Builds that fail

A build that fails leaves no output half written. Before all outputs are rendered nothing is written
at all, and if one of them cannot be written, those before it are complete and the others are as
they were. The work on the schema, which goes on meanwhile, touches the schema file only.

## Main definitions

* `Build.places`, `Build.placesOf` — the locations that are touched when files are replaced.
* `Build.CutOff` — files of which the first ones are written and the others are as they were.
* `Build.FailsAt` — files that are written up to one that cannot be replaced.
* `Build.Apart` — outputs that have other places than the schema.
* `Build.Task.FailsLeaving` — a task that fails.

## Main results

* `Build.FailsAt.cutOff` — what writing files leaves if it fails.
* `Build.spares_schemaHalf` — what the work on the schema touches.
* `Build.failed_build_spares` — what a build that fails leaves.
-/

namespace LayeredProfiles.Build

variable {tree between after : FileTree} {files done rest : List RenderedFile} {paths : List Path}
  {failure : Failure}

/-- The locations that are touched when a file is replaced: its own and that of the temporary file
beside it. -/
def places (tree : FileTree) (path : Path) : List Location :=
  [tree.placeOf path, tree.placeOf (FileOperation.temporary path)]

/-- The locations that are touched when several files are replaced. -/
def placesOf (tree : FileTree) (paths : List Path) : List Location :=
  paths.flatMap (places tree)

/-- Of some files that are written one after the other, the first ones are written and the others
are as they were. -/
structure CutOff (before after : FileTree) (done rest : List RenderedFile) : Prop where
  /-- The first ones hold their whole content. -/
  written : ∀ file ∈ done, after.fileAt? (before.placeOf file.path) = some (.text file.content)
  /-- The others hold what they held, or are still not there. -/
  kept : ∀ file ∈ rest,
    after.fileAt? (before.placeOf file.path) = before.fileAt? (before.placeOf file.path)

/-- Files are written one after the other up to one that cannot be replaced. -/
def FailsAt (tree after : FileTree) (failure : Failure) (done : List RenderedFile)
    (file : RenderedFile) : Prop :=
  ∃ paths between, (emit done).runOn tree = (.ok paths, between) ∧
    (FileOperation.replace file.path file.content).runOn between = (.error failure, after)

/-- The outputs, the schema and their temporary files all have different places. -/
def Apart (session : Session) (outputs : Outputs) : Prop :=
  (placesOf session.tree
    (outputs.files.map RenderedFile.path ++ [session.config.schemaPath])).Nodup

instance (session : Session) (outputs : Outputs) : Decidable (Apart session outputs) :=
  inferInstanceAs (Decidable (List.Nodup _))

/-- A task fails in a session, and the files that it leaves have a property. -/
def Task.FailsLeaving {α : Type} (task : Task α) (session : Session) (p : FileTree → Prop) : Prop :=
  ∃ failure last, task.runIn session = (.error failure, last) ∧ p last.tree

/-! ## Writing files -/

/-- Where a file is does not change while contents change. -/
lemma places_congr (h : after.current = tree.current) (path : Path) :
    places after path = places tree path := by
  unfold places
  rw [FileTree.placeOf_congr h, FileTree.placeOf_congr h]

/-- Where files are does not change while their contents change. -/
lemma placesOf_congr (h : after.current = tree.current) (paths : List Path) :
    placesOf after paths = placesOf tree paths :=
  List.flatMap_congr fun path _ => places_congr h path

/-- The places of one file and of others. -/
lemma placesOf_cons (path : Path) (paths : List Path) :
    placesOf tree (path :: paths) = places tree path ++ placesOf tree paths :=
  List.flatMap_cons

/-- The places of some files and of others. -/
lemma placesOf_append (paths more : List Path) :
    placesOf tree (paths ++ more) = placesOf tree paths ++ placesOf tree more :=
  List.flatMap_append

/-- More files have more places. -/
lemma placesOf_subset {more : List Path} (h : paths ⊆ more) :
    placesOf tree paths ⊆ placesOf tree more := by
  intro l hl
  obtain ⟨path, hpath, hplace⟩ := List.mem_flatMap.1 hl
  exact List.mem_flatMap.2 ⟨path, h hpath, hplace⟩

/-- A file is in one of the places of files. -/
lemma placeOf_mem_placesOf {file : RenderedFile} (h : file ∈ files) :
    tree.placeOf file.path ∈ placesOf tree (files.map RenderedFile.path) :=
  List.mem_flatMap.2 ⟨file.path, List.mem_map_of_mem h, List.mem_cons_self⟩

/-- Where places are different, no temporary file is in the place of a file. -/
lemma placeOf_ne_temporary {all : List Path} (hplaces : (placesOf tree all).Nodup)
    {path other : Path} (hpath : path ∈ all) (hother : other ∈ all) :
    tree.placeOf path ≠ tree.placeOf (FileOperation.temporary other) := by
  obtain ⟨hown, hapart⟩ := List.nodup_flatMap.1 hplaces
  by_cases hsame : path = other
  · subst hsame
    simpa [places] using hown path hpath
  · have : Std.Symm (Function.onFun List.Disjoint (places tree)) := ⟨fun _ _ h _ hb ha => h ha hb⟩
    have hdisjoint := hapart.forall hpath hother hsame
    exact fun heq => hdisjoint List.mem_cons_self (by simp [places, heq])

/-- Writing files touches them and their temporary files only. -/
lemma confined_emit (files : List RenderedFile) :
    (emit files).Confined tree (placesOf tree (files.map RenderedFile.path)) := by
  induction files generalizing tree with
  | nil => exact FileOperation.confined_pure []
  | cons file rest ih =>
    have hone : (FileOperation.replace file.path file.content).Confined tree
        (places tree file.path) := FileOperation.confined_replace _ _
    refine (hone.mono (List.subset_append_left _ _)).bind fun _ after _ hafter => ?_
    have hrest := @ih after
    rw [placesOf_congr hafter.current] at hrest
    exact (hrest.mono (List.subset_append_right _ _)).bind fun _ _ _ _ =>
      FileOperation.confined_pure _

/-- Files are written if the first one can be replaced and then the others can be written. -/
lemma runOn_emit_cons_eq_ok_iff {file : RenderedFile} :
    (emit (file :: rest)).runOn tree = (.ok paths, after) ↔
      ∃ next others, (FileOperation.replace file.path file.content).runOn tree = (.ok (), next) ∧
        (emit rest).runOn next = (.ok others, after) ∧ paths = file.path :: others := by
  simp only [emit, FileOperation.runOn_bind_eq_ok_iff, FileOperation.runOn_pure, Prod.mk.injEq,
    Except.ok.injEq]
  constructor
  · rintro ⟨⟨⟩, next, hfile, others, _, hrest, rfl, rfl⟩
    exact ⟨next, others, hfile, hrest, rfl⟩
  · rintro ⟨next, others, hfile, hrest, rfl⟩
    exact ⟨(), next, hfile, others, after, hrest, rfl, rfl⟩

/-- **Files that have been written** hold their whole content, if their places are different. -/
theorem fileAt?_of_emit_eq_ok (hplaces : (placesOf tree (files.map RenderedFile.path)).Nodup)
    (h : (emit files).runOn tree = (.ok paths, after)) :
    ∀ file ∈ files, after.fileAt? (tree.placeOf file.path) = some (.text file.content) := by
  induction files generalizing tree paths with
  | nil => exact fun file hfile => absurd hfile List.not_mem_nil
  | cons file rest ih =>
    obtain ⟨between, others, hone, hrest, rfl⟩ := runOn_emit_cons_eq_ok_iff.1 h
    obtain ⟨hspared, hfile⟩ := FileOperation.of_replace_eq_ok hone
    have hlater := (confined_emit rest).spares hrest
    rw [List.map_cons, placesOf_cons] at hplaces
    obtain ⟨-, hothers, hdisjoint⟩ := List.nodup_append.1 hplaces
    rw [placesOf_congr hspared.current] at hlater
    rw [← placesOf_congr hspared.current] at hothers
    intro other hother
    rcases List.mem_cons.1 hother with rfl | hother
    -- the later files are not written over the first one
    · rw [hlater.fileAt? _ fun hmem => hdisjoint _ List.mem_cons_self _ hmem rfl, hfile]
    · rw [← ih hothers hrest other hother, FileTree.placeOf_congr hspared.current]

/-- Writing files fails at the first one that cannot be replaced. -/
lemma exists_failsAt (h : (emit files).runOn tree = (.error failure, after)) :
    ∃ done file rest, files = done ++ file :: rest ∧ FailsAt tree after failure done file := by
  induction files generalizing tree with
  | nil => cases h
  | cons file rest ih =>
    rcases FileOperation.runOn_bind_eq_error_iff.1 h with hfile | ⟨⟨⟩, next, hfile, h⟩
    · exact ⟨[], file, rest, rfl, [], tree, rfl, hfile⟩
    rcases FileOperation.runOn_bind_eq_error_iff.1 h with hrest | ⟨others, last, -, h⟩
    · obtain ⟨done, other, later, rfl, paths, between, hdone, hother⟩ := ih hrest
      refine ⟨file :: done, other, later, rfl, file.path :: paths, between, ?_, hother⟩
      exact runOn_emit_cons_eq_ok_iff.2 ⟨next, paths, hfile, hdone, rfl⟩
    · cases h

/-- Files stay written or as they were while nothing changes in their places. -/
lemma CutOff.spares {last : FileTree} {touched : List Location} (h : CutOff tree after done rest)
    (hspared : after.Spares last touched)
    (hplaces : ∀ file ∈ done ++ rest, tree.placeOf file.path ∉ touched) :
    CutOff tree last done rest where
  written file hfile := by
    rw [hspared.fileAt? _ (hplaces file (List.mem_append_left _ hfile)), h.written file hfile]
  kept file hfile := by
    rw [hspared.fileAt? _ (hplaces file (List.mem_append_right _ hfile)), h.kept file hfile]

/-- What has changed before, in other places, does not matter to what is left. -/
lemma CutOff.of_spares {start : FileTree} {touched : List Location}
    (hspared : tree.Spares start touched) (h : CutOff start after done rest)
    (hplaces : ∀ file ∈ rest, tree.placeOf file.path ∉ touched) : CutOff tree after done rest where
  written file hfile := by
    rw [← FileTree.placeOf_congr hspared.current, h.written file hfile]
  kept file hfile := by
    rw [← hspared.fileAt? _ (hplaces file hfile), ← FileTree.placeOf_congr hspared.current,
      h.kept file hfile]

/-- **What writing files leaves if it fails**: the files before the one that cannot be replaced hold
their whole content, and it and the later ones are as they were. -/
theorem FailsAt.cutOff {file : RenderedFile} (h : FailsAt tree after failure done file)
    (hplaces : (placesOf tree ((done ++ file :: rest).map RenderedFile.path)).Nodup) :
    CutOff tree after done (file :: rest) := by
  obtain ⟨paths, between, hdone, hfile⟩ := h
  have hfirst := (confined_emit done).spares hdone
  have hlast := FileOperation.spares_of_replace_eq_error hfile
  rw [FileTree.placeOf_congr hfirst.current] at hlast
  have hscratch : ∀ other ∈ done ++ file :: rest,
      tree.placeOf other.path ∉ [tree.placeOf (FileOperation.temporary file.path)] := by
    intro other hother
    rw [List.mem_singleton]
    exact placeOf_ne_temporary hplaces (List.mem_map_of_mem hother)
      (List.mem_map_of_mem (List.mem_append_right _ List.mem_cons_self))
  rw [List.map_append, placesOf_append] at hplaces
  obtain ⟨hdistinct, -, hdisjoint⟩ := List.nodup_append.1 hplaces
  have hbefore : CutOff tree between done (file :: rest) :=
    ⟨fileAt?_of_emit_eq_ok hdistinct hdone, fun other hother =>
      hfirst.fileAt? _ fun hwritten => hdisjoint _ hwritten _ (placeOf_mem_placesOf hother) rfl⟩
  exact hbefore.spares hlast hscratch

/-! ## The work on the schema -/

/-- Bringing a schema in line touches its file and the temporary one beside it only. -/
lemma confined_sync (file : SchemaFile) (library : ParameterLibrary) :
    (file.sync library).Confined tree (places tree file.path) := by
  refine (FileOperation.confined_look _).bind fun found after _ hafter => ?_
  obtain ⟨changed, document⟩ := found
  dsimp only
  split
  · have hreplace : (FileOperation.replace file.path (SchemaFile.textOf document)).Confined after
        (places after file.path) := FileOperation.confined_replace _ _
    rw [places_congr hafter.current] at hreplace
    exact hreplace.bind fun _ _ _ _ => FileOperation.confined_pure true
  · exact FileOperation.confined_pure false

/-- Checking the fragments changes nothing after the schema was brought in line. -/
lemma runIn_schemaHalf_snd (choices : List Nat) (session : Session) :
    ((schemaHalf choices).runIn session).2 = (syncSchema.runIn session).2 := by
  unfold schemaHalf validated
  rw [runIn_bind]
  rcases syncSchema.runIn session with ⟨failure | updated, after⟩
  · rfl
  · dsimp only
    rw [runIn_bind, runIn_find]
    cases validate after.config choices after.tree <;> rfl

/-- **What the work on the schema touches**, whether it succeeds or fails: the schema file and the
temporary one beside it. The configuration stays. -/
theorem spares_schemaHalf (choices : List Nat) (session : Session) :
    ((schemaHalf choices).runIn session).2.config = session.config ∧
      session.tree.Spares ((schemaHalf choices).runIn session).2.tree
        (places session.tree session.config.schemaPath) := by
  rw [runIn_schemaHalf_snd, runIn_syncSchema]
  cases session.library? with
  | error failure => exact ⟨rfl, FileTree.Spares.refl session.tree⟩
  | ok library =>
    dsimp only
    rw [runIn_onFiles]
    exact ⟨rfl, confined_sync session.config.schemaFile library⟩

/-! ## Builds -/

variable {choices : List Nat} {session last : Session} {outputs : Outputs}

/-- The command that compiles fails if the outputs cannot be rendered and written. -/
lemma perform_compile_of_outputsHalf_eq_error
    (h : (outputsHalf choices).runIn session = (.error failure, last)) :
    (Command.compile.perform choices).runIn session = (.error failure, last) :=
  runIn_bind_eq_error_iff.2 (.inl h)

/-- Writing outputs fails at one of them, and leaves those before it written and the others as they
were. -/
lemma exists_cutOff_of_emitted (h : (emitted outputs).runIn session = (.error failure, last))
    (hplaces : (placesOf session.tree (outputs.files.map RenderedFile.path)).Nodup) :
    ∃ done file rest, outputs.files = done ++ file :: rest ∧
      FailsAt session.tree last.tree failure done file ∧
      CutOff session.tree last.tree done (file :: rest) := by
  obtain ⟨tree, hemit, rfl⟩ := runIn_onFiles_eq_error_iff.1 h
  obtain ⟨done, file, rest, hfiles, hfails⟩ := exists_failsAt hemit
  rw [hfiles] at hplaces
  exact ⟨done, file, rest, hfiles, hfails, hfails.cutOff hplaces⟩

/-- A whole build whose outputs cannot be rendered touches the schema file at most. -/
lemma failsLeaving_of_rendered
    (h : (compiled choices >>= rendered).runIn session = (.error failure, last)) :
    (all choices).FailsLeaving session fun tree =>
      session.tree.Spares tree (places session.tree session.config.schemaPath) := by
  obtain ⟨hconfig, htree⟩ := unchanged_of_runIn_rendered h
  obtain ⟨reason, hall⟩ :=
    runIn_all_of_outputsHalf_eq_error (runIn_outputsHalf_eq_error_iff.2 (.inl h))
  refine ⟨reason, _, hall, ?_⟩
  rw [← htree, ← hconfig]
  exact (spares_schemaHalf choices last).2

/-- Outputs that are apart have different places. -/
lemma Apart.nodup (h : Apart session outputs) :
    (placesOf session.tree (outputs.files.map RenderedFile.path)).Nodup := by
  unfold Apart at h
  rw [placesOf_append] at h
  exact (List.nodup_append.1 h).1

/-- Outputs that are apart are not in the places of the schema. -/
lemma Apart.not_mem_places (h : Apart session outputs) {file : RenderedFile}
    (hfile : file ∈ outputs.files) :
    session.tree.placeOf file.path ∉ places session.tree session.config.schemaPath := by
  unfold Apart at h
  rw [placesOf_append] at h
  intro hmem
  exact (List.nodup_append.1 h).2.2 _ (placeOf_mem_placesOf hfile) _
    (List.mem_flatMap.2 ⟨_, List.mem_singleton_self _, hmem⟩) rfl

/-- The places of an output are not those of later ones or of the schema, if the outputs are apart. -/
lemma Apart.disjoint (h : Apart session outputs) {file : RenderedFile}
    (hfiles : outputs.files = done ++ file :: rest) :
    (places session.tree file.path).Disjoint
      (placesOf session.tree (rest.map RenderedFile.path ++ [session.config.schemaPath])) := by
  unfold Apart at h
  rw [hfiles, List.map_append, List.append_assoc, placesOf_append, List.map_cons, List.cons_append,
    placesOf_cons] at h
  exact List.disjoint_of_nodup_append (List.nodup_append.1 h).2.1

/-- A whole build whose outputs cannot be written leaves them as the writing does, since the schema
has other places. -/
lemma failsLeaving_of_emitted {ready : Session}
    (hrender : (compiled choices >>= rendered).runIn session = (.ok outputs, ready))
    (h : (emitted outputs).runIn ready = (.error failure, last)) (hapart : Apart session outputs)
    (hfiles : outputs.files = done ++ rest) (hcut : CutOff session.tree last.tree done rest) :
    (all choices).FailsLeaving session fun tree => CutOff session.tree tree done rest := by
  obtain ⟨hconfig, htree⟩ := unchanged_of_runIn_rendered hrender
  obtain ⟨reason, hall⟩ := runIn_all_of_outputsHalf_eq_error
    (runIn_outputsHalf_eq_error_iff.2 (.inr ⟨outputs, ready, hrender, h⟩))
  obtain ⟨tree, hemit, rfl⟩ := runIn_onFiles_eq_error_iff.1 h
  have hschema := (spares_schemaHalf choices { ready with tree := tree }).2
  have hcurrent : tree.current = session.tree.current := by
    rw [((confined_emit outputs.files).spares hemit).current, htree]
  have hsame : places tree ready.config.schemaPath =
      places session.tree session.config.schemaPath := by rw [hconfig, places_congr hcurrent]
  dsimp only at hschema
  rw [hsame] at hschema
  exact ⟨reason, _, hall, hcut.spares hschema fun file hfile =>
    hapart.not_mem_places (hfiles ▸ hfile)⟩

/-- Outputs that cannot be written are left the same if other files have changed before, as long as
these are in the places of the schema. -/
lemma exists_cutOff_of_spares {start ready : Session}
    (hspared : session.tree.Spares start.tree (places session.tree session.config.schemaPath))
    (hrender : (compiled choices >>= rendered).runIn start = (.ok outputs, ready))
    (h : (emitted outputs).runIn ready = (.error failure, last)) (hapart : Apart session outputs) :
    ∃ done file rest, outputs.files = done ++ file :: rest ∧
      FailsAt start.tree last.tree failure done file ∧
      CutOff session.tree last.tree done (file :: rest) := by
  have hdistinct := hapart.nodup
  have htree := (unchanged_of_runIn_rendered hrender).2
  rw [← placesOf_congr hspared.current, ← htree] at hdistinct
  obtain ⟨done, file, rest, hfiles, hfails, hcut⟩ := exists_cutOff_of_emitted h hdistinct
  rw [htree] at hfails hcut
  refine ⟨done, file, rest, hfiles, hfails, .of_spares hspared hcut fun other hother => ?_⟩
  exact hapart.not_mem_places (hfiles ▸ List.mem_append_right done hother)

/-- **What a build that fails leaves.** If the outputs cannot be rendered, then compiling them
changes nothing, and a whole build touches the schema file and its temporary file at most. If the
outputs cannot be written, then there is one that cannot be replaced: those before it hold their
whole content and the others are as they were, when the writing ends, when the command that compiles
ends, and when a whole build ends. It is the same if the work on the schema comes first.

**Proof sketch.** Compiling and rendering only look at the files, so a failure up to then leaves
them to the work on the schema (`spares_schemaHalf`). Replacing a file touches its place and that of
its temporary file, and a replacement that fails touches the latter at most, so by induction over the
files the ones before the failure keep their content and the later ones are not reached
(`FailsAt.cutOff`). The places of the schema are different from all of these. -/
theorem failed_build_spares (choices : List Nat) (session : Session) :
    (∀ failure last, (compiled choices >>= rendered).runIn session = (.error failure, last) →
      (Command.compile.perform choices).runIn session = (.error failure, last) ∧
        last.tree = session.tree ∧
        (all choices).FailsLeaving session fun tree =>
          session.tree.Spares tree (places session.tree session.config.schemaPath)) ∧
      (∀ outputs failure last, (emitted outputs).runIn session = (.error failure, last) →
        (placesOf session.tree (outputs.files.map RenderedFile.path)).Nodup →
        ∃ done file rest, outputs.files = done ++ file :: rest ∧
          FailsAt session.tree last.tree failure done file ∧
          CutOff session.tree last.tree done (file :: rest)) ∧
      (∀ outputs ready failure last,
        (compiled choices >>= rendered).runIn session = (.ok outputs, ready) →
        (emitted outputs).runIn ready = (.error failure, last) → Apart session outputs →
        ∃ done file rest, outputs.files = done ++ file :: rest ∧
          FailsAt session.tree last.tree failure done file ∧
          (Command.compile.perform choices).runIn session = (.error failure, last) ∧
          CutOff session.tree last.tree done (file :: rest) ∧
          (all choices).FailsLeaving session fun tree =>
            CutOff session.tree tree done (file :: rest)) ∧
      ∀ start, start = ((schemaHalf choices).runIn session).2 →
        (∀ failure last, (compiled choices >>= rendered).runIn start = (.error failure, last) →
          session.tree.Spares last.tree (places session.tree session.config.schemaPath)) ∧
        ∀ outputs ready failure last,
          (compiled choices >>= rendered).runIn start = (.ok outputs, ready) →
          (emitted outputs).runIn ready = (.error failure, last) → Apart session outputs →
          ∃ done file rest, outputs.files = done ++ file :: rest ∧
            FailsAt start.tree last.tree failure done file ∧
            CutOff session.tree last.tree done (file :: rest) := by
  refine ⟨fun failure last hrender => ?_, fun outputs failure last => exists_cutOff_of_emitted,
    fun outputs ready failure last hrender hemitted hapart => ?_, ?_⟩
  · have houtputs := runIn_outputsHalf_eq_error_iff.2 (.inl hrender)
    exact ⟨perform_compile_of_outputsHalf_eq_error houtputs,
      (unchanged_of_runIn_rendered hrender).2, failsLeaving_of_rendered hrender⟩
  · have houtputs := runIn_outputsHalf_eq_error_iff.2 (.inr ⟨outputs, ready, hrender, hemitted⟩)
    obtain ⟨done, file, rest, hfiles, hfails, hcut⟩ :=
      exists_cutOff_of_spares (.refl session.tree) hrender hemitted hapart
    exact ⟨done, file, rest, hfiles, hfails, perform_compile_of_outputsHalf_eq_error houtputs, hcut,
      failsLeaving_of_emitted hrender hemitted hapart hfiles hcut⟩
  · rintro start rfl
    have hspared := (spares_schemaHalf choices session).2
    refine ⟨fun failure last hrender => ?_, fun outputs ready failure last hrender hemitted =>
      exists_cutOff_of_spares hspared hrender hemitted⟩
    rwa [(unchanged_of_runIn_rendered hrender).2]

/-! ## A session -/

/-- A session with one fragment and a document of supported vehicles, where a directory is in the
place of the temporary file of that document. -/
def sampleBlocked : Session where
  config := { BuildConfig.default with
    profilesDir := ⟨"p"⟩
    docs := { DocsConfig.default with
      root := ⟨"d"⟩
      vehiclesPattern := "v"
      parametersPattern := "w" } }
  library := some sampleLibrary
  tree :=
    ⟨[(["p"], .directory),
      (["p", "a.json"], .file (.text (Json.toText (.object [("car_model", .text "M"),
        ("pids", .object [("A", .object [("parameters", .object [("X", .text "1")])])])])))),
      (["d"], .directory), (["d", "v"], .file (.text "old")), (["d", "v.tmp"], .directory)], []⟩

/-- The artifact of the session. -/
def blockedArtifact : Artifact where
  cars := [⟨"M", none, [⟨"A", none, [⟨"X", "1", [("unit", .text "V")]⟩], []⟩], [], none, true,
    ⟨"a.json"⟩⟩]

/-- The outputs of the session. -/
def blockedOutputs : Outputs where
  artifact := ⟨⟨"vehicle_profiles.json"⟩, blockedArtifact.toText true⟩
  vehicles := ⟨⟨"d/v"⟩,
    Document.render Document.vehiclesBody (Document.vehicleRows blockedArtifact)⟩
  parameters := ⟨⟨"d/3.Supported_Parameters.md"⟩,
    Document.render Document.parametersBody (Document.parameterRows sampleLibrary)⟩

/-- Where there are no documents, nothing is rendered and nothing is written. Where a directory is in
the way of the document of supported vehicles, it is the artifact that is written. -/
theorem failed_build_spares_sampleBlocked :
    (∃ failure last, (compiled [] >>= rendered).runIn sampleSession = (.error failure, last) ∧
      (Command.compile.perform []).runIn sampleSession = (.error failure, last) ∧
      last.tree = sampleSession.tree ∧
      (all []).FailsLeaving sampleSession fun tree =>
        sampleSession.tree.Spares tree
          (places sampleSession.tree sampleSession.config.schemaPath)) ∧
    (compiled [] >>= rendered).runIn sampleBlocked = (.ok blockedOutputs, sampleBlocked) ∧
    ∃ failure last, (emitted blockedOutputs).runIn sampleBlocked = (.error failure, last) ∧
      (∃ done file rest, blockedOutputs.files = done ++ file :: rest ∧
        FailsAt sampleBlocked.tree last.tree failure done file ∧
        CutOff sampleBlocked.tree last.tree done (file :: rest)) ∧
      (∃ done file rest, blockedOutputs.files = done ++ file :: rest ∧
        FailsAt ((schemaHalf []).runIn sampleBlocked).2.tree last.tree failure done file ∧
        CutOff sampleBlocked.tree last.tree done (file :: rest)) ∧
      ∃ done file rest, blockedOutputs.files = done ++ file :: rest ∧
        FailsAt sampleBlocked.tree last.tree failure done file ∧
        (Command.compile.perform []).runIn sampleBlocked = (.error failure, last) ∧
        CutOff sampleBlocked.tree last.tree done (file :: rest) ∧
        (all []).FailsLeaving sampleBlocked fun tree =>
          CutOff sampleBlocked.tree tree done (file :: rest) := by
  have hmissing : render sampleSession.config sampleSession.tree sampleLibrary sampleArtifact =
      .error (.noTarget sampleSession.config.docs.vehiclesPattern
        sampleSession.config.docs.root 0) :=
    Steps.bind_eq_error_iff.2 (.inl (by decide +kernel))
  have hnothing : (compiled [] >>= rendered).runIn sampleSession = (.error
      (.noTarget sampleSession.config.docs.vehiclesPattern sampleSession.config.docs.root 0),
        sampleSession.keep sampleLibrary) := by
    refine runIn_bind_eq_error_iff.2 (.inr ⟨sampleArtifact, _, runIn_compiled_sampleSession, ?_⟩)
    have hkept : (sampleSession.keep sampleLibrary).library? = .ok sampleLibrary := rfl
    rw [runIn_rendered, hkept]
    exact congrArg (·, sampleSession.keep sampleLibrary) hmissing
  have hrender : render sampleBlocked.config sampleBlocked.tree sampleLibrary blockedArtifact =
      .ok blockedOutputs :=
    Steps.bind_eq_ok_iff.2 ⟨blockedOutputs.vehicles.path, by decide +kernel,
      Steps.bind_eq_ok_iff.2 ⟨blockedOutputs.parameters.path, by decide +kernel, rfl⟩⟩
  have houtputs : (compiled [] >>= rendered).runIn sampleBlocked =
      (.ok blockedOutputs, sampleBlocked) :=
    runIn_bind_eq_ok_iff.2 ⟨blockedArtifact, sampleBlocked,
      runIn_compiled_eq_ok_iff.2 ⟨sampleLibrary, rfl, rfl, by decide +kernel⟩,
      runIn_rendered_eq_ok_iff.2 ⟨sampleLibrary, rfl, rfl, hrender⟩⟩
  have hfailure : ((emitted blockedOutputs).runIn sampleBlocked).1 =
      .error (.file ⟨"d/v.tmp"⟩ .isADirectory) := by decide +kernel
  have hapart : Apart sampleBlocked blockedOutputs := by decide +kernel
  have hnone : sampleBlocked.config.schemaFile.withNames sampleBlocked.tree sampleLibrary =
      .error (.file sampleBlocked.config.schemaPath .missing) := by decide +kernel
  -- there is no schema, so the work on it changes nothing
  have hstart : ((schemaHalf []).runIn sampleBlocked).2 = sampleBlocked := by
    have hlibrary : sampleBlocked.library? = .ok sampleLibrary := rfl
    have hsync : (sampleBlocked.config.schemaFile.sync sampleLibrary).runOn sampleBlocked.tree =
        (.error (.file sampleBlocked.config.schemaPath .missing), sampleBlocked.tree) := by
      unfold SchemaFile.sync
      rw [FileOperation.runOn_bind, FileOperation.runOn_look, hnone]
    rw [runIn_schemaHalf_snd, runIn_syncSchema, hlibrary]
    dsimp only
    rw [runIn_onFiles]
    exact congrArg (fun run => { sampleBlocked with tree := run.2 }) hsync
  refine ⟨⟨_, _, hnothing, (failed_build_spares [] sampleSession).1 _ _ hnothing⟩, houtputs, ?_⟩
  rcases hemitted : (emitted blockedOutputs).runIn sampleBlocked with ⟨result, last⟩
  rw [hemitted] at hfailure
  obtain rfl : result = .error (.file ⟨"d/v.tmp"⟩ .isADirectory) := hfailure
  exact ⟨_, last, rfl,
    (failed_build_spares [] sampleBlocked).2.1 _ _ _ hemitted hapart.nodup,
    ((failed_build_spares [] sampleBlocked).2.2.2 _ rfl).2 _ _ _ _ (hstart ▸ houtputs) hemitted
      hapart,
    (failed_build_spares [] sampleBlocked).2.2.1 _ _ _ _ houtputs hemitted hapart⟩

end LayeredProfiles.Build
