import LayeredProfiles.Proofs.Build.Drift
import LayeredProfiles.Proofs.FileTree.Commutation

set_option autoImplicit false

/-!
# The halves of a build in either order

A build carries out two halves: compiling, rendering and writing the outputs, and bringing the schema
in line and checking the fragments. Under the conventional layout neither reads what the other one
writes, temporary files included, and so it does not matter which of them comes first. Each ends as
it does by itself, and they leave the same files, even if one of them or both fail.

## Main definitions

* `Build.outputsOn`, `Build.schemaOn` — the halves of a build once the library is loaded.
* `Build.allSchemaFirst` — a whole build whose halves are carried out in the other order.

## Main results

* `Build.runIn_outputsHalf`, `Build.runIn_schemaHalf` — what the halves do in a session.
* `Build.rewritten_emit`, `Build.rewritten_sync` — what the halves change, even if they fail.
* `Build.commute_halves` — the halves commute on a tree.
* `Build.halves_commute` — the halves of a build in either order.
-/

namespace LayeredProfiles

namespace Build

variable {config : BuildConfig} {root : Path} {tree after : FileTree} {library : ParameterLibrary}
  {files : List PlacedFile} {base : Location} {touched : List Location}

/-! ## The halves on a tree -/

/-- The first half of a build once the library is loaded. -/
def outputsOn (config : BuildConfig) (library : ParameterLibrary) (choices : List Nat) :
    FileOperation Failure (Artifact × List Path) := do
  let artifact ← FileOperation.look fun tree => compile config choices tree library
  let outputs ← FileOperation.look fun tree => render config tree library artifact
  let written ← emit outputs.files
  pure (artifact, written)

/-- The second half of a build once the library is loaded. -/
def schemaOn (config : BuildConfig) (library : ParameterLibrary) (choices : List Nat) :
    FileOperation Failure Bool := do
  let updated ← config.schemaFile.sync library
  let _ ← FileOperation.look fun tree => validate config choices tree
  pure updated

/-- What becomes of a whole build, given how its halves ended. -/
def summarize (outputs : Except Failure (Artifact × List Path)) (schema : Except Failure Bool) :
    Task BuildSummary :=
  match outputs, schema with
  | .ok (artifact, written), .ok updated =>
    pure ⟨artifact.cars.length, artifact.documented.length, updated, written⟩
  | _, .error failure => throw failure
  | .error failure, .ok _ => throw failure

/-- A whole build carries out its halves and sums up how they ended. -/
lemma all_eq_summarize (choices : List Nat) :
    all choices = (do
      let outputs ← attempt (outputsHalf choices)
      let schema ← attempt (schemaHalf choices)
      summarize outputs schema) :=
  rfl

/-- A whole build whose second half is carried out first. -/
def allSchemaFirst (choices : List Nat) : Task BuildSummary := do
  let schema ← attempt (schemaHalf choices)
  let outputs ← attempt (outputsHalf choices)
  summarize outputs schema

section Halves

variable {session : Session} {choices : List Nat}

/-- The first half of a build works on the files once the library is loaded. -/
lemma runIn_outputsHalf (hlibrary : session.library? = .ok library) :
    (outputsHalf choices).runIn session =
      (((outputsOn session.config library choices).runOn session.tree).1,
        { session.keep library with
          tree := ((outputsOn session.config library choices).runOn session.tree).2 }) := by
  have hkept : (session.keep library).library? = .ok library := rfl
  unfold outputsHalf outputsOn
  rw [runIn_bind, runIn_compiled, hlibrary, FileOperation.runOn_bind, FileOperation.runOn_look]
  dsimp only
  cases compile session.config choices session.tree library with
  | error failure => rfl
  | ok artifact =>
    dsimp only
    rw [runIn_bind, runIn_rendered, hkept, FileOperation.runOn_bind, FileOperation.runOn_look]
    dsimp only [Session.keep]
    cases render session.config session.tree library artifact with
    | error failure => rfl
    | ok outputs =>
      dsimp only [emitted]
      rw [runIn_bind, runIn_onFiles, FileOperation.runOn_bind]
      rcases (emit outputs.files).runOn session.tree with ⟨failure | written, last⟩ <;> rfl

/-- The second half of a build works on the files once the library is loaded. -/
lemma runIn_schemaHalf (hlibrary : session.library? = .ok library) :
    (schemaHalf choices).runIn session =
      (((schemaOn session.config library choices).runOn session.tree).1,
        { session.keep library with
          tree := ((schemaOn session.config library choices).runOn session.tree).2 }) := by
  unfold schemaHalf schemaOn
  rw [runIn_bind, runIn_syncSchema, hlibrary, FileOperation.runOn_bind]
  dsimp only
  rw [runIn_onFiles]
  dsimp only [Session.keep]
  rcases (session.config.schemaFile.sync library).runOn session.tree with ⟨failure | updated, last⟩
  · rfl
  · dsimp only
    rw [runIn_bind, validated, runIn_find, FileOperation.runOn_bind, FileOperation.runOn_look]
    dsimp only
    cases validate session.config choices last <;> rfl

/-- Without a library both halves of a build fail and change nothing. -/
lemma runIn_halves_of_error {failure : Failure} (hlibrary : session.library? = .error failure)
    (choices : List Nat) :
    (outputsHalf choices).runIn session = (.error failure, session) ∧
      (schemaHalf choices).runIn session = (.error failure, session) := by
  constructor
  · rw [outputsHalf, runIn_bind, runIn_compiled, hlibrary]
  · rw [schemaHalf, runIn_bind, runIn_syncSchema, hlibrary]

end Halves

/-! ## What the halves change -/

/-- Writing files changes them and their temporary files only, even if it fails. -/
lemma rewritten_emit (hleads : ∀ file ∈ files, file.Leads tree) :
    FileTree.Rewritten tree ((emit (files.map PlacedFile.toRenderedFile)).runOn tree).2
      (FileTree.touchedBy files) := by
  induction files generalizing tree with
  | nil => exact FileTree.Rewritten.refl tree
  | cons file rest ih =>
    have hone := FileTree.Spot.rewritten_replace (hleads file List.mem_cons_self) file.content
    rw [List.map_cons, emit, FileOperation.runOn_bind]
    rcases hreplace : (FileOperation.replace file.path file.content).runOn tree with
      ⟨failure | ⟨⟩, between⟩
    · rw [hreplace] at hone
      exact hone.mono (List.subset_append_left _ _)
    · rw [hreplace] at hone
      dsimp only at hone ⊢
      rw [FileOperation.runOn_bind_snd _ fun _ _ => rfl]
      exact hone.trans (ih fun other hother =>
        (hleads other (List.mem_cons_of_mem _ hother)).rewritten hone)

/-- Bringing the schema in line changes nothing, or at most the schema and its temporary file. -/
lemma rewritten_sync (library : ParameterLibrary) (hconfig : config.Conventional root)
    (hgrounded : tree.Grounded) :
    ((config.schemaFile.sync library).runOn tree).2 = tree ∨
      ∃ base, tree.RootAt root base ∧
        FileTree.Rewritten tree ((config.schemaFile.sync library).runOn tree).2
          [base ++ [".vehicle_profiles"] ++ ["schema.json"],
            FileTree.scratch (base ++ [".vehicle_profiles"]) "schema.json"] := by
  unfold SchemaFile.sync
  rw [FileOperation.runOn_bind, FileOperation.runOn_look]
  rcases hnames : config.schemaFile.withNames tree library with failure | ⟨_ | _, document⟩
  · exact .inl rfl
  · exact .inl rfl
  · obtain ⟨text, -, hread, -, -⟩ := SchemaFile.withNames_eq_ok_iff.1 hnames
    obtain ⟨base, hroot, hspot, -⟩ := FileTree.exists_spot_schema hconfig hgrounded hread
    refine .inr ⟨base, hroot, ?_⟩
    dsimp only
    rw [if_pos rfl, FileOperation.runOn_bind_snd _ fun _ _ => rfl]
    exact hspot.rewritten_replace (SchemaFile.textOf document)

/-- Checking the fragments changes nothing after that. -/
lemma runOn_schemaOn_snd (choices : List Nat) :
    ((schemaOn config library choices).runOn tree).2 =
      ((config.schemaFile.sync library).runOn tree).2 := by
  unfold schemaOn
  refine FileOperation.runOn_bind_snd _ (fun updated after => ?_) tree
  rw [FileOperation.runOn_bind_snd _ fun _ _ => rfl, FileOperation.runOn_look]

/-! ## Either order -/

/-- Some files are written and another one is replaced that is there already, in either order, if
they do not get in each other's way. -/
lemma commute_emit_replace {place : Path} {above : Location} {other text : String}
    (hplace : tree.Spot place above other) {content : Content}
    (hthere : tree.at? (above ++ [other]) = some (.file content))
    (hleads : ∀ file ∈ files, file.Leads tree)
    (hapart : ∀ l ∈ FileTree.touchedBy files,
      above ++ [other] ≠ l ∧ FileTree.scratch above other ≠ l) :
    (emit (files.map PlacedFile.toRenderedFile)).Commute (FileOperation.replace place text) tree := by
  induction files generalizing tree with
  | nil => exact .pure []
  | cons file rest ih =>
    have hfile : tree.Spot file.path file.base file.name := hleads file List.mem_cons_self
    obtain ⟨hfirst, hrest⟩ := List.forall_mem_append.1 hapart
    refine (hfile.commute_replace hplace hfirst hthere _ _).bind fun value after hrun => ?_
    have hchanged := hfile.rewritten_replace file.content
    rw [hrun] at hchanged
    refine (ih (hchanged.spot hplace) ?_ ?_ hrest).bind fun _ _ _ => .pure _
    · rw [hchanged.elsewhere _ fun hmem => (hfirst _ hmem).1 rfl, hthere]
    · exact fun next hnext => (hleads next (List.mem_cons_of_mem _ hnext)).rewritten hchanged

section Emit

variable (hconfig : config.Conventional root) (hroot : tree.RootAt root base)
  (hleads : ∀ file ∈ files, file.Leads tree)
  (hfragments : ∀ l ∈ FileTree.touchedBy files, ¬ base ++ ["vehicle_profiles"] <+: l)
  (hschema : ∀ l ∈ FileTree.touchedBy files, ¬ base ++ [".vehicle_profiles"] <+: l)

include hconfig hroot hleads hschema

/-- Files elsewhere are written before the schema is brought in line or after that. -/
lemma commute_sync_emit :
    (config.schemaFile.sync library).Commute (emit (files.map PlacedFile.toRenderedFile)) tree := by
  unfold SchemaFile.sync
  refine .look_bind (hroot.withNames_rewritten hconfig (rewritten_emit hleads) hschema library)
    fun (updated, document) hnames => ?_
  cases updated with
  | false => exact .pure false
  | true =>
    obtain ⟨text, -, hread, -, -⟩ := SchemaFile.withNames_eq_ok_iff.1 hnames
    obtain ⟨found, hfound, hspot, content, hthere⟩ :=
      FileTree.exists_spot_schema hconfig hroot.grounded hread
    obtain rfl : base = found := Except.ok.inj (hroot.reach.symm.trans hfound.reach)
    have hapart : ∀ l ∈ FileTree.touchedBy files,
        base ++ [".vehicle_profiles"] ++ ["schema.json"] ≠ l ∧
          FileTree.scratch (base ++ [".vehicle_profiles"]) "schema.json" ≠ l := fun l hl =>
      ⟨fun hsame => hschema l hl ⟨_, hsame⟩, fun hsame => hschema l hl ⟨_, hsame⟩⟩
    exact (commute_emit_replace hspot hthere hleads hapart).symm.bind fun _ _ _ => .pure true

include hfragments

/-- Files elsewhere are written before the second half of a build or after it. -/
lemma commute_schemaOn_emit (choices : List Nat) :
    (schemaOn config library choices).Commute (emit (files.map PlacedFile.toRenderedFile)) tree := by
  refine (commute_sync_emit hconfig hroot hleads hschema).bind fun updated after hrun =>
    .look_bind ?_ fun _ _ => .pure updated
  -- the schema is in line, and the files are still elsewhere
  obtain ⟨touched, hchanged⟩ : ∃ touched, FileTree.Rewritten tree after touched := by
    have hsync := rewritten_sync library hconfig hroot.grounded
    rw [hrun] at hsync
    rcases hsync with rfl | ⟨_, -, hwritten⟩
    · exact ⟨[], .refl _⟩
    · exact ⟨_, hwritten⟩
  have hafter := hroot.rewritten hchanged
  have hstill : ∀ file ∈ files, file.Leads after := fun file hfile =>
    (hleads file hfile).rewritten hchanged
  refine validate_eq_of_rewritten (rewritten_emit hstill) (hafter.resolve_profilesDir hconfig)
    hfragments ?_ choices
  unfold SchemaFile.schema
  rw [hafter.document_rewritten hconfig (rewritten_emit hstill) hschema]

end Emit

/-- **The halves of a build commute** on a tree of real files under the conventional layout. -/
lemma commute_halves (library : ParameterLibrary) (hconfig : config.Conventional root)
    (hgrounded : tree.Grounded) (outputs schema : List Nat) :
    (outputsOn config library outputs).Commute (schemaOn config library schema) tree := by
  -- what the second half writes is neither a fragment nor a document
  have hsame : compile config outputs ((schemaOn config library schema).runOn tree).2 library =
        compile config outputs tree library ∧
      ∀ artifact, render config ((schemaOn config library schema).runOn tree).2 library artifact =
        render config tree library artifact := by
    rw [runOn_schemaOn_snd]
    rcases rewritten_sync library hconfig hgrounded with heq | ⟨base, hroot, hchanged⟩
    · rw [heq]
      exact ⟨rfl, fun _ => rfl⟩
    · refine ⟨?_, fun artifact => hroot.render_rewritten hconfig hchanged ?_⟩
      · refine compile_eq_of_rewritten hchanged (hroot.resolve_profilesDir hconfig) ?_
          hconfig.noteFile hgrounded.toWellNamed outputs
        simp [FileTree.scratch, List.prefix_append_right_inj]
      · simp [FileTree.scratch, List.prefix_append_right_inj]
  refine .look_bind hsame.1 fun artifact _ => .look_bind (hsame.2 artifact) fun outs hrender => ?_
  obtain ⟨sites, hserve⟩ := Sites.exists_serve hconfig hgrounded hrender
  refine FileOperation.Commute.bind ?_ fun _ _ _ => .pure _
  have hfiles : outs.files = (sites.outputs outs).map PlacedFile.toRenderedFile := rfl
  have hsub : FileTree.touchedBy (sites.outputs outs) ⊆
      FileTree.touchedBy (sites.files outs outs.artifact) :=
    ((List.sublist_append_left _ _).flatMap _).subset
  rw [hfiles]
  exact (commute_schemaOn_emit hconfig hserve.rootAt (hserve.leads hconfig)
    (fun l hl => Sites.not_below_fragments l (hsub hl)) Sites.not_below_schema schema).symm

/-- The halves of a build commute in a session. -/
lemma commute_runIn {session : Session} (hconfig : session.config.Conventional root)
    (hgrounded : session.tree.Grounded) (outputs schema : List Nat) :
    ((outputsHalf outputs).runIn ((schemaHalf schema).runIn session).2).1 =
        ((outputsHalf outputs).runIn session).1 ∧
      ((schemaHalf schema).runIn ((outputsHalf outputs).runIn session).2).1 =
        ((schemaHalf schema).runIn session).1 ∧
      ((schemaHalf schema).runIn ((outputsHalf outputs).runIn session).2).2 =
        ((outputsHalf outputs).runIn ((schemaHalf schema).runIn session).2).2 := by
  cases hlibrary : session.library? with
  | error failure =>
    have hfails := runIn_halves_of_error hlibrary
    simp only [(hfails _).1, (hfails _).2, and_self]
  | ok library =>
    have hcommute := commute_halves library hconfig hgrounded outputs schema
    -- whichever half comes first, the other one finds the library in the session
    have hkept : ∀ tree, ({ session.keep library with tree := tree }).library? = .ok library :=
      fun _ => rfl
    rw [runIn_outputsHalf hlibrary, runIn_schemaHalf hlibrary]
    dsimp only
    rw [runIn_outputsHalf (hkept _), runIn_schemaHalf (hkept _)]
    exact ⟨hcommute.left, hcommute.right, congrArg
      (fun tree => { session.keep library with tree := tree }) hcommute.tree_eq⟩

/-- **The halves of a build in either order.** Under the conventional layout, with the artifact
indented or not, in a session whose tree stands for real files: each half ends in the same way
whether or not the other one has been carried out, be it with a failure, and whichever comes first,
the session is the same in the end, with the same files. So a whole build yields the same summary or
fails in the same way in either order.

**Proof sketch.** The schema is not below the directories of fragments and documents, so compiling
and rendering do not see whether it is written, and no output is below the directory of fragments or
that of the schema, so bringing the schema in line and checking the fragments do not see whether the
outputs are. Where each half writes, it does so beside the other one: the files that it replaces and
their temporary files are in other places (`FileTree.Spot.commute_replace`). The halves are sequences
of such steps, each of which commutes (`FileOperation.Commute.bind`). -/
theorem halves_commute {root : Path} {pretty : Bool} {session : Session}
    (hconfig : session.config = { BuildConfig.forRoot root with pretty := pretty })
    (hgrounded : session.tree.Grounded) (outputs schema : List Nat) :
    ((outputsHalf outputs).runIn ((schemaHalf schema).runIn session).2).1 =
        ((outputsHalf outputs).runIn session).1 ∧
      ((schemaHalf schema).runIn ((outputsHalf outputs).runIn session).2).1 =
        ((schemaHalf schema).runIn session).1 ∧
      ((schemaHalf schema).runIn ((outputsHalf outputs).runIn session).2).2 =
        ((outputsHalf outputs).runIn ((schemaHalf schema).runIn session).2).2 ∧
      ∀ choices, (allSchemaFirst choices).runIn session = (all choices).runIn session := by
  have hlayout : session.config.Conventional root :=
    hconfig ▸ BuildConfig.conventional_forRoot root pretty
  obtain ⟨houtputs, hschema, hsession⟩ := commute_runIn hlayout hgrounded outputs schema
  refine ⟨houtputs, hschema, hsession, fun choices => ?_⟩
  obtain ⟨hfirst, hsecond, hlast⟩ := commute_runIn hlayout hgrounded choices choices
  rw [allSchemaFirst, all_eq_summarize]
  simp only [runIn_attempt_bind]
  rw [hfirst, hsecond, ← hlast]

/-- The halves commute in the session with an empty schema. -/
theorem halves_commute_sampleSite :
    let session := sampleSite (.object [])
    session.config = { BuildConfig.forRoot ⟨"r"⟩ with pretty := false } ∧ session.tree.Grounded ∧
      ((outputsHalf [1]).runIn ((schemaHalf []).runIn session).2).1 =
        ((outputsHalf [1]).runIn session).1 ∧
      ((schemaHalf []).runIn ((outputsHalf [1]).runIn session).2).1 =
        ((schemaHalf []).runIn session).1 ∧
      ((schemaHalf []).runIn ((outputsHalf [1]).runIn session).2).2 =
        ((outputsHalf [1]).runIn ((schemaHalf []).runIn session).2).2 ∧
      (allSchemaFirst [1]).runIn session = (all [1]).runIn session := by
  intro session
  have hconfig : session.config = { BuildConfig.forRoot ⟨"r"⟩ with pretty := false } := rfl
  have hgrounded : session.tree.Grounded := grounded_sampleSite
  obtain ⟨houtputs, hschema, hsession, hall⟩ := halves_commute hconfig hgrounded [1] []
  exact ⟨hconfig, hgrounded, houtputs, hschema, hsession, hall [1]⟩

end Build

end LayeredProfiles
