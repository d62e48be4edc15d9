import LayeredProfiles.Proofs.Build.Aborted
import LayeredProfiles.Proofs.Build.Commutation
import LayeredProfiles.Proofs.Build.Course

set_option autoImplicit false

/-!
# Interleaved builds

The two halves of a build run at the same time, so between two steps of one half the other one may
change files. Reading and checking may be divided into steps in any way, as long as these leave the
files alone. A file is replaced in at least three steps: the directories above it are made, the text is
written to the temporary file, and that is moved to its place; the last two are taken at once each.

What an output holds in the end is decided from the step that writes its temporary file on. Then only
the other half can get in the way until the temporary file is moved, and afterwards only the later
outputs and the other half can.

## Main definitions

* `Build.Touches` — what steps that replace some files can do to a session.
* `Build.writeTemporary`, `Build.moveTemporary` — the last two steps of replacing a file.
* `Build.Division` — a division of the parts of a build into steps.
* `Build.Division.outputs`, `Build.Division.schema` — the two halves of a build.
* `Build.Division.halves`, `Build.Division.all` — the halves at the same time, and a whole build.
* `Build.Division.whole` — the division that takes every part at once.
* `Build.Division.Steady` — the outputs are rendered in one tree.

## Main results

* `Build.Division.all_nil`, `Build.Division.exists_turns_allSchemaFirst` — the two halves one after the
  other.
* `Build.touches_writeTemporary`, `Build.touches_moveTemporary` — what these steps touch.
* `Build.readText_of_amid` — what a replaced file holds in the end.
* `Build.Division.readText_of_halves` — what the outputs of an interleaved build hold.
* `Build.Division.readText_of_apart` — if nothing is in each other's way, all of them hold what was
  rendered for them.

## Implementation notes

The library is loaded once, so its file may be read by one half only; which of them that is makes no
difference to what is touched.
-/

namespace LayeredProfiles.Build

open Relation

/-! ## What steps can touch -/

/-- The second session is what steps that replace files at some paths can make of the first one: no
other files are touched, and directories stay where they are. -/
structure Touches (paths : List Path) (before after : Session) : Prop where
  /-- The configuration is not changed. -/
  config : after.config = before.config
  /-- Elsewhere are the files that were there before. -/
  spares : before.tree.Spares after.tree (placesOf before.tree paths)
  /-- Directories stay. -/
  directory : ∀ l, before.tree.at? l = some .directory → after.tree.at? l = some .directory
  /-- A tree that stands for real files still does. -/
  grounded : before.tree.Grounded → after.tree.Grounded

variable {session between last : Session} {paths more : List Path} {path : Path} {text : String}

namespace Touches

/-- Where no step is taken nothing is touched. -/
lemma refl (paths : List Path) (session : Session) : Touches paths session session :=
  ⟨rfl, .refl _, fun _ => id, id⟩

/-- One step after another. -/
lemma trans (h : Touches paths session between) (hnext : Touches paths between last) :
    Touches paths session last where
  config := hnext.config.trans h.config
  spares := h.spares.trans (placesOf_congr h.spares.current paths ▸ hnext.spares)
  directory l hl := hnext.directory l (h.directory l hl)
  grounded hgrounded := hnext.grounded (h.grounded hgrounded)

/-- More may be touched. -/
lemma mono (h : Touches paths session last) (hmore : paths ⊆ more) : Touches more session last where
  config := h.config
  spares := h.spares.mono (placesOf_subset hmore)
  directory := h.directory
  grounded := h.grounded

/-- Any number of steps. -/
lemma of_reflTransGen (h : ReflTransGen (Touches paths) session last) : Touches paths session last := by
  induction h with
  | refl => exact refl paths session
  | tail _ hstep ih => exact ih.trans hstep

/-- A text is read as before while its place is not touched. -/
lemma readText (h : Touches paths session last) (hread : session.tree.readText path = .ok text)
    (hplace : session.tree.placeOf path ∉ placesOf session.tree paths) :
    last.tree.readText path = .ok text :=
  FileTree.readText_of_spares h.spares h.directory hread hplace

end Touches

/-- A library that is kept touches no file. -/
lemma touches_keep (library : Option ParameterLibrary) :
    Touches paths session { session with library := library } :=
  ⟨rfl, .refl _, fun _ => id, id⟩

/-- Writes the text to the temporary file. -/
def writeTemporary (path : Path) (text : String) : Task Unit :=
  onFiles (FileOperation.onPath (FileOperation.temporary path)
    (FileOperation.change fun tree => tree.writeText (FileOperation.temporary path) text))

/-- Moves the temporary file to its place. -/
def moveTemporary (path : Path) : Task Unit :=
  onFiles (FileOperation.onPath path
    (FileOperation.change fun tree => tree.moveFile (FileOperation.temporary path) path))

/-- Making the directories above a file touches no file. -/
lemma touches_prepare (path : Path) :
    Touches paths session
      { session with tree := ((FileOperation.prepare path).runOn session.tree).2 } := by
  have hgrown := FileOperation.grown_prepare session.tree path
  refine ⟨rfl, hgrown.spares, fun l hl => ?_, hgrown.grounded⟩
  rcases hgrown.kept l with hsame | ⟨hnone, -⟩
  · rw [hsame, hl]
  · rw [hl] at hnone
    cases hnone

/-- Writing the temporary file touches it, and then it holds the text. -/
lemma touches_writeTemporary (h : (writeTemporary path text).runIn session = (.ok (), last)) :
    Touches [path] session last ∧
      last.tree.fileAt? (session.tree.placeOf (FileOperation.temporary path)) = some (.text text) := by
  obtain ⟨tree, hwrite, rfl⟩ := runIn_onFiles_eq_ok_iff.1 h
  rw [FileOperation.runOn_onPath_change_eq_ok_iff] at hwrite
  have hfree := FileTree.at?_ne_directory_of_writeText hwrite
  obtain ⟨hroot, rfl⟩ := FileTree.writeText_eq_ok hwrite
  refine ⟨⟨rfl, ?_, fun l hl => ?_, fun hgrounded => ?_⟩, ?_⟩
  · exact (FileTree.spares_put _ _).mono (by simp [placesOf, places])
  · have hother : session.tree.placeOf (FileOperation.temporary path) ≠ l := by
      rintro rfl
      exact hfree hl
    rwa [FileTree.at?_put_of_ne _ hother]
  · obtain ⟨base, name, hplace, hname, hbase⟩ := hgrounded.exists_name_of_writeText hwrite
    rw [hplace] at hfree ⊢
    exact hgrounded.put hname hbase fun hdirectory => absurd hdirectory hfree
  · rw [FileTree.fileAt?, FileTree.at?_put _ hroot]

/-- Moving the temporary file touches it and its place, and then what it held is read there. -/
lemma touches_moveTemporary (h : (moveTemporary path).runIn session = (.ok (), last)) (text : String) :
    Touches [path] session last ∧
      (session.tree.fileAt? (session.tree.placeOf (FileOperation.temporary path)) =
        some (.text text) → last.tree.readText path = .ok text) := by
  obtain ⟨tree, hmove, rfl⟩ := runIn_onFiles_eq_ok_iff.1 h
  rw [FileOperation.runOn_onPath_change_eq_ok_iff] at hmove
  obtain ⟨hrewritten, hread⟩ := FileTree.of_moveFile_eq_ok hmove
  refine ⟨⟨rfl, ?_, fun l => (hrewritten.directory l).2, hrewritten.grounded⟩, hread text⟩
  exact hrewritten.spares.mono (by simp [placesOf, places])

/-- **What a replaced file holds in the end.** The text is written to the temporary file, which is moved
to its place, amid steps that may touch some other paths, and then files at further paths are replaced.
Then the text is read under the path, unless the temporary file has been touched before it was moved, or
the file afterwards. -/
lemma readText_of_amid {early later : List (Session × Session)} {write move : Session × Session}
    {others : List Path} {any : List Path}
    (h : Amid (Touches others) (early ++ write :: move :: later) session last)
    (hearly : ∀ step ∈ early, Touches any step.1 step.2)
    (hwrite : (writeTemporary path text).runIn write.1 = (.ok (), write.2))
    (hmove : (moveTemporary path).runIn move.1 = (.ok (), move.2))
    (hlater : ∀ step ∈ later, Touches more step.1 step.2)
    (htemporary : session.tree.placeOf (FileOperation.temporary path) ∉
      placesOf session.tree others)
    (hplace : session.tree.placeOf path ∉ placesOf session.tree (more ++ others)) :
    last.tree.readText path = .ok text := by
  obtain ⟨ready, hbefore, hwriting, hmoving, hafter⟩ := amid_append_iff.1 h
  -- up to the first of the two steps, nothing matters but where paths start
  have hready : Touches (any ++ others) session write.1 :=
    (Touches.of_reflTransGen (hbefore.reflTransGen
      (fun _ _ hstep => hstep.mono (List.subset_append_right _ _))
      fun step hstep => (hearly step hstep).mono (List.subset_append_left _ _))).trans
      ((Touches.of_reflTransGen hwriting).mono (List.subset_append_right _ _))
  obtain ⟨hwritten, hthere⟩ := touches_writeTemporary hwrite
  have hmeanwhile : Touches others write.2 move.1 := .of_reflTransGen hmoving
  obtain ⟨hmoved, hread⟩ := touches_moveTemporary hmove text
  have hrest : Touches (more ++ others) move.2 last :=
    .of_reflTransGen (hafter.reflTransGen
      (fun _ _ hstep => hstep.mono (List.subset_append_right _ _))
      fun step hstep => (hlater step hstep).mono (List.subset_append_left _ _))
  have hwrote : write.2.tree.current = session.tree.current :=
    hwritten.spares.current.trans hready.spares.current
  have hwaited : move.1.tree.current = session.tree.current :=
    hmeanwhile.spares.current.trans hwrote
  have hended : move.2.tree.current = session.tree.current :=
    hmoved.spares.current.trans hwaited
  rw [FileTree.placeOf_congr hready.spares.current] at hthere
  rw [FileTree.placeOf_congr hwaited] at hread
  rw [← placesOf_congr hwrote] at htemporary
  rw [← placesOf_congr hended, ← FileTree.placeOf_congr hended] at hplace
  refine hrest.readText (hread ?_) hplace
  rw [hmeanwhile.spares.fileAt? _ htemporary, hthere]

/-! ## Operations on the files, step by step -/

section Tasks

variable {α β : Type}

/-- Tasks are the same if they do the same in every session. -/
lemma Task.ext {task other : Task α} (h : ∀ session, task.runIn session = other.runIn session) :
    task = other :=
  funext h

/-- One operation after another. -/
lemma onFiles_bind (operation : FileOperation Failure α) (next : α → FileOperation Failure β) :
    onFiles (operation >>= next) = onFiles operation >>= fun value => onFiles (next value) := by
  refine Task.ext fun session => ?_
  rw [runIn_bind, runIn_onFiles, runIn_onFiles, FileOperation.runOn_bind]
  rcases operation.runOn session.tree with ⟨failure | value, tree⟩
  · rfl
  · dsimp only
    rw [runIn_onFiles]

/-- An operation without steps. -/
lemma onFiles_pure (value : α) : onFiles (pure value) = pure value :=
  rfl

/-- An operation that only looks. -/
lemma onFiles_look (action : FileTree → Except Failure α) :
    onFiles (FileOperation.look action) = find fun _ tree => action tree := by
  refine Task.ext fun session => ?_
  rw [runIn_onFiles, runIn_find, FileOperation.runOn_look]

/-- Bringing a schema in line is comparing it with the library, and replacing it if it differs. -/
lemma onFiles_sync (file : SchemaFile) (library : ParameterLibrary) :
    onFiles (file.sync library) = (do
      let found ← find fun _ tree => file.withNames tree library
      if found.1 then onFiles (FileOperation.replace file.path (SchemaFile.textOf found.2))
      pure found.1) := by
  unfold SchemaFile.sync
  rw [onFiles_bind, onFiles_look]
  refine bind_congr fun found => ?_
  obtain ⟨changed, document⟩ := found
  cases changed with
  | false => rfl
  | true => simp only [if_true, onFiles_bind, onFiles_pure]

end Tasks

/-! ## The halves of a build, step by step -/

/-- A division of the parts of a build into steps. Carried out without interruption, the steps of a part
do what the part does, and each of them touches no file. -/
structure Division (choices : List Nat) where
  /-- Compiling and rendering. -/
  reading : Course (Artifact × Outputs)
  /-- Finding out whether the schema is in line with the library. -/
  comparing : SchemaFile → Course (Bool × Json)
  /-- Checking the fragments. -/
  checking : Course Nat
  /-- Making the directories above a file. -/
  preparing : Path → Course Unit
  /-- Without interruption its steps compile and render. -/
  reading_task : reading.task = (do
    let artifact ← compiled choices
    let outputs ← rendered artifact
    pure (artifact, outputs))
  /-- Without interruption its steps compare the schema with the library. -/
  comparing_task : ∀ file, (comparing file).task = (do
    let library ← library
    find fun _ tree => file.withNames tree library)
  /-- Without interruption its steps check all fragments. -/
  checking_task : checking.task = validated choices
  /-- Without interruption its steps make the directories. -/
  preparing_task : ∀ path, (preparing path).task = onFiles (FileOperation.prepare path)
  /-- Compiling and rendering touch no file. -/
  reading_within : reading.Within (Touches [])
  /-- Nor does finding out about the schema. -/
  comparing_within : ∀ file, (comparing file).Within (Touches [])
  /-- Nor does checking the fragments. -/
  checking_within : checking.Within (Touches [])
  /-- Nor does making directories. -/
  preparing_within : ∀ path, (preparing path).Within (Touches [])

namespace Division

variable {choices : List Nat} (division : Division choices)

/-- Replaces a file. -/
def replacing (path : Path) (text : String) : Course Unit := do
  division.preparing path
  .single (writeTemporary path text)
  .single (moveTemporary path)

/-- Writes files one after the other. -/
def emitting : List RenderedFile → Course (List Path)
  | [] => pure []
  | file :: rest => do
    division.replacing file.path file.content
    let paths ← emitting rest
    pure (file.path :: paths)

/-- The first half of a build. Yields what was compiled and rendered, too. -/
def outputs : Course (Artifact × Outputs × List Path) := do
  let (artifact, outputs) ← division.reading
  let written ← division.emitting outputs.files
  pure (artifact, outputs, written)

/-- The second half of a build. -/
def schema (file : SchemaFile) : Course Bool := do
  let (changed, document) ← division.comparing file
  if changed then division.replacing file.path (SchemaFile.textOf document)
  let _ ← division.checking
  pure changed

/-- Both halves of a build at the same time, each to its end. -/
def halves (turns : List Bool) :
    Task (Except Failure (Artifact × Outputs × List Path) × Except Failure Bool) := do
  let session ← get
  together turns division.outputs (division.schema session.config.schemaFile)

/-- A whole build with both halves at the same time. -/
def all (turns : List Bool) : Task BuildSummary := do
  let (outputs, schema) ← division.halves turns
  summarize (outputs.map fun found => (found.1, found.2.2)) schema

/-! ### One half after the other -/

/-- Without interruption a file is replaced as ever. -/
lemma replacing_task (path : Path) (text : String) :
    (division.replacing path text).task = onFiles (FileOperation.replace path text) := by
  simp only [replacing, Course.task_bind, division.preparing_task, Course.task_single,
    FileOperation.replace, onFiles_bind]
  rfl

/-- Without interruption files are written as ever. -/
lemma emitting_task (files : List RenderedFile) :
    (division.emitting files).task = onFiles (emit files) := by
  induction files with
  | nil => exact (onFiles_pure []).symm
  | cons file rest ih =>
    simp only [emitting, Course.task_bind, replacing_task, ih, Course.task_pure, emit, onFiles_bind,
      onFiles_pure]

/-- Without interruption the first half of a build is what it was. -/
lemma outputs_task :
    (do
      let found ← division.outputs.task
      pure (found.1, found.2.2)) = outputsHalf choices := by
  simp only [outputs, Course.task_bind, division.reading_task, emitting_task, Course.task_pure,
    bind_assoc, pure_bind, outputsHalf, emitted]

/-- Without interruption the second half of a build is what it was. -/
lemma runIn_schema_task (session : Session) :
    (division.schema session.config.schemaFile).task.runIn session =
      (schemaHalf choices).runIn session := by
  have hsync : syncSchema.runIn session =
      (library >>= fun library => onFiles (session.config.schemaFile.sync library)).runIn session := by
    rw [runIn_syncSchema, runIn_bind, runIn_library]
    cases session.library? <;> rfl
  have htask : (division.schema session.config.schemaFile).task = (do
      let changed ← library >>= fun library => onFiles (session.config.schemaFile.sync library)
      let _ ← validated choices
      pure changed) := by
    simp only [schema, Course.task_bind, division.comparing_task, onFiles_sync, bind_assoc]
    refine bind_congr fun library => bind_congr fun found => ?_
    obtain ⟨changed, document⟩ := found
    cases changed <;>
      simp [Course.task_bind, replacing_task, division.checking_task, Course.task_pure]
  rw [htask, schemaHalf, runIn_bind, ← hsync, runIn_bind]

/-- What becomes of the two halves is summed up. -/
lemma runIn_all (turns : List Bool) (session : Session) {result} {last : Session}
    (h : (together turns division.outputs (division.schema session.config.schemaFile)).runIn session =
      (.ok result, last)) :
    (division.all turns).runIn session =
      (summarize (result.1.map fun found => (found.1, found.2.2)) result.2).runIn last := by
  have hget : (get : Task Session).runIn session = (.ok session, session) := rfl
  have hhalves : (division.halves turns).runIn session = (.ok result, last) := by
    rw [halves, runIn_bind, hget]
    exact h
  rw [all, runIn_bind, hhalves]

/-- The first half of a build, without interruption. -/
lemma runIn_outputs_task (session : Session) :
    (outputsHalf choices).runIn session =
      ((division.outputs.task.runIn session).1.map (fun found => (found.1, found.2.2)),
        (division.outputs.task.runIn session).2) := by
  rw [← division.outputs_task, runIn_bind]
  rcases division.outputs.task.runIn session with ⟨failure | found, last⟩ <;> rfl

/-- The first half of a build does not change the configuration. -/
lemma config_outputsHalf (choices : List Nat) (session : Session) :
    ((outputsHalf choices).runIn session).2.config = session.config := by
  cases hlibrary : session.library? with
  | error failure => rw [(runIn_halves_of_error hlibrary choices).1]
  | ok library =>
    rw [runIn_outputsHalf hlibrary]
    rfl

/-- **The first half before the second one** is one of the ways in which the steps can follow each
other. -/
theorem all_nil : division.all [] = Build.all choices := by
  refine Task.ext fun session => ?_
  have hconfig : (division.outputs.task.runIn session).2.config = session.config := by
    have hsession := congrArg Prod.snd (division.runIn_outputs_task session)
    rw [← hsession, config_outputsHalf]
  have htogether : (together [] division.outputs (division.schema session.config.schemaFile)).runIn
      session = (.ok ((division.outputs.task.runIn session).1,
        ((schemaHalf choices).runIn (division.outputs.task.runIn session).2).1),
        ((schemaHalf choices).runIn (division.outputs.task.runIn session).2).2) := by
    rw [together, runIn_attempt_bind, runIn_attempt_bind, ← hconfig, runIn_schema_task]
    rfl
  rw [division.runIn_all [] session htogether, all_eq_summarize, runIn_attempt_bind,
    runIn_attempt_bind, division.runIn_outputs_task]

/-- **The second half before the first one** is another one of them. -/
theorem exists_turns_allSchemaFirst (session : Session) :
    ∃ turns, (division.all turns).runIn session = (allSchemaFirst choices).runIn session := by
  obtain ⟨turns, hturns⟩ := exists_turns_second_first division.outputs
    (division.schema session.config.schemaFile) session
  refine ⟨turns, ?_⟩
  rw [runIn_attempt_bind, runIn_attempt_bind, runIn_schema_task] at hturns
  rw [division.runIn_all turns session hturns, allSchemaFirst, runIn_attempt_bind,
    runIn_attempt_bind, division.runIn_outputs_task]

/-! ### Steps of the two halves -/

/-- Replacing a file touches it. -/
lemma replacing_within (path : Path) (text : String) :
    (division.replacing path text).Within (Touches [path]) := by
  refine ((division.preparing_within path).mono fun _ _ h => h.mono (List.nil_subset _)).bind fun _ =>
    Course.Within.bind (Course.within_single fun _ _ _ hwrite => ?_) fun _ =>
      Course.within_single fun _ _ _ hmove => ?_
  · exact (touches_writeTemporary hwrite).1
  · exact (touches_moveTemporary hmove text).1

/-- Writing files touches them. -/
lemma emitting_within (files : List RenderedFile) :
    (division.emitting files).Within (Touches (files.map RenderedFile.path)) := by
  induction files with
  | nil => exact Course.within_pure []
  | cons file rest ih =>
    have hfile := division.replacing_within file.path file.content
    rw [emitting]
    refine (hfile.mono fun _ _ h => h.mono (by simp)).bind fun _ => ?_
    exact (ih.mono fun _ _ h => h.mono (by simp)).bind fun _ => Course.within_pure _

/-- The second half of a build touches the schema, and nothing if it is in line already. -/
lemma touches_of_schema {file : SchemaFile} {changed : Bool} {steps : List (Session × Session)}
    (h : (division.schema file).Yields steps changed) :
    ∀ step ∈ steps, Touches (if changed then [file.path] else []) step.1 step.2 := by
  obtain ⟨compared, rest, ⟨found, document⟩, hcompared, hrest, rfl⟩ := Course.yields_bind_iff.1 h
  have hfirst := division.comparing_within file compared _ hcompared
  cases found with
  | false =>
    obtain ⟨checked, _, _, hchecked, hdone, rfl⟩ := Course.yields_bind_iff.1 hrest
    obtain ⟨rfl, rfl⟩ := Course.yields_pure_iff.1 hdone
    rw [List.append_nil]
    exact List.forall_mem_append.2 ⟨hfirst, division.checking_within checked _ hchecked⟩
  | true =>
    obtain ⟨replaced, _, _, hreplaced, hmore, rfl⟩ := Course.yields_bind_iff.1 hrest
    obtain ⟨checked, _, _, hchecked, hdone, rfl⟩ := Course.yields_bind_iff.1 hmore
    obtain ⟨rfl, rfl⟩ := Course.yields_pure_iff.1 hdone
    have hlast := division.checking_within checked _ hchecked
    rw [List.append_nil]
    refine List.forall_mem_append.2 ⟨fun step hstep => (hfirst step hstep).mono (List.nil_subset _),
      List.forall_mem_append.2 ⟨division.replacing_within _ _ replaced _ hreplaced, ?_⟩⟩
    exact fun step hstep => (hlast step hstep).mono (List.nil_subset _)

/-- A file among those that are written is written to its temporary file, and then moved. -/
lemma exists_steps_of_emitting {done rest : List RenderedFile} {file : RenderedFile}
    {steps : List (Session × Session)} {written : List Path}
    (h : (division.emitting (done ++ file :: rest)).Yields steps written) :
    ∃ early write move later, steps = early ++ write :: move :: later ∧
      (∀ step ∈ early, Touches ((done ++ [file]).map RenderedFile.path) step.1 step.2) ∧
      (writeTemporary file.path file.content).runIn write.1 = (.ok (), write.2) ∧
      (moveTemporary file.path).runIn move.1 = (.ok (), move.2) ∧
      ∀ step ∈ later, Touches (rest.map RenderedFile.path) step.1 step.2 := by
  induction done generalizing steps written with
  | nil =>
    obtain ⟨first, more, ⟨⟩, hfirst, hmore, rfl⟩ := Course.yields_bind_iff.1 h
    obtain ⟨later, _, _, hlater, hdone, rfl⟩ := Course.yields_bind_iff.1 hmore
    obtain ⟨rfl, -⟩ := Course.yields_pure_iff.1 hdone
    obtain ⟨early, _, ⟨⟩, hearly, hsteps, rfl⟩ := Course.yields_bind_iff.1 hfirst
    obtain ⟨_, _, ⟨⟩, hwriting, hmoving, rfl⟩ := Course.yields_bind_iff.1 hsteps
    obtain ⟨ready, wrote, hwrite, rfl⟩ := Course.yields_single_iff.1 hwriting
    obtain ⟨waited, moved, hmove, rfl⟩ := Course.yields_single_iff.1 hmoving
    refine ⟨early, (ready, wrote), (waited, moved), later, by simp, fun step hstep => ?_, hwrite,
      hmove, division.emitting_within rest later _ hlater⟩
    exact (division.preparing_within _ early _ hearly step hstep).mono (List.nil_subset _)
  | cons other done ih =>
    obtain ⟨first, more, ⟨⟩, hfirst, hmore, rfl⟩ := Course.yields_bind_iff.1 h
    obtain ⟨all, _, _, hall, hdone, rfl⟩ := Course.yields_bind_iff.1 hmore
    obtain ⟨rfl, -⟩ := Course.yields_pure_iff.1 hdone
    obtain ⟨early, write, move, later, rfl, hearly, hwrite, hmove, hlater⟩ := ih hall
    refine ⟨first ++ early, write, move, later, by simp, ?_, hwrite, hmove, hlater⟩
    have hother := division.replacing_within _ _ first _ hfirst
    exact List.forall_mem_append.2
      ⟨fun step hstep => (hother step hstep).mono (by simp),
        fun step hstep => (hearly step hstep).mono (by simp)⟩

/-- What is written is reported in order. -/
lemma eq_map_of_emitting {files : List RenderedFile} {steps : List (Session × Session)}
    {written : List Path} (h : (division.emitting files).Yields steps written) :
    written = files.map RenderedFile.path := by
  induction files generalizing steps written with
  | nil => exact (Course.yields_pure_iff.1 h).2
  | cons file rest ih =>
    obtain ⟨_, _, ⟨⟩, -, h, -⟩ := Course.yields_bind_iff.1 h
    obtain ⟨_, _, paths, hrest, h, -⟩ := Course.yields_bind_iff.1 h
    rw [(Course.yields_pure_iff.1 h).2, ih hrest, List.map_cons]

/-- **What the outputs of a build hold**, however the steps of its halves follow each other: the content
that was rendered for them, unless a later output or the schema, if it is written, has touched the place
of the output, or the schema that of its temporary file. -/
theorem readText_of_halves {turns : List Bool} {artifact : Artifact} {outs : Outputs}
    {written : List Path} {updated : Bool}
    (h : (division.halves turns).runIn session =
      (.ok (.ok (artifact, outs, written), .ok updated), last)) :
    written = outs.files.map RenderedFile.path ∧
      ∀ done file rest, outs.files = done ++ file :: rest →
        session.tree.placeOf file.path ∉ placesOf session.tree
          (rest.map RenderedFile.path ++ if updated then [session.config.schemaPath] else []) →
        session.tree.placeOf (FileOperation.temporary file.path) ∉ placesOf session.tree
          (if updated then [session.config.schemaPath] else []) →
        last.tree.readText file.path = .ok file.content := by
  obtain ⟨_, _, hget, h⟩ := runIn_bind_eq_ok_iff.1 h
  cases hget
  obtain ⟨steps, others, hsteps, hothers, hamid⟩ := exists_yields_of_together h
  obtain ⟨read, emission, ⟨_, _⟩, hread, hemission, rfl⟩ := Course.yields_bind_iff.1 hsteps
  obtain ⟨emitted, _, paths, hemitted, hdone, rfl⟩ := Course.yields_bind_iff.1 hemission
  obtain ⟨rfl, hfound⟩ := Course.yields_pure_iff.1 hdone
  cases hfound
  refine ⟨division.eq_map_of_emitting hemitted, fun done file rest hfiles hplace htemporary => ?_⟩
  rw [hfiles] at hemitted
  obtain ⟨early, write, move, later, rfl, hearly, hwrite, hmove, hlater⟩ :=
    division.exists_steps_of_emitting hemitted
  have hschema := hamid.mono fun s t hstep => division.touches_of_schema hothers (s, t) hstep
  rw [List.append_nil, ← List.append_assoc] at hschema
  refine readText_of_amid hschema (List.forall_mem_append.2 ⟨fun step hstep => ?_, hearly⟩) hwrite hmove
    hlater htemporary hplace
  exact (division.reading_within read _ hread step hstep).mono (List.nil_subset _)

/-- A whole build succeeds where both halves do. -/
lemma exists_halves_of_all {turns : List Bool} {summary : BuildSummary}
    (h : (division.all turns).runIn session = (.ok summary, last)) :
    ∃ artifact outs, (division.halves turns).runIn session =
      (.ok (.ok (artifact, outs, summary.written), .ok summary.schemaUpdated), last) := by
  obtain ⟨⟨outcome, other⟩, between, hhalves, hsum⟩ := runIn_bind_eq_ok_iff.1 h
  rcases outcome with failure | ⟨artifact, outs, written⟩ <;> rcases other with reason | updated <;>
    cases hsum
  exact ⟨artifact, outs, hhalves⟩

/-- If the first half comes first, its outputs are those that are rendered in the beginning. -/
lemma exists_rendered_of_halves_nil {artifact : Artifact} {outs : Outputs} {written : List Path}
    {other : Except Failure Bool}
    (h : (division.halves []).runIn session = (.ok (.ok (artifact, outs, written), other), last)) :
    ∃ ready, (compiled choices >>= rendered).runIn session = (.ok outs, ready) := by
  obtain ⟨_, _, hget, h⟩ := runIn_bind_eq_ok_iff.1 h
  cases hget
  obtain ⟨outcome, between, hfirst, h⟩ := runIn_bind_eq_ok_iff.1 h
  obtain ⟨_, _, -, h⟩ := runIn_bind_eq_ok_iff.1 h
  obtain ⟨rfl, -⟩ := Prod.mk.inj (Except.ok.inj (Prod.mk.inj h).1)
  rw [runIn_attempt] at hfirst
  have hdone := run_of_fst_eq_ok (Except.ok.inj (Prod.mk.inj hfirst).1)
  rw [outputs, Course.task_bind, division.reading_task] at hdone
  obtain ⟨⟨_, _⟩, ready, hread, hdone⟩ := runIn_bind_eq_ok_iff.1 hdone
  obtain ⟨_, compiling, hcompiled, hread⟩ := runIn_bind_eq_ok_iff.1 hread
  obtain ⟨_, rendering, hrendered, hread⟩ := runIn_bind_eq_ok_iff.1 hread
  rw [Course.task_bind] at hdone
  obtain ⟨_, _, -, hdone⟩ := runIn_bind_eq_ok_iff.1 hdone
  cases hread
  cases hdone
  exact ⟨_, runIn_bind_eq_ok_iff.2 ⟨_, _, hcompiled, hrendered⟩⟩

/-- If the outputs, the schema and their temporary files all have different places, then every output
holds what was rendered for it. -/
theorem readText_of_apart {turns : List Bool} {artifact : Artifact} {outs : Outputs}
    {written : List Path} {updated : Bool}
    (h : (division.halves turns).runIn session =
      (.ok (.ok (artifact, outs, written), .ok updated), last)) (hapart : Apart session outs) :
    ∀ file ∈ outs.files, last.tree.readText file.path = .ok file.content := by
  intro file hfile
  obtain ⟨done, rest, hfiles⟩ := List.append_of_mem hfile
  have hdisjoint := hapart.disjoint hfiles
  -- the schema may be written or not
  have hlater : (rest.map RenderedFile.path ++ if updated then [session.config.schemaPath] else []) ⊆
      rest.map RenderedFile.path ++ [session.config.schemaPath] := by cases updated <;> simp
  have hschema : (if updated then [session.config.schemaPath] else []) ⊆
      rest.map RenderedFile.path ++ [session.config.schemaPath] := by cases updated <;> simp
  exact (division.readText_of_halves h).2 done file rest hfiles
    (fun hmem => hdisjoint List.mem_cons_self (placesOf_subset hlater hmem))
    fun hmem => hdisjoint (.tail _ (.head _)) (placesOf_subset hschema hmem)

/-! ### All parts at once -/

/-- The division that compiles, renders, compares, checks and makes directories at once each. -/
def whole (choices : List Nat) : Division choices where
  reading := do
    let artifact ← .single (compiled choices)
    let outputs ← .single (rendered artifact)
    pure (artifact, outputs)
  comparing file := do
    let library ← .single library
    .single (find fun _ tree => file.withNames tree library)
  checking := .single (validated choices)
  preparing path := .single (onFiles (FileOperation.prepare path))
  reading_task := by simp only [Course.task_bind, Course.task_single, Course.task_pure]
  comparing_task file := by simp only [Course.task_bind, Course.task_single]
  checking_task := Course.task_single _
  preparing_task path := Course.task_single _
  reading_within := by
    refine Course.Within.bind (Course.within_single fun _ _ _ h => ?_) fun _ =>
      Course.Within.bind (Course.within_single fun _ _ _ h => ?_) fun _ => Course.within_pure _
    · obtain ⟨library, -, rfl, -⟩ := runIn_compiled_eq_ok_iff.1 h
      exact touches_keep _
    · obtain ⟨library, -, rfl, -⟩ := runIn_rendered_eq_ok_iff.1 h
      exact touches_keep _
  comparing_within file := by
    refine Course.Within.bind (Course.within_single fun before _ _ h => ?_) fun _ =>
      Course.within_single fun _ _ _ h => ?_
    · rw [runIn_library] at h
      split at h <;> cases h
      exact touches_keep _
    · rw [runIn_find] at h
      rw [← (Prod.mk.inj h).2]
      exact .refl _ _
  checking_within := by
    refine Course.within_single fun _ _ _ h => ?_
    rw [validated, runIn_find] at h
    rw [← (Prod.mk.inj h).2]
    exact .refl _ _
  preparing_within path := by
    refine Course.within_single fun _ _ _ h => ?_
    rw [runIn_onFiles] at h
    rw [← (Prod.mk.inj h).2]
    exact touches_prepare path

/-- However the steps of the two halves follow each other, what is yielded as the outputs has been
rendered in one tree, which stands for real files and in which paths start where they do in the
session. -/
def Steady (session : Session) : Prop :=
  ∀ turns artifact outs written updated last,
    (division.halves turns).runIn session =
      (.ok (.ok (artifact, outs, written), .ok updated), last) →
    ∃ tree library, tree.Grounded ∧ tree.current = session.tree.current ∧
      render session.config tree library artifact = .ok outs

/-- The division that takes every part at once renders in one tree. -/
lemma steady_whole (choices : List Nat) (hgrounded : session.tree.Grounded) :
    (whole choices).Steady session := by
  intro turns artifact outs written updated last h
  obtain ⟨_, _, hget, h⟩ := runIn_bind_eq_ok_iff.1 h
  cases hget
  obtain ⟨steps, others, hsteps, hothers, hamid⟩ := exists_yields_of_together h
  obtain ⟨read, _, ⟨_, _⟩, hread, hemission, rfl⟩ := Course.yields_bind_iff.1 hsteps
  obtain ⟨_, _, _, -, hdone, rfl⟩ := Course.yields_bind_iff.1 hemission
  obtain ⟨rfl, hfound⟩ := Course.yields_pure_iff.1 hdone
  cases hfound
  obtain ⟨_, _, _, hcompiled, hrendering, rfl⟩ := Course.yields_bind_iff.1 hread
  obtain ⟨_, _, _, hrendered, hdone, rfl⟩ := Course.yields_bind_iff.1 hrendering
  obtain ⟨rfl, hfound⟩ := Course.yields_pure_iff.1 hdone
  cases hfound
  obtain ⟨ready, compiling, hcompile, rfl⟩ := Course.yields_single_iff.1 hcompiled
  obtain ⟨waited, rendering, hrender, rfl⟩ := Course.yields_single_iff.1 hrendered
  have hschema := hamid.mono fun s t hstep => (whole choices).touches_of_schema hothers (s, t) hstep
  obtain ⟨hfirst, hsecond, -⟩ := hschema
  obtain ⟨library, -, rfl, -⟩ := runIn_compiled_eq_ok_iff.1 hcompile
  have htouched := (Touches.of_reflTransGen hfirst).trans
    ((touches_keep _).trans (Touches.of_reflTransGen hsecond))
  obtain ⟨library, -, -, hrender⟩ := runIn_rendered_eq_ok_iff.1 hrender
  rw [htouched.config] at hrender
  exact ⟨waited.tree, library, htouched.grounded hgrounded, htouched.spares.current, hrender⟩

end Division

end LayeredProfiles.Build
