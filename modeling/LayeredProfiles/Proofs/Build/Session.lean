import Mathlib.Tactic.Lemma
import LayeredProfiles.Build.Session

set_option autoImplicit false

/-!
# What the tasks of a session do

A task of a session yields a value or a failure, together with the session that it leaves. The
equations of this file say what that is for the single steps.

## Main definitions

* `Session.library?` — the parameter library of a session.
* `Session.keep` — a session that keeps a library.

## Main results

* `Build.runIn_bind`, `Build.runIn_find`, `Build.runIn_library` — running single steps.
* `Build.runIn_compiled`, `Build.runIn_rendered` — compiling all fragments and rendering the
  outputs.
* `Build.runIn_onFiles`, `Build.runIn_syncSchema` — changing files.
* `Build.runIn_outputsHalf_eq_ok_iff`, `Build.runIn_outputsHalf_eq_error_iff` — when the first half of
  a build succeeds, and when it fails.
-/

namespace LayeredProfiles

/-- The parameter library of a session: the one it keeps, or else the one that can be loaded. -/
def Session.library? (session : Session) : Except Failure ParameterLibrary :=
  match session.library with
  | some library => .ok library
  | none => Build.loadLibrary session.config session.tree

/-- The session with a parameter library that it keeps. -/
def Session.keep (session : Session) (library : ParameterLibrary) : Session :=
  { session with library := some library }

namespace Build

variable {α β : Type}

/-- A run that yields a value is that value, together with what the run leaves. -/
lemma run_of_fst_eq_ok {run : Except Failure α × β} {value : α} (h : run.1 = .ok value) :
    run = (.ok value, run.2) :=
  Prod.ext h rfl

/-- A task runs in the session that the one before it leaves. -/
lemma runIn_bind (task : Task α) (next : α → Task β) (session : Session) :
    (task >>= next).runIn session =
      match task.runIn session with
      | (.ok value, after) => (next value).runIn after
      | (.error failure, after) => (.error failure, after) := by
  unfold Task.runIn
  rw [ExceptT.run_bind, StateT.run_bind]
  rcases task.run.run session with ⟨_ | _, _⟩ <;> rfl

/-- Finding something out leaves the session as it is. -/
lemma runIn_find (f : BuildConfig → FileTree → Except Failure α) (session : Session) :
    (find f).runIn session = (f session.config session.tree, session) := by
  have hget : (get : Task Session).runIn session = (.ok session, session) := rfl
  rw [find, runIn_bind, hget]
  dsimp only
  cases f session.config session.tree <;> rfl

/-- The library is kept once it is there. -/
lemma runIn_library (session : Session) :
    library.runIn session =
      match session.library? with
      | .ok library => (.ok library, session.keep library)
      | .error failure => (.error failure, session) := by
  obtain ⟨config, kept, tree⟩ := session
  unfold library
  rw [runIn_bind]
  cases kept with
  | some library => rfl
  | none =>
    change Task.runIn (do
      let library ← find loadLibrary
      modify fun session => { session with library := some library }
      pure library) _ = _
    rw [runIn_bind, runIn_find]
    simp only [Session.library?]
    cases loadLibrary config tree <;> rfl

/-- Compiling all fragments needs the library, and changes nothing but that it is kept. -/
lemma runIn_compiled (choices : List Nat) (session : Session) :
    (compiled choices).runIn session =
      match session.library? with
      | .ok library =>
        (compile session.config choices session.tree library, session.keep library)
      | .error failure => (.error failure, session) := by
  unfold compiled
  rw [runIn_bind, runIn_library]
  cases session.library? with
  | error failure => rfl
  | ok library => exact runIn_find _ (session.keep library)

/-- Rendering needs the library, and changes nothing but that it is kept. -/
lemma runIn_rendered (artifact : Artifact) (session : Session) :
    (rendered artifact).runIn session =
      match session.library? with
      | .ok library =>
        (render session.config session.tree library artifact, session.keep library)
      | .error failure => (.error failure, session) := by
  unfold rendered
  rw [runIn_bind, runIn_library]
  cases session.library? with
  | error failure => rfl
  | ok library => exact runIn_find _ (session.keep library)

/-! ## Steps that write -/

/-- A step that is not taken leaves the session as it is. -/
lemma runIn_pure (value : α) (session : Session) :
    (pure value : Task α).runIn session = (.ok value, session) :=
  rfl

/-- An operation on the files changes only these. -/
lemma runIn_onFiles (operation : FileOperation Failure α) (session : Session) :
    (onFiles operation).runIn session =
      ((operation.runOn session.tree).1,
        { session with tree := (operation.runOn session.tree).2 }) := by
  have hget : (get : Task Session).runIn session = (.ok session, session) := rfl
  rw [onFiles, runIn_bind, hget]
  dsimp only
  rcases operation.runOn session.tree with ⟨_ | _, _⟩ <;> rfl

/-- Bringing the schema in line needs the library. -/
lemma runIn_syncSchema (session : Session) :
    syncSchema.runIn session =
      match session.library? with
      | .ok library =>
        (onFiles (session.config.schemaFile.sync library)).runIn (session.keep library)
      | .error failure => (.error failure, session) := by
  unfold syncSchema
  rw [runIn_bind, runIn_library]
  cases session.library? with
  | error failure => rfl
  | ok library =>
    have hget : (get : Task Session).runIn (session.keep library) =
        (.ok (session.keep library), session.keep library) := rfl
    dsimp only
    rw [runIn_bind, hget]
    rfl

/-- A task that is attempted always ends with what became of it. -/
lemma runIn_attempt (task : Task α) (session : Session) :
    (attempt task).runIn session = (.ok (task.runIn session).1, (task.runIn session).2) :=
  rfl

/-- What comes after an attempt goes on from what became of it. -/
lemma runIn_attempt_bind (task : Task α) (next : Except Failure α → Task β) (session : Session) :
    (attempt task >>= next).runIn session =
      (next (task.runIn session).1).runIn (task.runIn session).2 :=
  rfl

/-! ## Tasks that succeed or fail -/

/-- One task after another succeeds if both do. -/
lemma runIn_bind_eq_ok_iff {task : Task α} {next : α → Task β} {session after : Session}
    {value : β} :
    (task >>= next).runIn session = (.ok value, after) ↔
      ∃ found between, task.runIn session = (.ok found, between) ∧
        (next found).runIn between = (.ok value, after) := by
  rw [runIn_bind]
  rcases task.runIn session with ⟨failure | found, between⟩
  · simp
  · constructor
    · exact fun h => ⟨found, between, rfl, h⟩
    · rintro ⟨_, _, ⟨⟩, h⟩
      exact h

/-- One task after another fails if the first one does, or if the second one does in the session
that the first one leaves. -/
lemma runIn_bind_eq_error_iff {task : Task α} {next : α → Task β} {session after : Session}
    {failure : Failure} :
    (task >>= next).runIn session = (.error failure, after) ↔
      task.runIn session = (.error failure, after) ∨
        ∃ found between, task.runIn session = (.ok found, between) ∧
          (next found).runIn between = (.error failure, after) := by
  rw [runIn_bind]
  rcases task.runIn session with ⟨reason | found, between⟩
  · simp
  · simp [eq_comm, and_assoc]

/-- Compiling all fragments succeeds if the library is there and the fragments compile. -/
lemma runIn_compiled_eq_ok_iff {choices : List Nat} {session after : Session} {artifact : Artifact} :
    (compiled choices).runIn session = (.ok artifact, after) ↔
      ∃ library, session.library? = .ok library ∧ after = session.keep library ∧
        compile session.config choices session.tree library = .ok artifact := by
  rw [runIn_compiled]
  cases session.library? with
  | error failure => simp
  | ok library => simp [and_comm, eq_comm]

/-- Rendering succeeds if the library is there and the outputs can be rendered. -/
lemma runIn_rendered_eq_ok_iff {artifact : Artifact} {session after : Session} {outputs : Outputs} :
    (rendered artifact).runIn session = (.ok outputs, after) ↔
      ∃ library, session.library? = .ok library ∧ after = session.keep library ∧
        render session.config session.tree library artifact = .ok outputs := by
  rw [runIn_rendered]
  cases session.library? with
  | error failure => simp
  | ok library => simp [and_comm, eq_comm]

/-- An operation on the files succeeds in a session if it does on the tree. -/
lemma runIn_onFiles_eq_ok_iff {operation : FileOperation Failure α} {session after : Session}
    {value : α} :
    (onFiles operation).runIn session = (.ok value, after) ↔
      ∃ tree, operation.runOn session.tree = (.ok value, tree) ∧
        after = { session with tree := tree } := by
  rw [runIn_onFiles]
  rcases operation.runOn session.tree with ⟨failure | found, tree⟩
  · simp
  · simp [and_assoc, eq_comm]

/-- An operation on the files fails in a session if it does on the tree. -/
lemma runIn_onFiles_eq_error_iff {operation : FileOperation Failure α} {session after : Session}
    {failure : Failure} :
    (onFiles operation).runIn session = (.error failure, after) ↔
      ∃ tree, operation.runOn session.tree = (.error failure, tree) ∧
        after = { session with tree := tree } := by
  rw [runIn_onFiles]
  rcases operation.runOn session.tree with ⟨reason | found, tree⟩
  · simp [and_assoc, eq_comm]
  · simp

/-- Bringing the schema in line succeeds if the library is there and the file can be brought in
line. -/
lemma runIn_syncSchema_eq_ok_iff {session after : Session} {updated : Bool} :
    syncSchema.runIn session = (.ok updated, after) ↔
      ∃ library tree, session.library? = .ok library ∧
        (session.config.schemaFile.sync library).runOn session.tree = (.ok updated, tree) ∧
        after = { session.keep library with tree := tree } := by
  rw [runIn_syncSchema]
  cases session.library? with
  | error failure => simp
  | ok library =>
    dsimp only
    rw [runIn_onFiles_eq_ok_iff]
    simp [Session.keep]

/-- The first half of a build succeeds if the outputs can be rendered and written. -/
lemma runIn_outputsHalf_eq_ok_iff {choices : List Nat} {session after : Session}
    {artifact : Artifact} {written : List Path} :
    (outputsHalf choices).runIn session = (.ok (artifact, written), after) ↔
      ∃ outputs between, (compiled choices).runIn session = (.ok artifact, between) ∧
        ∃ rendering, (rendered artifact).runIn between = (.ok outputs, rendering) ∧
          (emitted outputs).runIn rendering = (.ok written, after) := by
  unfold outputsHalf
  simp only [runIn_bind_eq_ok_iff, runIn_pure, Prod.mk.injEq, Except.ok.injEq]
  constructor
  · rintro ⟨_, between, hcompiled, outputs, rendering, hrendered, _, _, hemitted, ⟨rfl, rfl⟩, rfl⟩
    exact ⟨outputs, between, hcompiled, rendering, hrendered, hemitted⟩
  · rintro ⟨outputs, between, hcompiled, rendering, hrendered, hemitted⟩
    exact ⟨artifact, between, hcompiled, outputs, rendering, hrendered, written, after, hemitted,
      ⟨rfl, rfl⟩, rfl⟩

/-- The first half of a build fails if the outputs cannot be rendered, or if they cannot be
written. -/
lemma runIn_outputsHalf_eq_error_iff {choices : List Nat} {session after : Session}
    {failure : Failure} :
    (outputsHalf choices).runIn session = (.error failure, after) ↔
      (compiled choices >>= rendered).runIn session = (.error failure, after) ∨
        ∃ outputs between, (compiled choices >>= rendered).runIn session = (.ok outputs, between) ∧
          (emitted outputs).runIn between = (.error failure, after) := by
  unfold outputsHalf
  simp only [runIn_bind_eq_error_iff, runIn_bind_eq_ok_iff, runIn_pure, Prod.mk.injEq, reduceCtorEq,
    false_and, and_false, exists_false, or_false]
  constructor
  · rintro (hcompiled | ⟨artifact, between, hcompiled, hrendered | ⟨outputs, rendering, hrendered, h⟩⟩)
    · exact .inl (.inl hcompiled)
    · exact .inl (.inr ⟨artifact, between, hcompiled, hrendered⟩)
    · exact .inr ⟨outputs, rendering, ⟨artifact, between, hcompiled, hrendered⟩, h⟩
  · rintro ((hcompiled | ⟨artifact, between, hcompiled, hrendered⟩) |
      ⟨outputs, rendering, ⟨artifact, between, hcompiled, hrendered⟩, h⟩)
    · exact .inl hcompiled
    · exact .inr ⟨artifact, between, hcompiled, .inl hrendered⟩
    · exact .inr ⟨artifact, between, hcompiled, .inr ⟨outputs, rendering, hrendered, h⟩⟩

/-- Rendering the outputs changes nothing but that the library is kept. -/
lemma unchanged_of_runIn_rendered {choices : List Nat} {session after : Session}
    {result : Except Failure Outputs}
    (h : (compiled choices >>= rendered).runIn session = (result, after)) :
    after.config = session.config ∧ after.tree = session.tree := by
  rw [runIn_bind, runIn_compiled] at h
  cases hlibrary : session.library? with
  | error failure =>
    rw [hlibrary] at h
    cases h
    exact ⟨rfl, rfl⟩
  | ok library =>
    rw [hlibrary] at h
    dsimp only at h
    cases hcompile : compile session.config choices session.tree library with
    | error failure =>
      rw [hcompile] at h
      cases h
      exact ⟨rfl, rfl⟩
    | ok artifact =>
      rw [hcompile] at h
      dsimp only at h
      have hkept : (session.keep library).library? = .ok library := rfl
      rw [runIn_rendered, hkept] at h
      cases h
      exact ⟨rfl, rfl⟩

/-- The second half of a build succeeds if the schema can be brought in line and all fragments pass
the check. -/
lemma runIn_schemaHalf_eq_ok_iff {choices : List Nat} {session after : Session} {updated : Bool} :
    (schemaHalf choices).runIn session = (.ok updated, after) ↔
      syncSchema.runIn session = (.ok updated, after) ∧
        ∃ count, validate after.config choices after.tree = .ok count := by
  unfold schemaHalf validated
  simp only [runIn_bind_eq_ok_iff, runIn_pure, runIn_find, Prod.mk.injEq, Except.ok.injEq]
  constructor
  · rintro ⟨_, _, hsync, count, _, ⟨hvalid, rfl⟩, rfl, rfl⟩
    exact ⟨hsync, count, hvalid⟩
  · rintro ⟨hsync, count, hvalid⟩
    exact ⟨updated, after, hsync, count, after, ⟨hvalid, rfl⟩, rfl, rfl⟩

/-- A whole build succeeds if both halves do. -/
lemma runIn_all_eq_ok_iff {choices : List Nat} {session after : Session} {summary : BuildSummary} :
    (all choices).runIn session = (.ok summary, after) ↔
      ∃ artifact written between updated,
        (outputsHalf choices).runIn session = (.ok (artifact, written), between) ∧
        (schemaHalf choices).runIn between = (.ok updated, after) ∧
        summary = ⟨artifact.cars.length, artifact.documented.length, updated, written⟩ := by
  unfold all
  rw [runIn_attempt_bind, runIn_attempt_bind]
  constructor
  · intro h
    rcases houtputs : (outputsHalf choices).runIn session with
      ⟨failure | ⟨artifact, written⟩, between⟩ <;> rw [houtputs] at h <;>
    rcases hschema : (schemaHalf choices).runIn between with ⟨reason | updated, last⟩ <;>
      rw [hschema] at h <;> cases h
    exact ⟨artifact, written, between, updated, rfl, hschema, rfl⟩
  · rintro ⟨artifact, written, between, updated, houtputs, hschema, rfl⟩
    rw [houtputs, hschema]
    rfl

/-- A whole build fails if the first half does, and it leaves what the second half leaves. -/
lemma runIn_all_of_outputsHalf_eq_error {choices : List Nat} {session between : Session}
    {failure : Failure} (h : (outputsHalf choices).runIn session = (.error failure, between)) :
    ∃ reason, (all choices).runIn session =
      (.error reason, ((schemaHalf choices).runIn between).2) := by
  unfold all
  rw [runIn_attempt_bind, runIn_attempt_bind, h]
  rcases (schemaHalf choices).runIn between with ⟨reason | updated, last⟩
  · exact ⟨reason, rfl⟩
  · exact ⟨failure, rfl⟩

/-- What a build would change can be found out if the outputs and the schema can be had. -/
lemma runIn_staleFiles {choices : List Nat} {session : Session} {library : ParameterLibrary}
    {artifact : Artifact} {outputs : Outputs} {stale : List Path} {current : Bool}
    (hlibrary : session.library? = .ok library)
    (hcompile : compile session.config choices session.tree library = .ok artifact)
    (hrender : render session.config session.tree library artifact = .ok outputs)
    (hstale : staleOutputs session.tree outputs.files = .ok stale)
    (hcurrent : session.config.schemaFile.isCurrent session.tree library = .ok current) :
    (staleFiles choices).runIn session =
      (.ok (if current then stale else stale ++ [session.config.schemaPath]),
        session.keep library) := by
  have hkept : (session.keep library).library? = .ok library := rfl
  have hcompiled : (compiled choices).runIn session = (.ok artifact, session.keep library) :=
    runIn_compiled_eq_ok_iff.2 ⟨library, hlibrary, rfl, hcompile⟩
  have hrendered : (rendered artifact).runIn (session.keep library) =
      (.ok outputs, session.keep library) :=
    runIn_rendered_eq_ok_iff.2 ⟨library, hkept, rfl, hrender⟩
  unfold staleFiles
  refine runIn_bind_eq_ok_iff.2 ⟨artifact, _, hcompiled, ?_⟩
  refine runIn_bind_eq_ok_iff.2 ⟨outputs, _, hrendered, ?_⟩
  refine runIn_bind_eq_ok_iff.2 ⟨stale, session.keep library, ?_, ?_⟩
  · rw [runIn_find]
    exact congrArg (·, session.keep library) hstale
  refine runIn_bind_eq_ok_iff.2 ⟨library, session.keep library, ?_, ?_⟩
  · rw [runIn_library, hkept]
    rfl
  refine runIn_bind_eq_ok_iff.2 ⟨current, session.keep library, ?_, ?_⟩
  · rw [runIn_find]
    exact congrArg (·, session.keep library) hcurrent
  · exact runIn_bind_eq_ok_iff.2 ⟨session.keep library, session.keep library, rfl, rfl⟩

end Build

end LayeredProfiles
