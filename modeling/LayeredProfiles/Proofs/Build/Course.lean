import Mathlib.Logic.Relation
import LayeredProfiles.Build.Course
import LayeredProfiles.Proofs.Build.Session

set_option autoImplicit false

/-!
# Interleaved courses

Where two courses that are carried out at the same time both succeed, each has taken its own steps in
its own order, with any number of steps of the other one in between. So what one course does can be
told from its own steps, as long as it is known what the steps of the other one can change.

## Main definitions

* `Build.Course.Yields` — the steps that a course takes where it yields a value.
* `Build.Course.Within` — a course whose steps are all in a relation.
* `Build.Amid` — steps that are taken in this order, with others in between.

## Main results

* `Build.Course.task_bind` — one course and then another one, without interruption.
* `Build.Course.yields_bind_iff` — the steps of one course and then another one.
* `Build.amid_append_iff` — some steps and then others.
* `Build.exists_yields_of_together` — two courses that are carried out at the same time and succeed.
* `Build.exists_turns_second_first` — turns that carry out the second course before the first one.
-/

namespace LayeredProfiles.Build

open Relation

variable {α β : Type}

namespace Course

/-- The steps that a course takes where it yields a value, each with the session before it and the one
after it. -/
inductive Yields {α : Type} : Course α → List (Session × Session) → α → Prop
  /-- Nothing is left to do. -/
  | done (value : α) : Yields (.done value) [] value
  /-- A step that succeeds, and those that follow. -/
  | step {β : Type} {task : Task β} {next : β → Course α} {found : β} {before after : Session}
      {rest : List (Session × Session)} {value : α}
      (taken : task.runIn before = (.ok found, after)) (follow : Yields (next found) rest value) :
      Yields (.step task next) ((before, after) :: rest) value

/-- All steps that a course takes where it yields a value are in a relation. -/
def Within (course : Course α) (r : Session → Session → Prop) : Prop :=
  ∀ steps value, course.Yields steps value → ∀ step ∈ steps, r step.1 step.2

variable {course : Course α} {f : α → Course β} {steps : List (Session × Session)}
  {r : Session → Session → Prop}

/-- One course and then another one, without interruption. -/
lemma task_bind (course : Course α) (f : α → Course β) :
    (course >>= f).task = (do (f (← course.task)).task) := by
  induction course with
  | done value =>
    change (f value).task = pure value >>= fun found => (f found).task
    rw [pure_bind]
  | step task next ih =>
    calc (Course.step task next >>= f).task
        = task >>= fun found => (next found >>= f).task := rfl
      _ = task >>= fun found => (next found).task >>= fun value => (f value).task := by simp only [ih]
      _ = _ := (bind_assoc _ _ _).symm

/-- A single step, without interruption. -/
lemma task_single (task : Task α) : (single task).task = task := by
  change task >>= pure = task
  exact bind_pure task

/-- What there is to do where there is nothing to do. -/
lemma task_pure (value : α) : (pure value : Course α).task = pure value :=
  rfl

/-- A course that has nothing to do takes no step. -/
lemma yields_pure_iff {value found : α} :
    (pure value : Course α).Yields steps found ↔ steps = [] ∧ found = value := by
  constructor
  · rintro ⟨⟩
    exact ⟨rfl, rfl⟩
  · rintro ⟨rfl, rfl⟩
    exact .done _

/-- A single step. -/
lemma yields_single_iff {task : Task α} {value : α} :
    (single task).Yields steps value ↔
      ∃ before after, task.runIn before = (.ok value, after) ∧ steps = [(before, after)] := by
  constructor
  · intro h
    cases h with
    | step taken follow =>
      cases follow
      exact ⟨_, _, taken, rfl⟩
  · rintro ⟨before, after, taken, rfl⟩
    exact .step taken (.done value)

/-- The steps of one course and then another one are those of the first one and then those of the
second one. -/
lemma yields_bind_iff {value : β} :
    (course >>= f).Yields steps value ↔
      ∃ first rest found, course.Yields first found ∧ (f found).Yields rest value ∧
        steps = first ++ rest := by
  induction course generalizing steps with
  | done found =>
    constructor
    · exact fun h => ⟨[], steps, found, .done found, h, rfl⟩
    · rintro ⟨_, rest, _, ⟨⟩, h, rfl⟩
      exact h
  | step task next ih =>
    constructor
    · intro h
      cases h with
      | step taken follow =>
        obtain ⟨first, rest, found, hfirst, hrest, rfl⟩ := (ih _).1 follow
        exact ⟨_, rest, found, .step taken hfirst, hrest, rfl⟩
    · rintro ⟨first, rest, found, hfirst, hrest, rfl⟩
      cases hfirst with
      | step taken follow => exact .step taken ((ih _).2 ⟨_, rest, found, follow, hrest, rfl⟩)

/-- A course that has nothing to do takes no step out of a relation. -/
lemma within_pure (value : α) : (pure value : Course α).Within r := by
  intro steps found h step hstep
  obtain ⟨rfl, -⟩ := yields_pure_iff.1 h
  cases hstep

/-- A single step that is in a relation where it succeeds. -/
lemma within_single {task : Task α}
    (h : ∀ before value after, task.runIn before = (.ok value, after) → r before after) :
    (single task).Within r := by
  intro steps value hsteps step hstep
  obtain ⟨before, after, htask, rfl⟩ := yields_single_iff.1 hsteps
  obtain rfl := List.mem_singleton.1 hstep
  exact h before value after htask

/-- The steps of one course and then another one are in a relation if those of both are. -/
lemma Within.bind (h : course.Within r) (hnext : ∀ value, (f value).Within r) :
    (course >>= f).Within r := by
  intro steps value hsteps
  obtain ⟨first, rest, found, hfirst, hrest, rfl⟩ := yields_bind_iff.1 hsteps
  exact List.forall_mem_append.2 ⟨h first found hfirst, hnext found rest value hrest⟩

/-- Steps in a relation are in a wider one. -/
lemma Within.mono {more : Session → Session → Prop} (h : course.Within r)
    (hmore : ∀ s t, r s t → more s t) : course.Within more :=
  fun steps value hsteps step hstep => hmore _ _ (h steps value hsteps step hstep)

end Course

/-- Some steps are taken in their order, from one session to another, with any number of others in
between, before them and after them. -/
def Amid (others : Session → Session → Prop) :
    List (Session × Session) → Session → Session → Prop
  | [], first, last => ReflTransGen others first last
  | (before, after) :: rest, first, last =>
    ReflTransGen others first before ∧ Amid others rest after last

variable {others more : Session → Session → Prop} {steps rest : List (Session × Session)}
  {session between last : Session}

/-- Others may come first. -/
lemma Amid.head (h : Amid others steps between last) (hothers : ReflTransGen others session between) :
    Amid others steps session last := by
  cases steps with
  | nil => exact hothers.trans h
  | cons step rest => exact ⟨hothers.trans h.1, h.2⟩

/-- Others may come last. -/
lemma Amid.tail (h : Amid others steps session between) (hothers : ReflTransGen others between last) :
    Amid others steps session last := by
  induction steps generalizing session with
  | nil => exact ReflTransGen.trans h hothers
  | cons step rest ih => exact ⟨h.1, ih h.2⟩

/-- More steps may come in between. -/
lemma Amid.mono (h : Amid others steps session last) (hmore : ∀ s t, others s t → more s t) :
    Amid more steps session last := by
  induction steps generalizing session with
  | nil => exact ReflTransGen.mono hmore _ _ h
  | cons step rest ih => exact ⟨ReflTransGen.mono hmore _ _ h.1, ih h.2⟩

/-- Some steps are taken and then others if there is a session in between. -/
lemma amid_append_iff :
    Amid others (steps ++ rest) session last ↔
      ∃ between, Amid others steps session between ∧ Amid others rest between last := by
  induction steps generalizing session with
  | nil =>
    constructor
    · exact fun h => ⟨session, .refl, h⟩
    · rintro ⟨between, hfirst, hrest⟩
      exact hrest.head hfirst
  | cons step steps ih =>
    constructor
    · rintro ⟨hothers, h⟩
      obtain ⟨between, hsteps, hrest⟩ := ih.1 h
      exact ⟨between, ⟨hothers, hsteps⟩, hrest⟩
    · rintro ⟨between, ⟨hothers, hsteps⟩, hrest⟩
      exact ⟨hothers, ih.2 ⟨between, hsteps, hrest⟩⟩

/-- What is in a relation whenever a step is taken, be it one of some steps or another one, is in it
from the beginning to the end. -/
lemma Amid.reflTransGen (h : Amid others steps session last)
    (hothers : ∀ s t, others s t → more s t) (hsteps : ∀ step ∈ steps, more step.1 step.2) :
    ReflTransGen more session last := by
  induction steps generalizing session with
  | nil => exact ReflTransGen.mono hothers _ _ h
  | cons step rest ih =>
    obtain ⟨hstep, hrest⟩ := List.forall_mem_cons.1 hsteps
    exact (ReflTransGen.mono hothers _ _ h.1).trans (.head hstep (ih h.2 hrest))

/-- A course that is carried out without interruption takes its steps one right after the other. -/
lemma Course.exists_yields_of_task {course : Course α} {value : α}
    (h : course.task.runIn session = (.ok value, last)) :
    ∃ steps, course.Yields steps value ∧ Amid (fun _ _ => False) steps session last := by
  induction course generalizing session with
  | done found =>
    cases h
    exact ⟨[], .done value, .refl⟩
  | step task next ih =>
    obtain ⟨found, between, htask, hnext⟩ := runIn_bind_eq_ok_iff.1 h
    obtain ⟨steps, hsteps, hamid⟩ := ih found hnext
    exact ⟨_, .step htask hsteps, .refl, hamid⟩

/-- Two courses that are carried out one after the other. -/
lemma exists_yields_of_one_after_other {first : Course α} {second : Course β} {value : α} {other : β}
    (hfirst : first.task.runIn session = (.ok value, between))
    (hsecond : second.task.runIn between = (.ok other, last)) :
    ∃ steps more, first.Yields steps value ∧ second.Yields more other ∧
      Amid (fun s t => (s, t) ∈ more) steps session last := by
  obtain ⟨steps, hsteps, hamid⟩ := Course.exists_yields_of_task hfirst
  obtain ⟨more, hmore, hlast⟩ := Course.exists_yields_of_task hsecond
  refine ⟨steps, more, hsteps, hmore, (hamid.mono fun _ _ => False.elim).tail ?_⟩
  exact hlast.reflTransGen (fun _ _ => False.elim) fun step hstep => hstep

/-- **Two courses that are carried out at the same time**, whoever's turn it is when, and that both
succeed, have each taken its own steps, and the first one has taken its steps amid those of the
second one.

**Proof sketch.** Induction on the turns: a step of the first course comes before its other ones, and
a step of the second course comes in between, before the next step of the first one. -/
theorem exists_yields_of_together {turns : List Bool} {first : Course α} {second : Course β}
    {value : α} {other : β}
    (h : (together turns first second).runIn session = (.ok (.ok value, .ok other), last)) :
    ∃ steps more, first.Yields steps value ∧ second.Yields more other ∧
      Amid (fun s t => (s, t) ∈ more) steps session last := by
  induction turns generalizing first second session with
  | nil =>
    obtain ⟨_, between, hfirst, h⟩ := runIn_bind_eq_ok_iff.1 h
    obtain ⟨_, final, hsecond, h⟩ := runIn_bind_eq_ok_iff.1 h
    rw [runIn_attempt] at hfirst hsecond
    cases h
    obtain ⟨hvalue, rfl⟩ := Prod.mk.inj hfirst
    obtain ⟨hother, rfl⟩ := Prod.mk.inj hsecond
    exact exists_yields_of_one_after_other (run_of_fst_eq_ok (Except.ok.inj hvalue))
      (run_of_fst_eq_ok (Except.ok.inj hother))
  | cons turn turns ih =>
    cases turn with
    | true =>
      cases first with
      | done found => exact ih h
      | step task next =>
        obtain ⟨outcome, between, hstep, h⟩ := runIn_bind_eq_ok_iff.1 h
        rw [runIn_attempt] at hstep
        obtain ⟨houtcome, rfl⟩ := Prod.mk.inj hstep
        obtain rfl := Except.ok.inj houtcome
        split at h
        · next found hfound =>
          obtain ⟨steps, more, hsteps, hmore, hamid⟩ := ih h
          exact ⟨_, more, .step (run_of_fst_eq_ok hfound) hsteps, hmore, .refl, hamid⟩
        · obtain ⟨_, _, -, h⟩ := runIn_bind_eq_ok_iff.1 h
          cases h
    | false =>
      cases second with
      | done found => exact ih h
      | step task next =>
        obtain ⟨outcome, between, hstep, h⟩ := runIn_bind_eq_ok_iff.1 h
        rw [runIn_attempt] at hstep
        obtain ⟨houtcome, rfl⟩ := Prod.mk.inj hstep
        obtain rfl := Except.ok.inj houtcome
        split at h
        · next found hfound =>
          obtain ⟨steps, more, hsteps, hmore, hamid⟩ := ih h
          refine ⟨steps, _, hsteps, .step (run_of_fst_eq_ok hfound) hmore, ?_⟩
          exact (hamid.mono fun _ _ => List.mem_cons_of_mem _).head
            (.single List.mem_cons_self)
        · obtain ⟨_, _, -, h⟩ := runIn_bind_eq_ok_iff.1 h
          cases h

/-- There are turns that carry out the second course to its end before the first one takes a step. -/
lemma exists_turns_second_first (first : Course α) (second : Course β) (session : Session) :
    ∃ turns, (together turns first second).runIn session =
      (do
        let other ← attempt second.task
        let outcome ← attempt first.task
        pure (outcome, other) : Task _).runIn session := by
  induction second generalizing session with
  | done value => exact ⟨[], rfl⟩
  | step task next ih =>
    rcases hstep : task.runIn session with ⟨failure | found, between⟩
    · refine ⟨[false], ?_⟩
      have hsecond : (Course.step task next).task.runIn session = (.error failure, between) :=
        runIn_bind_eq_error_iff.2 (.inl hstep)
      simp only [together, runIn_attempt_bind, hstep, hsecond]
    · obtain ⟨turns, hturns⟩ := ih found between
      refine ⟨false :: turns, ?_⟩
      have hsecond : (Course.step task next).task.runIn session =
          (next found).task.runIn between := by
        rw [Course.task, runIn_bind, hstep]
      rw [together, runIn_attempt_bind, hstep]
      dsimp only
      rw [hturns]
      simp only [runIn_attempt_bind, hsecond]

end LayeredProfiles.Build
