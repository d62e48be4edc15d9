import LayeredProfiles.Build.Session

set_option autoImplicit false

/-!
# Courses of two tasks at the same time

The two halves of a build run at the same time. Each is divided into steps, and between two steps of
one half the other one may take any number of its own. Which half takes the next step is not up to the
program, so it is given from outside, turn by turn.

## Main definitions

* `Build.Course` — a task that is divided into steps.
* `Build.Course.task` — a course that is carried out to its end without interruption.
* `Build.together` — two courses at the same time, each to its end.

## Implementation notes

A turn of a course that has come to its end, or has failed, changes nothing. After the last turn the
first course is carried out to its end, and then the second one; so every way in which the steps can
follow each other is given by some list of turns.
-/

namespace LayeredProfiles.Build

/-- A task that is divided into steps. -/
inductive Course (α : Type) : Type 1 where
  /-- There is nothing more to do. -/
  | done (value : α)
  /-- A step, and what is to be done next, given what the step yields. -/
  | step {β : Type} (task : Task β) (next : β → Course α)

namespace Course

/-- One course and then another one, given what the first one yields. -/
def bind {α β : Type} : Course α → (α → Course β) → Course β
  | .done value, f => f value
  | .step task next, f => .step task fun found => (next found).bind f

instance : Monad Course where
  pure := .done
  bind := bind

/-- A task that is one step. -/
def single {α : Type} (task : Task α) : Course α :=
  .step task .done

/-- Carries out a course to its end without interruption. -/
def task {α : Type} : Course α → Task α
  | .done value => pure value
  | .step task next => do (next (← task)).task

end Course

/-- Carries out two courses at the same time, each to its end, and yields how they ended. A turn says
whether it is the first course that takes a step. -/
def together {α β : Type} : (turns : List Bool) → Course α → Course β →
    Task (Except Failure α × Except Failure β)
  | [], first, second => do
    let outcome ← attempt first.task
    let other ← attempt second.task
    pure (outcome, other)
  | true :: turns, .step task next, second => do
    match ← attempt task with
    | .ok found => together turns (next found) second
    | .error failure => do
      let other ← attempt second.task
      pure (.error failure, other)
  | false :: turns, first, .step task next => do
    match ← attempt task with
    | .ok found => together turns first (next found)
    | .error failure => do
      let outcome ← attempt first.task
      pure (outcome, .error failure)
  | _ :: turns, first, second => together turns first second

end LayeredProfiles.Build
