set_option autoImplicit false

/-!
# Working on several keys at once

A task runs for every key, and only so many at the same time: before another task starts, one of
those in flight has to end. Which one ends next is not up to the build, so a list of choices decides
it. The first task that fails puts an end to all others.

## Main definitions

* `FanOut` — the keys that wait, those in flight, and the results so far.
* `FanOut.step` — a task starts, or one in flight ends.
* `FanOut.run` — the results of all tasks, in the order in which the tasks end.

## Main results

* `FanOut.step_cases`, `FanOut.step_eq_error` — what a step can do.
* `FanOut.inFlight_le` — there are never more tasks in flight than allowed.
-/

namespace LayeredProfiles

/-- The state of working on several keys at once. -/
structure FanOut (κ α : Type) where
  /-- The keys whose tasks have not started. -/
  waiting : List κ
  /-- The keys whose tasks run. -/
  inFlight : List κ
  /-- The results of the tasks that have ended. -/
  results : List α

namespace FanOut

variable {κ α ε : Type}

/-- Nothing has started. -/
def start (keys : List κ) : FanOut κ α := ⟨keys, [], []⟩

/-- The task of the first waiting key starts. -/
def spawn (s : FanOut κ α) : FanOut κ α :=
  { s with waiting := s.waiting.drop 1, inFlight := s.inFlight ++ s.waiting.take 1 }

/-- One of the tasks in flight ends, if there is one. -/
def join (task : κ → Except ε α) (choice : Nat) (s : FanOut κ α) : Except ε (FanOut κ α) :=
  let place := choice % s.inFlight.length
  match s.inFlight[place]? with
  | none => .ok s
  | some key =>
    (task key).map fun result =>
      { s with inFlight := s.inFlight.eraseIdx place, results := s.results ++ [result] }

/-- A task starts if one is waiting and there is room for it, and else one in flight ends. With
nothing in flight there is always room. -/
def step (limit : Nat) (task : κ → Except ε α) (choice : Nat) (s : FanOut κ α) :
    Except ε (FanOut κ α) :=
  if !s.waiting.isEmpty && (s.inFlight.isEmpty || s.inFlight.length < limit) then .ok s.spawn
  else s.join task choice

/-- Takes so many steps. -/
def run (limit : Nat) (task : κ → Except ε α) :
    (steps : Nat) → (choices : List Nat) → FanOut κ α → Except ε (FanOut κ α)
  | 0, _, s => .ok s
  | steps + 1, choices, s => do
    run limit task steps (choices.drop 1) (← s.step limit task (choices.headD 0))

/-- The results of all tasks, in the order in which they end. A task takes two steps: it starts and
it ends. -/
def all (limit : Nat) (task : κ → Except ε α) (choices : List Nat) (keys : List κ) :
    Except ε (List α) := do
  let s ← run limit task (2 * keys.length) choices (start keys)
  .ok s.results

/-- What a step can do: a task starts because one waits and there is room, or one in flight ends with a
result because none waits or there is no room, or there is nothing left to do. -/
theorem step_cases {limit : Nat} {task : κ → Except ε α} {choice : Nat} {s t : FanOut κ α}
    (h : s.step limit task choice = .ok t) :
    (s.waiting ≠ [] ∧ (s.inFlight = [] ∨ s.inFlight.length < limit) ∧ t = s.spawn) ∨
      (∃ place key result, s.inFlight[place]? = some key ∧ task key = .ok result ∧
        (s.waiting = [] ∨ limit ≤ s.inFlight.length) ∧
        t = { s with
          inFlight := s.inFlight.eraseIdx place, results := s.results ++ [result] }) ∨
      (s.waiting = [] ∧ s.inFlight = [] ∧ t = s) := by
  unfold step at h
  split at h
  · next hroom =>
    refine .inl ⟨?_, ?_, (Except.ok.inj h).symm⟩
    · intro hnone
      simp [hnone] at hroom
    · simp only [Bool.and_eq_true, Bool.or_eq_true, List.isEmpty_iff, decide_eq_true_eq] at hroom
      exact hroom.2
  · next hfull =>
    have hwaits : s.waiting = [] ∨ (s.inFlight ≠ [] ∧ limit ≤ s.inFlight.length) := by
      simpa [Decidable.or_iff_not_imp_left] using hfull
    simp only [join] at h
    split at h
    · next hplace =>
      have hflight : s.inFlight = [] := by
        cases hs : s.inFlight with
        | nil => rfl
        | cons first rest =>
          have hlt := Nat.mod_lt choice (show 0 < s.inFlight.length by simp [hs])
          rw [List.getElem?_eq_getElem hlt] at hplace
          cases hplace
      refine .inr (.inr ⟨?_, hflight, (Except.ok.inj h).symm⟩)
      exact hwaits.resolve_right fun hsome => hsome.1 hflight
    · next key hkey =>
      cases hresult : task key with
      | error e =>
        rw [hresult] at h
        cases h
      | ok result =>
        rw [hresult] at h
        exact .inr (.inl ⟨_, key, result, hkey, hresult, hwaits.imp id And.right,
          (Except.ok.inj h).symm⟩)

/-- A step fails only if the task of a key in flight does. -/
theorem step_eq_error {limit : Nat} {task : κ → Except ε α} {choice : Nat} {s : FanOut κ α}
    {failure : ε} (h : s.step limit task choice = .error failure) :
    ∃ key ∈ s.inFlight, task key = .error failure := by
  unfold step at h
  split at h
  · cases h
  · simp only [join] at h
    split at h
    · cases h
    · next key hkey =>
      refine ⟨key, List.mem_of_getElem? hkey, ?_⟩
      cases hresult : task key with
      | error e =>
        rw [hresult] at h
        exact congrArg Except.error (Except.error.inj h)
      | ok result =>
        rw [hresult] at h
        cases h

/-- A step does not put more tasks in flight than allowed. -/
theorem inFlight_step {limit : Nat} (hl : 1 ≤ limit) {task : κ → Except ε α} {choice : Nat}
    {s t : FanOut κ α} (hs : s.inFlight.length ≤ limit) (h : s.step limit task choice = .ok t) :
    t.inFlight.length ≤ limit := by
  rcases step_cases h with ⟨-, hroom, rfl⟩ | ⟨place, key, result, -, -, -, rfl⟩ | ⟨-, -, rfl⟩
  · have htake : (s.waiting.take 1).length ≤ 1 := List.length_take_le 1 s.waiting
    simp only [spawn, List.length_append]
    rcases hroom with hnil | hlt
    · rw [hnil, List.length_nil]
      omega
    · omega
  · exact Nat.le_trans (List.length_eraseIdx_le _ _) hs
  · exact hs

/-- There are never more tasks in flight than allowed. -/
theorem inFlight_le {limit : Nat} (hl : 1 ≤ limit) (task : κ → Except ε α) (steps : Nat)
    (choices : List Nat) {s t : FanOut κ α} (hs : s.inFlight.length ≤ limit)
    (h : run limit task steps choices s = .ok t) : t.inFlight.length ≤ limit := by
  induction steps generalizing choices s with
  | zero => cases h; exact hs
  | succ steps ih =>
    unfold run at h
    cases hstep : s.step limit task (choices.headD 0) with
    | error e => rw [hstep] at h; cases h
    | ok next =>
      rw [hstep] at h
      exact ih _ (inFlight_step hl hs hstep) h

end FanOut

end LayeredProfiles
