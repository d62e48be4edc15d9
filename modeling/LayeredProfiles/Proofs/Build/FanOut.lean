import Mathlib.Data.List.Perm.Basic
import LayeredProfiles.Build.FanOut
import LayeredProfiles.Proofs.Steps

set_option autoImplicit false

/-!
# No key is lost

While tasks run, every key is at exactly one place: it waits, its task is in flight, or its task has
ended and left a result. A step moves one key from one place to the next, so after two steps for
each key all tasks have ended, in whatever order the choices let them end and whatever the limit.
With room for one task only there is nothing to choose, and the keys are worked on in their order.

## Main definitions

* `FanOut.Accounts` — where the keys are, with the results of those whose tasks have ended.
* `FanOut.remaining` — how many steps are left to take.

## Main results

* `FanOut.accounts_step`, `FanOut.remaining_step` — what a step preserves and what it uses up.
* `FanOut.all_eq_ok` — on success there is one result for every key.
* `FanOut.all_eq_error` — a failure is that of the task of one of the keys.
* `FanOut.all_congr` — what becomes of the keys depends on their tasks only.
* `FanOut.all_eq_mapM_of_one` — one task at a time.
* `FanOut.all_bounded` — what becomes of the keys, for any limit and any choices.
-/

namespace LayeredProfiles.FanOut

variable {κ α ε : Type} {task : κ → Except ε α} {keys : List κ}

/-- Every key waits, is in flight or is among those whose tasks have ended with the results so
far. -/
structure Accounts (task : κ → Except ε α) (keys ended : List κ) (s : FanOut κ α) : Prop where
  /-- Every key is at exactly one place. -/
  perm : (ended ++ (s.inFlight ++ s.waiting)).Perm keys
  /-- The results are those of the tasks that have ended. -/
  results : List.Forall₂ (fun key result => task key = .ok result) ended s.results

/-- How many steps are left to take: two for a key that waits and one for a task in flight. -/
def remaining (s : FanOut κ α) : Nat :=
  2 * s.waiting.length + s.inFlight.length

/-! ## Where the keys are -/

/-- At the start all keys wait. -/
lemma accounts_start (task : κ → Except ε α) (keys : List κ) :
    Accounts task keys [] (start keys) where
  perm := List.Perm.refl keys
  results := .nil

/-- Starting a task moves a key from those that wait to those in flight. -/
lemma accounts_spawn {ended : List κ} {s : FanOut κ α} (h : Accounts task keys ended s) :
    Accounts task keys ended s.spawn where
  perm := by
    have hmove : s.spawn.inFlight ++ s.spawn.waiting = s.inFlight ++ s.waiting := by
      simp only [spawn, List.append_assoc, List.take_append_drop]
    rw [hmove]
    exact h.perm
  results := h.results

/-- Ending a task moves its key from those in flight to those that have ended. -/
lemma accounts_end {ended : List κ} {s : FanOut κ α} {place : Nat} {key : κ} {result : α}
    (h : Accounts task keys ended s) (hkey : s.inFlight[place]? = some key)
    (hresult : task key = .ok result) :
    Accounts task keys (ended ++ [key]) { s with
      inFlight := s.inFlight.eraseIdx place, results := s.results ++ [result] } where
  perm := by
    obtain ⟨hplace, rfl⟩ := List.getElem?_eq_some_iff.1 hkey
    have htake := List.getElem_cons_eraseIdx_perm hplace
    have hmove := (htake.append_right s.waiting).append_left ended
    simpa only [List.append_assoc, List.cons_append, List.nil_append] using hmove.trans h.perm
  results := List.rel_append h.results (.cons hresult .nil)

/-- A step keeps every key accounted for. -/
lemma accounts_step {ended : List κ} {s t : FanOut κ α} {limit choice : Nat}
    (h : Accounts task keys ended s) (hstep : s.step limit task choice = .ok t) :
    ∃ ended', Accounts task keys ended' t := by
  rcases step_cases hstep with ⟨-, -, rfl⟩ | ⟨place, key, result, hkey, hresult, -, rfl⟩ |
    ⟨-, -, rfl⟩
  · exact ⟨ended, accounts_spawn h⟩
  · exact ⟨ended ++ [key], accounts_end h hkey hresult⟩
  · exact ⟨ended, h⟩

/-- What is in flight is one of the keys. -/
lemma Accounts.mem_keys {ended : List κ} {s : FanOut κ α} {key : κ}
    (h : Accounts task keys ended s) (hkey : key ∈ s.inFlight) : key ∈ keys :=
  h.perm.subset (List.mem_append_right _ (List.mem_append_left _ hkey))

/-! ## How far it is to the end -/

/-- Every step brings the end nearer by one. -/
lemma remaining_step {s t : FanOut κ α} {limit choice : Nat}
    (hstep : s.step limit task choice = .ok t) : t.remaining = s.remaining - 1 := by
  rcases step_cases hstep with ⟨hwaiting, -, rfl⟩ | ⟨place, key, result, hkey, -, -, rfl⟩ |
    ⟨hwaiting, hflight, rfl⟩
  · have hpos := List.length_pos_iff.2 hwaiting
    simp only [remaining, spawn, List.length_append, List.length_drop, List.length_take]
    omega
  · obtain ⟨hplace, -⟩ := List.getElem?_eq_some_iff.1 hkey
    simp only [remaining, List.length_eraseIdx_of_lt hplace]
    omega
  · simp [remaining, hwaiting, hflight]

/-- Taking steps keeps every key accounted for and brings the end nearer. -/
lemma accounts_run {limit steps : Nat} {choices : List Nat} {ended : List κ} {s t : FanOut κ α}
    (h : Accounts task keys ended s) (hrun : run limit task steps choices s = .ok t) :
    (∃ ended', Accounts task keys ended' t) ∧ t.remaining = s.remaining - steps := by
  induction steps generalizing choices ended s with
  | zero =>
    cases hrun
    exact ⟨⟨ended, h⟩, rfl⟩
  | succ steps ih =>
    obtain ⟨next, hstep, hrest⟩ := Steps.bind_eq_ok_iff.1 hrun
    obtain ⟨ended', hnext⟩ := accounts_step h hstep
    obtain ⟨haccounts, hremaining⟩ := ih hnext hrest
    have hone := remaining_step hstep
    exact ⟨haccounts, by omega⟩

/-- A run that fails does so because the task of a key fails. -/
lemma run_eq_error {limit steps : Nat} {choices : List Nat} {ended : List κ} {s : FanOut κ α}
    {failure : ε} (h : Accounts task keys ended s)
    (hrun : run limit task steps choices s = .error failure) :
    ∃ key ∈ keys, task key = .error failure := by
  induction steps generalizing choices ended s with
  | zero => cases hrun
  | succ steps ih =>
    rcases Steps.bind_eq_error_iff.1 hrun with hstep | ⟨next, hstep, hrest⟩
    · obtain ⟨key, hkey, hfails⟩ := step_eq_error hstep
      exact ⟨key, h.mem_keys hkey, hfails⟩
    · obtain ⟨ended', hnext⟩ := accounts_step h hstep
      exact ih hnext hrest

/-! ## All keys -/

/-- On success the tasks of all keys have ended, each once, and the results are theirs in the order
in which they ended. -/
lemma all_eq_ok {limit : Nat} {choices : List Nat} {results : List α}
    (h : all limit task choices keys = .ok results) :
    ∃ ended : List κ, ended.Perm keys ∧
      List.Forall₂ (fun key result => task key = .ok result) ended results := by
  obtain ⟨s, hrun, hresults⟩ := Steps.bind_eq_ok_iff.1 h
  obtain ⟨⟨ended, haccounts⟩, hremaining⟩ := accounts_run (accounts_start task keys) hrun
  have hstart : (start keys : FanOut κ α).remaining = 2 * keys.length := rfl
  have hend : 2 * s.waiting.length + s.inFlight.length = 0 := by
    rw [hstart, Nat.sub_self] at hremaining
    exact hremaining
  have hwaiting : s.waiting = [] := List.length_eq_zero_iff.1 (by omega)
  have hflight : s.inFlight = [] := List.length_eq_zero_iff.1 (by omega)
  refine ⟨ended, ?_, Except.ok.inj hresults ▸ haccounts.results⟩
  simpa only [hwaiting, hflight, List.append_nil] using haccounts.perm

/-- On success the task of every key has one of the results, and every result is that of a task. -/
lemma mem_of_all_eq_ok {limit : Nat} {choices : List Nat} {results : List α}
    (h : all limit task choices keys = .ok results) :
    (∀ key ∈ keys, ∃ result ∈ results, task key = .ok result) ∧
      ∀ result ∈ results, ∃ key ∈ keys, task key = .ok result := by
  obtain ⟨ended, hended, htasks⟩ := all_eq_ok h
  constructor
  · intro key hkey
    exact Steps.exists_value_of_mem htasks (hended.mem_iff.2 hkey)
  · intro result hresult
    obtain ⟨key, hkey, htask⟩ := Steps.exists_of_mem_values htasks hresult
    exact ⟨key, hended.mem_iff.1 hkey, htask⟩

/-- A failure is that of the task of one of the keys. -/
lemma all_eq_error {limit : Nat} {choices : List Nat} {failure : ε}
    (h : all limit task choices keys = .error failure) :
    ∃ key ∈ keys, task key = .error failure := by
  rcases Steps.bind_eq_error_iff.1 h with hrun | ⟨s, -, hok⟩
  · exact run_eq_error (accounts_start task keys) hrun
  · cases hok

/-! ## Other tasks -/

/-- A step depends on the tasks of the keys in flight only. -/
lemma step_congr {other : κ → Except ε α} {limit choice : Nat} {s : FanOut κ α}
    (h : ∀ key ∈ s.inFlight, other key = task key) :
    s.step limit other choice = s.step limit task choice := by
  unfold step
  split
  · rfl
  · unfold join
    dsimp only
    split
    · rfl
    · next key hkey => rw [h key (List.mem_of_getElem? hkey)]

/-- A run depends on the tasks of the keys only. -/
lemma run_congr {other : κ → Except ε α} {limit steps : Nat} {choices : List Nat} {ended : List κ}
    {s : FanOut κ α} (h : Accounts task keys ended s) (hsame : ∀ key ∈ keys, other key = task key) :
    run limit other steps choices s = run limit task steps choices s := by
  induction steps generalizing choices ended s with
  | zero => rfl
  | succ steps ih =>
    unfold run
    rw [step_congr fun key hkey => hsame key (h.mem_keys hkey)]
    cases hstep : s.step limit task (choices.headD 0) with
    | error failure => rfl
    | ok next =>
      obtain ⟨ended', hnext⟩ := accounts_step h hstep
      exact ih hnext

/-- What becomes of the keys depends on their tasks only. -/
lemma all_congr {other : κ → Except ε α} (limit : Nat) (choices : List Nat)
    (h : ∀ key ∈ keys, other key = task key) :
    all limit other choices keys = all limit task choices keys := by
  unfold all
  rw [run_congr (accounts_start task keys) h]

/-! ## The order of the keys -/

/-- The results are those of the tasks one after another, in some order. -/
lemma exists_perm_of_all_eq_ok {limit : Nat} {choices : List Nat} {results : List α}
    (h : all limit task choices keys = .ok results) :
    ∃ inOrder, keys.mapM task = .ok inOrder ∧ results.Perm inOrder := by
  obtain ⟨ended, hended, htasks⟩ := all_eq_ok h
  have hresult : ∀ key ∈ keys, ∃ result, task key = .ok result := by
    intro key hkey
    obtain ⟨result, -, htask⟩ := Steps.exists_value_of_mem htasks (hended.mem_iff.2 hkey)
    exact ⟨result, htask⟩
  obtain ⟨inOrder, horder⟩ := Steps.exists_values_iff.2 hresult
  refine ⟨inOrder, Steps.mapM_eq_ok_iff.2 horder, ?_⟩
  have hinjective : Function.Injective (Except.ok : α → Except ε α) := fun _ _ => Except.ok.inj
  rw [← List.map_perm_map_iff hinjective, ← Steps.map_eq_map_ok htasks,
    ← Steps.map_eq_map_ok horder]
  exact hended.map task

/-- With room for one task only, the task of a key starts and ends before the next one starts. -/
lemma map_results_run_one (waiting : List κ) (choices : List Nat) (results : List α) :
    (run 1 task (2 * waiting.length) choices ⟨waiting, [], results⟩).map FanOut.results =
      (waiting.mapM task).map (results ++ ·) := by
  induction waiting generalizing choices results with
  | nil => simp [run, pure, Except.pure, Except.map]
  | cons key rest ih =>
    have hspawn : step 1 task (choices.headD 0) ⟨key :: rest, [], results⟩ =
        .ok ⟨rest, [key], results⟩ := rfl
    have hjoin : step 1 task ((choices.drop 1).headD 0) ⟨rest, [key], results⟩ =
        (task key).map fun result => ⟨rest, [], results ++ [result]⟩ := by
      simp [step, join, Nat.mod_one]
    have hsteps : 2 * (key :: rest).length = 2 * rest.length + 1 + 1 := rfl
    rw [hsteps, run, hspawn, List.mapM_cons]
    change (run 1 task (2 * rest.length + 1) (choices.drop 1) ⟨rest, [key], results⟩).map _ = _
    rw [run, hjoin]
    cases task key with
    | error failure => rfl
    | ok result =>
      refine (ih ((choices.drop 1).drop 1) (results ++ [result])).trans ?_
      cases rest.mapM task <;> simp [Except.map, bind, Except.bind, pure, Except.pure]

/-- With room for one task only, all tasks are the tasks one after another. -/
lemma all_eq_mapM_of_one (choices : List Nat) : all 1 task choices keys = keys.mapM task := by
  have hall : all 1 task choices keys =
      (run 1 task (2 * keys.length) choices (start keys)).map FanOut.results := by
    unfold all
    cases run 1 task (2 * keys.length) choices (start keys) <;> rfl
  rw [hall, start, map_results_run_one]
  cases keys.mapM task <;> rfl

/-- **What becomes of the keys.** Take any keys, any tasks, any limit but zero and any choices of the
task that ends next. At no time are more tasks in flight than the limit allows. There are results
exactly if all tasks have one. Then there is one for every key: they are the results of running the
tasks one after another, in some order. If there are no results, the failure is that of the task of
one of the keys. And with room for one task only it is all as if the tasks were run one after
another, up to the first one that fails.

**Proof sketch.** A step starts a task only if there is room (`inFlight_step`), and moves one key at
a time from those that wait to those in flight and to those that have ended (`accounts_step`). Each
step brings the end nearer (`remaining_step`), so at the end all keys are among the last ones. With
room for one task, two steps work on one key (`map_results_run_one`). -/
theorem all_bounded {limit : ℕ} (hlimit : 1 ≤ limit) (task : κ → Except ε α) (keys : List κ)
    (choices : List ℕ) :
    (∀ steps s, run limit task steps choices (start keys) = .ok s → s.inFlight.length ≤ limit) ∧
    ((∃ results, all limit task choices keys = .ok results) ↔
      ∀ key ∈ keys, ∃ result, task key = .ok result) ∧
    (∀ results, all limit task choices keys = .ok results →
      ∃ inOrder, keys.mapM task = .ok inOrder ∧ results.Perm inOrder) ∧
    (∀ failure, all limit task choices keys = .error failure →
      ∃ key ∈ keys, task key = .error failure) ∧
    (limit = 1 → all limit task choices keys = keys.mapM task) := by
  refine ⟨fun steps s hrun => ?_, ⟨?_, fun hall => ?_⟩, fun _ => exists_perm_of_all_eq_ok,
    fun _ => all_eq_error, ?_⟩
  · have hstart : (start keys : FanOut κ α).inFlight.length ≤ limit := Nat.zero_le limit
    exact inFlight_le hlimit task steps choices hstart hrun
  · rintro ⟨results, h⟩ key hkey
    obtain ⟨result, -, htask⟩ := (mem_of_all_eq_ok h).1 key hkey
    exact ⟨result, htask⟩
  · cases h : all limit task choices keys with
    | ok results => exact ⟨results, rfl⟩
    | error failure =>
      obtain ⟨key, hkey, hfails⟩ := all_eq_error h
      obtain ⟨result, htask⟩ := hall key hkey
      rw [hfails] at htask
      cases htask
  · rintro rfl
    exact all_eq_mapM_of_one choices

/-- A task that fails for zero. -/
def sampleTask (key : ℕ) : Except String ℕ :=
  if key = 0 then .error "zero" else .ok (12 / key)

/-- With two tasks at a time the second one may end first. With one at a time the keys are worked on
in their order, up to the one that fails. -/
theorem all_bounded_sampleTask :
    all 2 sampleTask [0, 0, 1, 0] [1, 2, 3] = .ok [6, 12, 4] ∧
      (∃ inOrder, [1, 2, 3].mapM sampleTask = .ok inOrder ∧ [6, 12, 4].Perm inOrder) ∧
      all 1 sampleTask [1, 1] [2, 0, 3] = [2, 0, 3].mapM sampleTask ∧
      [2, 0, 3].mapM sampleTask = .error "zero" := by
  obtain ⟨-, -, hperm, -⟩ :=
    all_bounded (show 1 ≤ 2 by decide) sampleTask [1, 2, 3] [0, 0, 1, 0]
  obtain ⟨-, -, -, -, hone⟩ := all_bounded (Nat.le_refl 1) sampleTask [2, 0, 3] [1, 1]
  exact ⟨by decide, hperm _ (by decide), hone rfl, by decide⟩

end LayeredProfiles.FanOut
