import Mathlib.Data.List.Forall2

set_option autoImplicit false

/-!
# Steps that may fail

A computation of steps that may fail yields a value exactly if every step does, and it fails with
the failure of the first step that fails. The lemmas of this file take such a computation apart.

## Main results

* `Steps.bind_eq_ok_iff`, `Steps.bind_eq_error_iff` — one step after another.
* `Steps.map_eq_ok_iff` — a step whose value is mapped.
* `Steps.mapM_eq_ok_iff`, `Steps.mapM_eq_error_iff`, `Steps.mapM_eq_some_iff` — the same step, or
  the same attempt, for every item of a list.
* `Steps.exists_of_mem_values`, `Steps.exists_value_of_mem`, `Steps.exists_values_iff`,
  `Steps.of_getElem?` — items and their values, one for each.
* `Steps.foldlM_eq_ok_iff` — steps that go on from one item to the next.
* `Steps.mapError_eq_ok_iff`, `Steps.mapError_eq_error_iff` — a step whose failures are reworded.
-/

namespace LayeredProfiles.Steps

variable {ε ε' α β : Type}

/-- A step and what follows it yield a value if both do. -/
lemma bind_eq_ok_iff {step : Except ε α} {next : α → Except ε β} {value : β} :
    step >>= next = .ok value ↔ ∃ a, step = .ok a ∧ next a = .ok value := by
  cases step with
  | error e => simp [bind, Except.bind]
  | ok a => simp [bind, Except.bind]

/-- A step and what follows it fail if the step fails or what follows does. -/
lemma bind_eq_error_iff {step : Except ε α} {next : α → Except ε β} {failure : ε} :
    step >>= next = .error failure ↔
      step = .error failure ∨ ∃ a, step = .ok a ∧ next a = .error failure := by
  cases step with
  | error e => simp [bind, Except.bind]
  | ok a => simp [bind, Except.bind]

/-- A step that maps the value of another one yields a value if that one does. -/
lemma map_eq_ok_iff {step : Except ε α} {f : α → β} {value : β} :
    step.map f = .ok value ↔ ∃ a, step = .ok a ∧ f a = value := by
  cases step <;> simp [Except.map]

/-- Rewording a failure does not touch a value. -/
lemma mapError_eq_ok_iff {step : Except ε α} {f : ε → ε'} {value : α} :
    step.mapError f = .ok value ↔ step = .ok value := by
  cases step <;> simp [Except.mapError]

/-- A reworded failure stems from a failure. -/
lemma mapError_eq_error_iff {step : Except ε α} {f : ε → ε'} {failure : ε'} :
    step.mapError f = .error failure ↔ ∃ e, step = .error e ∧ f e = failure := by
  cases step <;> simp [Except.mapError]

/-- The same step for every item of a list yields the values of the items, one for each. -/
lemma mapM_eq_ok_iff {step : α → Except ε β} {items : List α} {values : List β} :
    items.mapM step = .ok values ↔
      List.Forall₂ (fun item value => step item = .ok value) items values := by
  induction items generalizing values with
  | nil =>
    rw [List.mapM_nil, List.forall₂_nil_left_iff]
    exact ⟨fun h => (Except.ok.inj h).symm, fun h => h ▸ rfl⟩
  | cons item rest ih =>
    rw [List.mapM_cons, List.forall₂_cons_left_iff, bind_eq_ok_iff]
    constructor
    · rintro ⟨value, hvalue, hrest⟩
      obtain ⟨more, hmore, hpure⟩ := bind_eq_ok_iff.1 hrest
      exact ⟨value, more, hvalue, ih.1 hmore, (Except.ok.inj hpure).symm⟩
    · rintro ⟨value, more, hvalue, hmore, rfl⟩
      exact ⟨value, hvalue, bind_eq_ok_iff.2 ⟨more, ih.2 hmore, rfl⟩⟩

section Related

variable {R : α → β → Prop} {items : List α} {values : List β}

/-- Every value that the items of a list yield is yielded by one of them. -/
lemma exists_of_mem_values (h : List.Forall₂ R items values) {value : β}
    (hvalue : value ∈ values) : ∃ item ∈ items, R item value := by
  induction h with
  | nil => exact absurd hvalue List.not_mem_nil
  | cons hstep _ ih =>
    rcases List.mem_cons.1 hvalue with rfl | hrest
    · exact ⟨_, List.mem_cons_self, hstep⟩
    · obtain ⟨item, hitem, hyields⟩ := ih hrest
      exact ⟨item, List.mem_cons_of_mem _ hitem, hyields⟩

/-- Every item of a list yields one of the values. -/
lemma exists_value_of_mem (h : List.Forall₂ R items values) {item : α} (hitem : item ∈ items) :
    ∃ value ∈ values, R item value := by
  induction h with
  | nil => exact absurd hitem List.not_mem_nil
  | cons hstep _ ih =>
    rcases List.mem_cons.1 hitem with rfl | hrest
    · exact ⟨_, List.mem_cons_self, hstep⟩
    · obtain ⟨value, hvalue, hyields⟩ := ih hrest
      exact ⟨value, List.mem_cons_of_mem _ hvalue, hyields⟩

/-- The items of a list yield values if each of them yields one. -/
lemma exists_values_iff :
    (∃ values, List.Forall₂ R items values) ↔ ∀ item ∈ items, ∃ value, R item value := by
  refine ⟨fun ⟨values, hall⟩ item hitem => ?_, fun h => ?_⟩
  · obtain ⟨value, -, hyields⟩ := exists_value_of_mem hall hitem
    exact ⟨value, hyields⟩
  · induction items with
    | nil => exact ⟨[], .nil⟩
    | cons item rest ih =>
      obtain ⟨value, hvalue⟩ := h item List.mem_cons_self
      obtain ⟨values, hvalues⟩ := ih fun item hitem => h item (List.mem_cons_of_mem _ hitem)
      exact ⟨value :: values, .cons hvalue hvalues⟩

/-- The value at a place is yielded by the item at that place. -/
lemma of_getElem? (h : List.Forall₂ R items values) {i : ℕ} {item : α} {value : β}
    (hitem : items[i]? = some item) (hvalue : values[i]? = some value) : R item value := by
  induction h generalizing i with
  | nil => simp at hitem
  | cons hfirst _ ih =>
    cases i with
    | zero =>
      rw [List.getElem?_cons_zero, Option.some.injEq] at hitem hvalue
      exact hitem ▸ hvalue ▸ hfirst
    | succ i => exact ih hitem hvalue

end Related

/-- The values of items are what the steps for the items yield, one by one. -/
lemma map_eq_map_ok {step : α → Except ε β} {items : List α} {values : List β}
    (h : List.Forall₂ (fun item value => step item = .ok value) items values) :
    items.map step = values.map .ok := by
  have hmap : List.Forall₂ (· = ·) (items.map step) (values.map .ok) :=
    List.forall₂_map_left_iff.2 (List.forall₂_map_right_iff.2 h)
  rwa [List.forall₂_eq_eq_eq] at hmap

/-- The same step for every item of a list fails with the fault of the first item that has one. -/
lemma mapM_eq_error_iff {step : α → Except ε β} {fault : α → Option ε}
    (h : ∀ item failure, step item = .error failure ↔ fault item = some failure) {items : List α}
    {failure : ε} :
    items.mapM step = .error failure ↔ items.findSome? fault = some failure := by
  induction items with
  | nil => simp [pure, Except.pure]
  | cons item rest ih =>
    rw [List.mapM_cons, List.findSome?_cons]
    cases hitem : step item with
    | error found =>
      rw [(h item found).1 hitem]
      simp [bind, Except.bind]
    | ok value =>
      -- an item that yields a value has no fault
      have hnone : fault item = none := by
        refine Option.eq_none_iff_forall_ne_some.2 fun found hfault => ?_
        rw [(h item found).2 hfault] at hitem
        cases hitem
      rw [hnone, ← ih, bind_eq_error_iff]
      simp [bind_eq_error_iff, pure, Except.pure]

/-- The same attempt for every item of a list gives the values of the items, one for each. -/
lemma mapM_eq_some_iff {attempt : α → Option β} {items : List α} {values : List β} :
    items.mapM attempt = some values ↔
      List.Forall₂ (fun item value => attempt item = some value) items values := by
  induction items generalizing values with
  | nil =>
    rw [List.mapM_nil, List.forall₂_nil_left_iff]
    exact ⟨fun h => (Option.some.inj h).symm, fun h => h ▸ rfl⟩
  | cons item rest ih =>
    rw [List.mapM_cons, List.forall₂_cons_left_iff, Option.bind_eq_bind, Option.bind_eq_some_iff]
    constructor
    · rintro ⟨value, hvalue, hrest⟩
      obtain ⟨more, hmore, hpure⟩ := Option.bind_eq_some_iff.1 hrest
      exact ⟨value, more, hvalue, ih.1 hmore, (Option.some.inj hpure).symm⟩
    · rintro ⟨value, more, hvalue, hmore, rfl⟩
      exact ⟨value, hvalue, Option.bind_eq_some_iff.2 ⟨more, ih.2 hmore, rfl⟩⟩

/-- Steps that go on from one item to the next end well exactly if every item is acceptable,
whatever was there before. -/
lemma foldlM_eq_ok_iff {step : β → α → Except ε β} {accepts : α → Prop} {next : β → α → β}
    (h : ∀ start item last, step start item = .ok last ↔ accepts item ∧ next start item = last)
    {items : List α} {start last : β} :
    items.foldlM step start = .ok last ↔
      (∀ item ∈ items, accepts item) ∧ items.foldl next start = last := by
  induction items generalizing start with
  | nil => simp [pure, Except.pure]
  | cons item rest ih =>
    simp only [List.foldlM_cons, bind_eq_ok_iff, h, ih, List.foldl_cons, List.forall_mem_cons]
    constructor
    · rintro ⟨_, ⟨hitem, rfl⟩, hrest, hlast⟩
      exact ⟨⟨hitem, hrest⟩, hlast⟩
    · rintro ⟨⟨hitem, hrest⟩, hlast⟩
      exact ⟨_, ⟨hitem, rfl⟩, hrest, hlast⟩

end LayeredProfiles.Steps
