import LayeredProfiles.Layers.Merge
import Mathlib.Data.List.Nodup

set_option autoImplicit false

/-!
# Looking parameters up in tables

A table is seen through its look-up: the expression that a code and a name lead to. Putting a
request into a table, putting a whole layer on top and pruning each have one equation that says
what they do to the look-up, so that nothing later has to open them again.

## Main definitions

* `Layers.codes` — the request codes of a table.
* `Layers.expressionAt?` — the look-up of a table.
* `Layers.lastDeclared?` — the expression that a layer asks for.
* `Layers.Carries` — a request of the code has the parameter with the expression.
* `Layers.UnderOneCode` — no parameter stands under two codes.

## Main results

* `Layers.expressionAt?_place`, `Layers.expressionAt?_apply` — the look-up after a request or a
  layer was put in.
* `Layers.expressionAt?_prune` — the look-up after pruning.
* `Layers.carries_iff` — with unique codes, the look-up finds everything that a table carries.
* `Layers.nodup_codes_apply`, `Layers.nodup_codes_prune` — codes stay unique.

## Implementation notes

A layer may list a code several times and a parameter under several codes, a merged table lists
each code once. This is why a layer has a look-up of its own, which starts from its end.
-/

namespace LayeredProfiles.Layers

/-- The request codes of a table, in order. -/
def codes (table : List PidEntry) : List String :=
  table.map PidEntry.code

/-- The expression that the first request of a code has for a parameter. -/
def expressionAt? : (table : List PidEntry) → (code name : String) → Option String
  | [], _, _ => none
  | entry :: rest, code, name =>
    if entry.code = code then OrderedMap.get? entry.parameters name
    else expressionAt? rest code name

/-- The expression that a layer asks for: that of its last request of the code which declares the
parameter. -/
def lastDeclared? (layer : List PidEntry) (code name : String) : Option String :=
  (layer.reverse.find? fun entry =>
    entry.code = code ∧ OrderedMap.contains entry.parameters name).bind fun entry =>
      OrderedMap.get? entry.parameters name

/-- A request of the code has the parameter with the expression. -/
def Carries (table : List PidEntry) (code name expression : String) : Prop :=
  ∃ entry ∈ table, entry.code = code ∧ (name, expression) ∈ entry.parameters

/-- No parameter stands under two codes. -/
def UnderOneCode (table : List PidEntry) : Prop :=
  ∀ a ∈ table, ∀ b ∈ table, ∀ name ∈ OrderedMap.keys a.parameters,
    name ∈ OrderedMap.keys b.parameters → a.code = b.code

variable {table layer : List PidEntry} {code name expression : String}

/-! ## The look-up of a layer -/

/-- Of two requests that declare a parameter under a code the later one counts. -/
lemma lastDeclared?_cons (entry : PidEntry) (layer : List PidEntry) (code name : String) :
    lastDeclared? (entry :: layer) code name =
      (lastDeclared? layer code name).or
        (if entry.code = code then OrderedMap.get? entry.parameters name else none) := by
  unfold lastDeclared?
  rw [List.reverse_cons, List.find?_append]
  cases hfind : layer.reverse.find? fun entry =>
      entry.code = code ∧ OrderedMap.contains entry.parameters name with
  | some found =>
    have htest : found.code = code ∧ OrderedMap.contains found.parameters name := by
      simpa using List.find?_some hfind
    obtain ⟨value, hvalue⟩ := Option.isSome_iff_exists.1 htest.2
    simp [hvalue]
  | none =>
    cases hget : OrderedMap.get? entry.parameters name <;>
      by_cases hcode : entry.code = code <;>
      simp [OrderedMap.contains, hget, hcode]

/-- A layer asks for nothing under a name that it does not declare. -/
lemma lastDeclared?_eq_none (h : name ∉ parameterNames layer) :
    lastDeclared? layer code name = none := by
  induction layer with
  | nil => rfl
  | cons entry rest ih =>
    simp only [parameterNames, List.flatMap_cons, List.mem_append, not_or] at h ih
    rw [lastDeclared?_cons, ih h.2, (OrderedMap.get?_eq_none_iff _ _).2 h.1]
    simp

/-- What a layer asks for stands in one of its requests of the code. -/
lemma exists_of_lastDeclared? (h : lastDeclared? layer code name = some expression) :
    ∃ entry ∈ layer, entry.code = code ∧
      OrderedMap.get? entry.parameters name = some expression := by
  obtain ⟨entry, hfind, hget⟩ := Option.bind_eq_some_iff.1 h
  have htest : entry.code = code ∧ OrderedMap.contains entry.parameters name := by
    simpa using List.find?_some hfind
  have hmem := List.mem_of_find?_eq_some hfind
  exact ⟨entry, List.mem_reverse.1 hmem, htest.1, hget⟩

/-! ## Putting requests in -/

/-- A request that is put in is found first under its own code, and nothing changes elsewhere. -/
lemma expressionAt?_place (table : List PidEntry) (entry : PidEntry) (code name : String) :
    expressionAt? (place table entry) code name =
      (if entry.code = code then OrderedMap.get? entry.parameters name else none).or
        (expressionAt? table code name) := by
  induction table with
  | nil => simp [place, expressionAt?]
  | cons first rest ih =>
    unfold place
    by_cases hsame : first.code = entry.code
    · by_cases hcode : entry.code = code
      · simp [hsame, hcode, expressionAt?, PidEntry.absorb,
          OrderedMap.get?_extend _ entry.parameters_unique]
      · simp [hsame, hcode, expressionAt?, PidEntry.absorb]
    · rw [if_neg hsame, expressionAt?, expressionAt?, ih]
      by_cases hcode : first.code = code
      · have hother : entry.code ≠ code := fun h => hsame (hcode.trans h.symm)
        simp [hcode, hother]
      · simp [hcode]

/-- A list of requests that is put in is found first, as it looks from its end. -/
lemma expressionAt?_foldl_place (layer table : List PidEntry) (code name : String) :
    expressionAt? (layer.foldl place table) code name =
      (lastDeclared? layer code name).or (expressionAt? table code name) := by
  induction layer generalizing table with
  | nil => rfl
  | cons entry rest ih =>
    rw [List.foldl_cons, ih, expressionAt?_place, lastDeclared?_cons, Option.or_assoc]

/-- Removing names hides them under every code. -/
lemma expressionAt?_map_withoutNames (names : List String) (table : List PidEntry)
    (code name : String) :
    expressionAt? (table.map (withoutNames names)) code name =
      if name ∈ names then none else expressionAt? table code name := by
  induction table with
  | nil => simp [expressionAt?]
  | cons entry rest ih =>
    have hget : OrderedMap.get? (withoutNames names entry).parameters name =
        if name ∈ names then none else OrderedMap.get? entry.parameters name := by
      unfold withoutNames PidEntry.keep
      rw [OrderedMap.get?_filter entry.parameters_unique]
      by_cases hname : name ∈ names <;>
        cases OrderedMap.get? entry.parameters name <;> simp [hname, Option.filter]
    have hcode : (withoutNames names entry).code = entry.code := rfl
    rw [List.map_cons, expressionAt?, hcode, hget, ih, expressionAt?]
    split <;> rfl

/-- **A layer decides about every name that it declares**, and about no other one: after it is put
on top of a table, its names are found where it declares them last, and only there. -/
lemma expressionAt?_apply (table layer : List PidEntry) (code name : String) :
    expressionAt? (apply table layer) code name =
      if name ∈ parameterNames layer then lastDeclared? layer code name
      else expressionAt? table code name := by
  unfold apply
  rw [expressionAt?_foldl_place, expressionAt?_map_withoutNames]
  by_cases hname : name ∈ parameterNames layer
  · simp [hname]
  · simp [hname, lastDeclared?_eq_none hname]

/-! ## Codes -/

/-- A request that is put in keeps the codes, or adds its own at the end. -/
lemma codes_place (table : List PidEntry) (entry : PidEntry) :
    codes (place table entry) =
      if entry.code ∈ codes table then codes table else codes table ++ [entry.code] := by
  induction table with
  | nil => simp [place, codes]
  | cons first rest ih =>
    unfold codes at ih ⊢
    unfold place
    by_cases hsame : first.code = entry.code
    · simp [hsame, PidEntry.absorb]
    · rw [if_neg hsame, List.map_cons, ih]
      by_cases hrest : entry.code ∈ rest.map PidEntry.code <;> simp [hrest, Ne.symm hsame]

/-- A code is in the table that a request is put into if it was there before or is the request's. -/
lemma mem_codes_place (table : List PidEntry) (entry : PidEntry) (code : String) :
    code ∈ codes (place table entry) ↔ code ∈ codes table ∨ code = entry.code := by
  rw [codes_place]
  split
  · next hthere => exact ⟨.inl, fun h => h.elim id fun heq => heq ▸ hthere⟩
  · simp

/-- Requests that are put in keep codes unique. -/
lemma nodup_codes_foldl_place (layer : List PidEntry) (h : (codes table).Nodup) :
    (codes (layer.foldl place table)).Nodup := by
  induction layer generalizing table with
  | nil => exact h
  | cons entry rest ih =>
    refine ih ?_
    rw [codes_place]
    split
    · exact h
    · next hnew => exact List.Nodup.append h (List.nodup_singleton _) (by simpa using hnew)

/-- Names that are taken away leave the codes. -/
lemma codes_map_withoutNames (names : List String) (table : List PidEntry) :
    codes (table.map (withoutNames names)) = codes table := by
  simp [codes, Function.comp_def, withoutNames, PidEntry.keep]

/-- A layer that is put on top keeps codes unique. -/
lemma nodup_codes_apply (layer : List PidEntry) (h : (codes table).Nodup) :
    (codes (apply table layer)).Nodup := by
  refine nodup_codes_foldl_place layer ?_
  rwa [codes_map_withoutNames]

/-- Pruning keeps codes unique. -/
lemma nodup_codes_prune (h : (codes table).Nodup) : (codes (prune table)).Nodup := by
  have hsub : (codes (prune table)).Sublist (codes (table.map pruneEntry)) :=
    List.Sublist.map _ List.filter_sublist
  have hcodes : codes (table.map pruneEntry) = codes table := by
    simp [codes, Function.comp_def, pruneEntry, PidEntry.keep]
  rw [hcodes] at hsub
  exact h.sublist hsub

/-! ## What a table carries -/

/-- With unique codes, nothing is found under a code that the table does not have. -/
lemma expressionAt?_eq_none (h : code ∉ codes table) : expressionAt? table code name = none := by
  induction table with
  | nil => rfl
  | cons entry rest ih =>
    simp only [codes, List.map_cons, List.mem_cons, not_or] at h ih
    simp [expressionAt?, Ne.symm h.1, ih h.2]

/-- If codes are unique, the look-up finds exactly what the table carries. -/
lemma carries_iff (h : (codes table).Nodup) :
    Carries table code name expression ↔ expressionAt? table code name = some expression := by
  induction table with
  | nil => simp [Carries, expressionAt?]
  | cons entry rest ih =>
    obtain ⟨hfresh, hrest⟩ := List.nodup_cons.1 (show (entry.code :: codes rest).Nodup from h)
    have hcons : Carries (entry :: rest) code name expression ↔
        (entry.code = code ∧ (name, expression) ∈ entry.parameters) ∨
          Carries rest code name expression := by
      simp [Carries]
    rw [hcons, ih hrest, expressionAt?]
    by_cases hcode : entry.code = code
    · subst hcode
      rw [if_pos rfl, OrderedMap.get?_eq_some_iff entry.parameters_unique,
        expressionAt?_eq_none hfresh]
      simp
    · simp [hcode]

/-- Pruning hides the empty expressions. -/
lemma expressionAt?_prune (h : (codes table).Nodup) (code name : String) :
    expressionAt? (prune table) code name =
      (expressionAt? table code name).filter fun expression => expression ≠ "" := by
  induction table with
  | nil => rfl
  | cons entry rest ih =>
    obtain ⟨hfresh, hrest⟩ := List.nodup_cons.1 (show (entry.code :: codes rest).Nodup from h)
    have hget : OrderedMap.get? (pruneEntry entry).parameters name =
        (OrderedMap.get? entry.parameters name).filter fun expression => expression ≠ "" :=
      OrderedMap.get?_filter entry.parameters_unique _ name
    have hprune : prune (entry :: rest) =
        if (pruneEntry entry).parameters.isEmpty then prune rest
        else pruneEntry entry :: prune rest := by
      by_cases hempty : (pruneEntry entry).parameters.isEmpty <;> simp [prune, hempty]
    have hcode : (pruneEntry entry).code = entry.code := rfl
    rw [hprune, expressionAt?]
    by_cases hsame : entry.code = code
    · rw [if_pos hsame, ← hget]
      split
      · next hempty =>
        -- the request itself goes, and no other one has its code
        rw [ih hrest, expressionAt?_eq_none (hsame ▸ hfresh), List.isEmpty_iff.1 hempty]
        rfl
      · rw [expressionAt?, hcode, if_pos hsame]
    · rw [if_neg hsame, ← ih hrest]
      split
      · rfl
      · rw [expressionAt?, hcode, if_neg hsame]

/-- If codes are unique and no parameter stands under two of them, no parameter stands twice in the
table. -/
lemma nodup_parameterNames (h : (codes table).Nodup) (hone : UnderOneCode table) :
    (parameterNames table).Nodup := by
  unfold parameterNames
  rw [List.nodup_flatMap]
  refine ⟨fun entry _ => entry.parameters_unique, ?_⟩
  have hpairs : table.Pairwise fun a b => a.code ≠ b.code := List.pairwise_map.1 h
  refine hpairs.imp_of_mem fun {a b} ha hb hne name hna hnb => ?_
  exact hne (hone a ha b hb name hna hnb)

end LayeredProfiles.Layers
