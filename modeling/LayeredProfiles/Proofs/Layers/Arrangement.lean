import LayeredProfiles.Proofs.Layers.Precedence
import LayeredProfiles.Proofs.OrderedMap
import Mathlib.Data.List.Induction

set_option autoImplicit false

/-!
# How a merged table is arranged

A request is put into a table where its code occurs first. So a merged table can be read off the
layers, code by code: each layer, the base first, leaves what it declares under the code and no later
layer takes over, behind what earlier layers left. What is sent before a request and its unknown keys
are never taken over. They come from all requests of the code in all layers, also from those whose
parameters have gone elsewhere since.

## Main definitions

* `Layers.ofCode` — the requests of a code.
* `Layers.declared` — what a layer declares under a code.
* `Layers.won` — what layers leave under a code, each what no later one takes over.
* `Layers.entryOf` — the request of a code in a table.

## Main results

* `Layers.entryOf_apply` — what a layer does to the request of a code.
* `Layers.codes_foldl_apply`, `Layers.parameters_entryOf`, `Layers.setup_entryOf`,
  `Layers.extra_entryOf` — the codes and requests of layers that are put on top of each other.
* `Layers.merge_arrangement` — the merged and pruned table of a chain, read off its layers.
-/

namespace LayeredProfiles

namespace PidEntry

/-- The request of a code with nothing in it. -/
def blank (code : String) : PidEntry :=
  .ofExpressions code []

/-- A request is what it adds to a blank one of its code. -/
lemma absorb_blank (entry : PidEntry) : (blank entry.code).absorb entry = entry := by
  have hparameters : OrderedMap.extend [] entry.parameters = entry.parameters :=
    OrderedMap.ofList_of_uniqueKeys entry.parameters_unique
  have hextra : OrderedMap.extend [] entry.extra = entry.extra :=
    OrderedMap.ofList_of_uniqueKeys entry.extra_unique
  cases entry
  simp_all [blank, absorb, ofExpressions, of, OrderedMap.ofList, OrderedMap.extend]

variable (first : PidEntry) (entries : List PidEntry)

/-- Requests add their expressions one after the other. -/
lemma parameters_foldl_absorb : (entries.foldl absorb first).parameters =
    OrderedMap.extend first.parameters (entries.flatMap PidEntry.parameters) := by
  induction entries generalizing first with
  | nil => rfl
  | cons entry rest ih =>
    rw [List.foldl_cons, ih, List.flatMap_cons]
    exact List.foldl_append.symm

/-- Requests add their unknown keys one after the other. -/
lemma extra_foldl_absorb : (entries.foldl absorb first).extra =
    OrderedMap.extend first.extra (entries.flatMap PidEntry.extra) := by
  induction entries generalizing first with
  | nil => rfl
  | cons entry rest ih =>
    rw [List.foldl_cons, ih, List.flatMap_cons]
    exact List.foldl_append.symm

/-- Of several requests the last one that is set up counts. -/
lemma setup_foldl_absorb : (entries.foldl absorb first).setup =
    ((entries.filterMap PidEntry.setup).getLast?).or first.setup := by
  induction entries generalizing first with
  | nil => rfl
  | cons entry rest ih =>
    have habsorb : (first.absorb entry).setup = entry.setup.or first.setup := rfl
    rw [List.foldl_cons, ih, habsorb, ← Option.or_assoc, List.filterMap_cons]
    cases entry.setup with
    | none => simp
    | some setup => simp [List.getLast?_cons, Option.or_some]

end PidEntry

namespace Layers

/-! ## Reading layers -/

/-- The requests of a code. -/
def ofCode (code : String) (entries : List PidEntry) : List PidEntry :=
  entries.filter fun entry => entry.code = code

/-- What a layer declares under a code: each parameter where it is declared first, with the
expression with which it is declared last. -/
def declared (layer : List PidEntry) (code : String) : OrderedMap String String :=
  OrderedMap.ofList ((ofCode code layer).flatMap PidEntry.parameters)

/-- What layers, the base first, leave under a code: each of them leaves what it declares there and
no later layer names. -/
def won : (layers : List (List PidEntry)) → (code : String) → OrderedMap String String
  | [], _ => []
  | layer :: later, code =>
    ((declared layer code).filter fun p => !(parameterNames later.flatten).contains p.1) ++
      won later code

/-- The request of a code in a table, which is blank if the table has none. -/
def entryOf (table : List PidEntry) (code : String) : PidEntry :=
  (table.find? fun entry => entry.code = code).getD (.blank code)

variable {table layer : List PidEntry} {layers : List (List PidEntry)} {code : String}

/-- A layer declares the parameters of a code in the order in which they occur first. -/
lemma keys_declared (layer : List PidEntry) (code : String) :
    OrderedMap.keys (declared layer code) =
      ((ofCode code layer).flatMap fun entry => OrderedMap.keys entry.parameters).eraseDups := by
  unfold declared
  rw [OrderedMap.keys_ofList, List.map_flatMap]
  rfl

/-- A layer declares a parameter as the last request of the code that has it. -/
lemma get?_declared (layer : List PidEntry) (code name : String) :
    OrderedMap.get? (declared layer code) name = lastDeclared? layer code name := by
  unfold declared OrderedMap.ofList
  have hnone : OrderedMap.get? ([] : OrderedMap String String) name = none := rfl
  rw [OrderedMap.get?_extend_flatMap _ PidEntry.parameters_unique, hnone, Option.or_none]
  induction layer with
  | nil => rfl
  | cons entry rest ih =>
    rw [lastDeclared?_cons, ← ih]
    unfold ofCode
    by_cases hcode : entry.code = code
    · cases hget : OrderedMap.get? entry.parameters name with
      | none => simp [hcode, hget]
      | some value => simp [hcode, hget, List.getLast?_cons, Option.or_some]
    · simp [hcode]

/-- One more layer leaves what it declares, and takes over what it names from the layers before. -/
lemma won_concat (layers : List (List PidEntry)) (layer : List PidEntry) (code : String) :
    won (layers ++ [layer]) code =
      ((won layers code).filter fun p => !(parameterNames layer).contains p.1) ++
        declared layer code := by
  induction layers with
  | nil => simp [won, parameterNames]
  | cons first later ih =>
    have hnames : parameterNames (later ++ [layer]).flatten =
        parameterNames later.flatten ++ parameterNames layer := by
      simp [parameterNames]
    rw [List.cons_append, won, won, ih, hnames, List.filter_append, List.filter_filter,
      List.append_assoc]
    congr 1
    refine List.filter_congr fun p _ => ?_
    simp [Bool.and_comm]

/-! ## The request of a code -/

/-- The first request of a table is the one of its code. -/
lemma entryOf_cons (first : PidEntry) (rest : List PidEntry) (code : String) :
    entryOf (first :: rest) code = if first.code = code then first else entryOf rest code := by
  unfold entryOf
  by_cases hcode : first.code = code <;> simp [hcode]

/-- If codes are unique, every request of a table is the one of its code. -/
lemma entryOf_of_mem (h : (codes table).Nodup) {entry : PidEntry} (hentry : entry ∈ table) :
    entryOf table entry.code = entry := by
  induction table with
  | nil => cases hentry
  | cons first rest ih =>
    obtain ⟨hfirst, hrest⟩ := List.nodup_cons.1 (show (first.code :: codes rest).Nodup from h)
    rw [entryOf_cons]
    rcases List.mem_cons.1 hentry with rfl | hmem
    · exact if_pos rfl
    · have hcode : first.code ≠ entry.code := by
        intro hcode
        rw [hcode] at hfirst
        exact hfirst (List.mem_map_of_mem hmem)
      rw [if_neg hcode, ih hrest hmem]

/-- The request of a code has the code. -/
lemma code_entryOf (table : List PidEntry) (code : String) : (entryOf table code).code = code := by
  induction table with
  | nil => rfl
  | cons first rest ih =>
    rw [entryOf_cons]
    split
    · next hcode => exact hcode
    · exact ih

/-- If codes are unique, a table is the list of the requests of its codes. -/
lemma map_entryOf_codes (h : (codes table).Nodup) : (codes table).map (entryOf table) = table := by
  have heach : table.map (entryOf table ∘ PidEntry.code) = table.map id :=
    List.map_congr_left fun entry hentry => entryOf_of_mem h hentry
  rw [codes, List.map_map, heach, List.map_id]

/-- A request that is put in adds to the request of its code and to no other one. -/
lemma entryOf_place (table : List PidEntry) (entry : PidEntry) (code : String) :
    entryOf (place table entry) code =
      if entry.code = code then (entryOf table code).absorb entry else entryOf table code := by
  induction table with
  | nil =>
    rw [place, entryOf_cons]
    split
    · next hcode =>
      subst hcode
      exact entry.absorb_blank.symm
    · rfl
  | cons first rest ih =>
    unfold place
    by_cases hsame : first.code = entry.code
    · have hcode : (first.absorb entry).code = first.code := rfl
      rw [if_pos hsame, entryOf_cons, entryOf_cons, hcode, hsame]
      split <;> rfl
    · rw [if_neg hsame, entryOf_cons, entryOf_cons, ih]
      by_cases hcode : first.code = code
      · rw [if_pos hcode, if_pos hcode, if_neg fun hentry => hsame (hcode.trans hentry.symm)]
      · rw [if_neg hcode, if_neg hcode]

/-- Requests that are put in add to the request of a code what those of the code add. -/
lemma entryOf_foldl_place (entries table : List PidEntry) (code : String) :
    entryOf (entries.foldl place table) code =
      (ofCode code entries).foldl PidEntry.absorb (entryOf table code) := by
  induction entries generalizing table with
  | nil => rfl
  | cons entry rest ih =>
    unfold ofCode at ih ⊢
    rw [List.foldl_cons, ih, entryOf_place]
    by_cases hcode : entry.code = code <;> simp [hcode]

/-- Removing names removes them from the request of every code. -/
lemma entryOf_map_withoutNames (names : List String) (table : List PidEntry) (code : String) :
    entryOf (table.map (withoutNames names)) code = withoutNames names (entryOf table code) := by
  induction table with
  | nil => rfl
  | cons first rest ih =>
    have hcode : (withoutNames names first).code = first.code := rfl
    rw [List.map_cons, entryOf_cons, entryOf_cons, ih, hcode]
    split <;> rfl

/-- **What a layer does to the request of a code**: it takes over what it names, and adds what its
requests of the code have. -/
lemma entryOf_apply (table layer : List PidEntry) (code : String) :
    entryOf (apply table layer) code =
      (ofCode code layer).foldl PidEntry.absorb
        (withoutNames (parameterNames layer) (entryOf table code)) := by
  unfold apply
  rw [entryOf_foldl_place, entryOf_map_withoutNames]

/-! ## Layers on top of each other -/

/-- Requests that are put in add codes in the order in which they occur first. -/
lemma codes_foldl_place {before : List String} (h : codes table = before.eraseDups)
    (entries : List PidEntry) :
    codes (entries.foldl place table) = (before ++ codes entries).eraseDups := by
  induction entries generalizing table before with
  | nil => simpa [codes] using h
  | cons entry rest ih =>
    have hplace : codes (place table entry) = (before ++ [entry.code]).eraseDups := by
      rw [codes_place, h, OrderedMap.eraseDups_concat]
    have hrest := ih hplace
    rw [List.append_assoc, List.singleton_append] at hrest
    exact hrest

/-- The codes of layers put on top of each other stand in the order in which they occur first. -/
lemma codes_foldl_apply (layers : List (List PidEntry)) :
    codes (layers.foldl apply []) = (codes layers.flatten).eraseDups := by
  induction layers using List.reverseRecOn with
  | nil => rfl
  | append_singleton layers layer ih =>
    have hcodes : codes ((layers.foldl apply []).map (withoutNames (parameterNames layer))) =
        (codes layers.flatten).eraseDups := by
      rw [← ih, codes_map_withoutNames]
    rw [List.foldl_append, List.foldl_cons, List.foldl_nil, apply, codes_foldl_place hcodes]
    simp [codes]

/-- The request of a code has what the layers leave under it. -/
lemma parameters_entryOf (layers : List (List PidEntry)) (code : String) :
    (entryOf (layers.foldl apply []) code).parameters = won layers code := by
  induction layers using List.reverseRecOn with
  | nil => rfl
  | append_singleton layers layer ih =>
    rw [List.foldl_append, List.foldl_cons, List.foldl_nil, entryOf_apply,
      PidEntry.parameters_foldl_absorb, won_concat, ← ih]
    refine OrderedMap.extend_eq_append fun name hname hkept => ?_
    -- what is kept has none of the names of the layer
    obtain ⟨value, hvalue⟩ := OrderedMap.mem_keys_iff.1 hkept
    have hfree := (List.mem_filter.1 hvalue).2
    obtain ⟨expression, hmem⟩ := OrderedMap.mem_keys_iff.1 hname
    obtain ⟨entry, hentry, hdeclares⟩ := List.mem_flatMap.1 hmem
    have hnamed : name ∈ parameterNames layer :=
      List.mem_flatMap.2 ⟨entry, List.mem_of_mem_filter hentry,
        OrderedMap.mem_keys_iff.2 ⟨expression, hdeclares⟩⟩
    simp [hnamed] at hfree

/-- The request of a code is set up as the last one of the code that is. -/
lemma setup_entryOf (layers : List (List PidEntry)) (code : String) :
    (entryOf (layers.foldl apply []) code).setup =
      ((ofCode code layers.flatten).filterMap PidEntry.setup).getLast? := by
  induction layers using List.reverseRecOn with
  | nil => rfl
  | append_singleton layers layer ih =>
    have hkept : (withoutNames (parameterNames layer)
        (entryOf (layers.foldl apply []) code)).setup =
          ((ofCode code layers.flatten).filterMap PidEntry.setup).getLast? := ih
    rw [List.foldl_append, List.foldl_cons, List.foldl_nil, entryOf_apply,
      PidEntry.setup_foldl_absorb, hkept]
    simp [ofCode, List.getLast?_append]

/-- The request of a code has the unknown keys of all requests of the code. -/
lemma extra_entryOf (layers : List (List PidEntry)) (code : String) :
    (entryOf (layers.foldl apply []) code).extra =
      OrderedMap.ofList ((ofCode code layers.flatten).flatMap PidEntry.extra) := by
  induction layers using List.reverseRecOn with
  | nil => rfl
  | append_singleton layers layer ih =>
    have hkept : (withoutNames (parameterNames layer)
        (entryOf (layers.foldl apply []) code)).extra =
          OrderedMap.ofList ((ofCode code layers.flatten).flatMap PidEntry.extra) := ih
    have hall : (ofCode code (layers ++ [layer]).flatten).flatMap PidEntry.extra =
        (ofCode code layers.flatten).flatMap PidEntry.extra ++
          (ofCode code layer).flatMap PidEntry.extra := by
      simp [ofCode]
    rw [List.foldl_append, List.foldl_cons, List.foldl_nil, entryOf_apply,
      PidEntry.extra_foldl_absorb, hkept, hall]
    exact List.foldl_append.symm

/-- Pruning keeps the codes whose requests have something left. -/
lemma codes_prune (h : (codes table).Nodup) :
    codes (prune table) =
      (codes table).filter fun code => !(pruneEntry (entryOf table code)).parameters.isEmpty := by
  unfold codes prune
  rw [List.filter_map, List.filter_map, List.map_map]
  have htest : table.filter ((fun entry => !entry.parameters.isEmpty) ∘ pruneEntry) =
      table.filter ((fun code => !(pruneEntry (entryOf table code)).parameters.isEmpty) ∘
        PidEntry.code) := by
    refine List.filter_congr fun entry hentry => ?_
    rw [Function.comp_apply, Function.comp_apply, entryOf_of_mem h hentry]
  rw [htest]
  rfl

/-! ## The merged table -/

/-- What layers leave under a code and do not disable. -/
def enabled (layers : List (List PidEntry)) (code : String) : OrderedMap String String :=
  (won layers code).filter fun p => p.2 ≠ ""

/-- **How a merged table is arranged.** Merging a chain of two or more fragments gives the leaf, but
for the table. Let the layers be the tables of the chain, the base first. After pruning,

* the codes are those with something enabled, in the order in which they occur first in the layers;
* a request has the parameters that the layers leave under its code and do not disable: first those
  that the base wins, then those of the next layer, and so on, where each layer wins what it declares
  under the code and no later layer names;
* within a layer the parameters of a code stand in the order in which the layer declares them first,
  each with the expression with which it is declared last;
* a request is set up as the last request of its code in the layers that is set up at all;
* the unknown keys of a request stand in the order in which they occur first in the requests of its
  code, each with the value in the last of these requests that has it.

**Proof sketch.** By induction on the layers. A layer removes the names that it declares and then adds
its requests one by one, each to the request of its code (`entryOf_apply`). Since the names have been
removed, what the layer declares comes behind all that is left (`OrderedMap.extend_eq_append`), while
an unknown key that is there already stays where it is (`OrderedMap.keys_extend`). A request from
which all parameters were taken stays in the table until it is pruned, so it hands on what it is set
up with and its unknown keys. -/
theorem merge_arrangement (leaf parent : Fragment) (ancestors : List Fragment) :
    let layers := (leaf :: parent :: ancestors).reverse.map fun layer => layer.pids.getD []
    ∃ table, merge? (leaf :: parent :: ancestors) = some { leaf with pids := some table } ∧
      codes (prune table) =
        (codes layers.flatten).eraseDups.filter (fun code => !(enabled layers code).isEmpty) ∧
      (∀ layer ∈ layers, ∀ code,
        OrderedMap.keys (declared layer code) =
          ((ofCode code layer).flatMap fun entry => OrderedMap.keys entry.parameters).eraseDups ∧
        ∀ name, OrderedMap.get? (declared layer code) name = lastDeclared? layer code name) ∧
      ∀ entry ∈ prune table,
        let sameCode := ofCode entry.code layers.flatten
        entry.parameters = enabled layers entry.code ∧
        entry.setup = (sameCode.filterMap PidEntry.setup).getLast? ∧
        OrderedMap.keys entry.extra =
          (sameCode.flatMap fun other => OrderedMap.keys other.extra).eraseDups ∧
        ∀ key, OrderedMap.get? entry.extra key =
          (sameCode.filterMap fun other => OrderedMap.get? other.extra key).getLast? := by
  intro layers
  have hstack : stack (leaf :: parent :: ancestors).reverse = layers.foldl apply [] :=
    List.foldl_map.symm
  have hnodup : (codes (layers.foldl apply [])).Nodup :=
    hstack ▸ nodup_codes_stack (leaf :: parent :: ancestors)
  have hparameters : ∀ code, (pruneEntry (entryOf (layers.foldl apply []) code)).parameters =
      enabled layers code := fun code =>
    congrArg (List.filter _) (parameters_entryOf layers code)
  refine ⟨layers.foldl apply [], by rw [← hstack]; rfl, ?_, fun layer _ code =>
    ⟨keys_declared layer code, get?_declared layer code⟩, ?_⟩
  · rw [codes_prune hnodup, codes_foldl_apply]
    simp only [hparameters]
  · intro entry hentry sameCode
    obtain ⟨whole, hwhole, rfl⟩ := List.mem_map.1 (List.mem_of_mem_filter hentry)
    -- pruning changes the parameters only, so the request is that of its code in the whole table
    have hrequest : entryOf (layers.foldl apply []) whole.code = whole :=
      entryOf_of_mem hnodup hwhole
    have hextra : whole.extra = OrderedMap.ofList (sameCode.flatMap PidEntry.extra) :=
      (congrArg PidEntry.extra hrequest).symm.trans (extra_entryOf layers whole.code)
    refine ⟨?_, ?_, ?_, fun key => ?_⟩
    · have henabled := hparameters whole.code
      rw [hrequest] at henabled
      exact henabled
    · exact (congrArg PidEntry.setup hrequest).symm.trans (setup_entryOf layers whole.code)
    · change OrderedMap.keys whole.extra = _
      rw [hextra, OrderedMap.keys_ofList, List.map_flatMap]
      rfl
    · change OrderedMap.get? whole.extra key = _
      rw [hextra, OrderedMap.ofList, OrderedMap.get?_extend_flatMap _ PidEntry.extra_unique]
      exact Option.or_none

/-- A layer takes all parameters of a request, and the next one puts them back: they stand where it
has them, the unknown keys where they stood, and what is sent before the request is still the same. -/
example :
    prune (stack
      [{ Fragment.empty with
          pids := some [.of "A" (some "i") [("X", "1"), ("Y", "2")] [("k", .null), ("l", .null)]] },
        { Fragment.empty with pids := some [.ofExpressions "B" [("X", "3"), ("Y", "4")]] },
        { Fragment.empty with
          pids := some [.of "A" none [("Y", "5"), ("X", "6")] [("l", .bool true)]] }]) =
      [.of "A" (some "i") [("Y", "5"), ("X", "6")] [("k", .null), ("l", .bool true)]] := by
  decide +kernel

end Layers

end LayeredProfiles
