import LayeredProfiles.Proofs.Layers.Lookup

set_option autoImplicit false

/-!
# Which layer decides

Of all the layers that declare a parameter, the one nearest the leaf says under which codes the
merged fragment has it, and with which expressions. It does not matter where other layers have it,
or whether they disable it: whatever a layer names it takes over from the layers below.

## Main definitions

* `Layers.declares` — whether a layer names a parameter anywhere.

## Main results

* `Layers.expressionAt?_stack` — the look-up of layers put on top of each other.
* `Layers.nearest_layer_decides` — what a merged and pruned chain carries.
-/

namespace LayeredProfiles.Layers

/-- Whether a layer names a parameter anywhere. -/
def declares (name : String) (layer : Fragment) : Bool :=
  (parameterNames (layer.pids.getD [])).contains name

/-- The leaf is put on top of what its ancestors amount to. -/
lemma stack_reverse_cons (leaf : Fragment) (ancestors : List Fragment) :
    stack (leaf :: ancestors).reverse = apply (stack ancestors.reverse) (leaf.pids.getD []) := by
  simp [stack, List.reverse_cons, List.foldl_append]

/-- Layers put on top of each other list no code twice. -/
lemma nodup_codes_stack (chain : List Fragment) : (codes (stack chain.reverse)).Nodup := by
  induction chain with
  | nil => exact List.nodup_nil
  | cons leaf ancestors ih =>
    rw [stack_reverse_cons]
    exact nodup_codes_apply _ ih

/-- In layers put on top of each other, the one nearest the leaf that declares a parameter decides
about it. -/
lemma expressionAt?_stack (chain : List Fragment) (code name : String) :
    expressionAt? (stack chain.reverse) code name =
      (chain.find? (declares name)).bind fun layer =>
        lastDeclared? (layer.pids.getD []) code name := by
  induction chain with
  | nil => rfl
  | cons leaf ancestors ih =>
    rw [stack_reverse_cons, expressionAt?_apply, List.find?_cons]
    by_cases hname : name ∈ parameterNames (leaf.pids.getD [])
    · have hleaf : declares name leaf = true := by simpa [declares] using hname
      rw [if_pos hname, hleaf]
      rfl
    · have hleaf : declares name leaf = false := by simpa [declares] using hname
      rw [if_neg hname, hleaf, ih]

/-- What is carried by layers that are put on top of each other and pruned. -/
lemma carries_prune_stack_iff (chain : List Fragment) (code name expression : String) :
    Carries (prune (stack chain.reverse)) code name expression ↔
      ∃ layer, chain.find? (declares name) = some layer ∧
        lastDeclared? (layer.pids.getD []) code name = some expression ∧ expression ≠ "" := by
  have hcodes := nodup_codes_stack chain
  rw [carries_iff (nodup_codes_prune hcodes), expressionAt?_prune hcodes, expressionAt?_stack,
    Option.filter_eq_some_iff, Option.bind_eq_some_iff]
  simp only [decide_eq_true_eq, ← exists_and_right, and_assoc]

/-- If no layer has a parameter under two codes, the pruned merge does not either. -/
lemma underOneCode_prune_stack {chain : List Fragment}
    (h : ∀ layer ∈ chain, UnderOneCode (layer.pids.getD [])) :
    UnderOneCode (prune (stack chain.reverse)) := by
  intro a ha b hb name hna hnb
  obtain ⟨x, hx⟩ := OrderedMap.mem_keys_iff.1 hna
  obtain ⟨y, hy⟩ := OrderedMap.mem_keys_iff.1 hnb
  obtain ⟨layer, hlayer, hlast, -⟩ :=
    (carries_prune_stack_iff chain _ _ _).1 ⟨a, ha, rfl, hx⟩
  obtain ⟨layer', hlayer', hlast', -⟩ :=
    (carries_prune_stack_iff chain _ _ _).1 ⟨b, hb, rfl, hy⟩
  -- both expressions were asked for by one and the same layer
  obtain rfl : layer = layer' := Option.some.inj (hlayer.symm.trans hlayer')
  obtain ⟨p, hp, hpa, hpx⟩ := exists_of_lastDeclared? hlast
  obtain ⟨q, hq, hqb, hqy⟩ := exists_of_lastDeclared? hlast'
  rw [← hpa, ← hqb]
  exact h layer (List.mem_of_find?_eq_some hlayer) p hp q hq name
    (OrderedMap.mem_keys_of_get? hpx) (OrderedMap.mem_keys_of_get? hqy)

/-- **The layer nearest the leaf decides**: after a chain of two or more fragments is merged and
pruned, a code carries a parameter with an expression exactly if, in the layer nearest the leaf that
declares the parameter anywhere, the last request of that code which declares it gives it that
expression, and the expression is not empty. No code occurs twice. If no layer has a parameter under
two codes, no parameter occurs twice either.

**Proof sketch.** By induction on the chain, the look-up of the stacked layers is that of the
nearest declaring layer (`expressionAt?_stack`): a layer hides what it declares and nothing else.
Codes stay unique, so the look-up misses nothing, and pruning hides the empty expressions. -/
theorem nearest_layer_decides (leaf parent : Fragment) (ancestors : List Fragment) :
    ∃ merged table, merge? (leaf :: parent :: ancestors) = some merged ∧
      merged.pids = some table ∧
      (∀ code name expression, Carries (prune table) code name expression ↔
        ∃ layer, (leaf :: parent :: ancestors).find? (declares name) = some layer ∧
          lastDeclared? (layer.pids.getD []) code name = some expression ∧ expression ≠ "") ∧
      (codes (prune table)).Nodup ∧
      ((∀ layer ∈ leaf :: parent :: ancestors, UnderOneCode (layer.pids.getD [])) →
        (parameterNames (prune table)).Nodup) := by
  have hcodes := nodup_codes_prune (nodup_codes_stack (leaf :: parent :: ancestors))
  refine ⟨_, _, rfl, rfl, carries_prune_stack_iff _, hcodes, fun hone => ?_⟩
  exact nodup_parameterNames hcodes (underOneCode_prune_stack hone)

/-- A leaf that names its base's parameter under another code moves it there. -/
theorem nearest_layer_decides_moved :
    ∃ merged table,
      merge? [{ Fragment.empty with pids := some [.ofExpressions "B" [("X", "2")]] },
        { Fragment.empty with pids := some [.ofExpressions "A" [("X", "1")]] }] = some merged ∧
      merged.pids = some table ∧ Carries (prune table) "B" "X" "2" ∧
      ¬Carries (prune table) "A" "X" "1" ∧ (parameterNames (prune table)).Nodup := by
  obtain ⟨merged, table, hmerged, htable, hcarries, -, hnames⟩ := nearest_layer_decides
    { Fragment.empty with pids := some [.ofExpressions "B" [("X", "2")]] }
    { Fragment.empty with pids := some [.ofExpressions "A" [("X", "1")]] } []
  refine ⟨merged, table, hmerged, htable, ?_, ?_, hnames ?_⟩
  · exact (hcarries _ _ _).2 ⟨_, rfl, by decide, by decide⟩
  · rw [hcarries]
    rintro ⟨layer, hfind, hlast, -⟩
    cases hfind
    revert hlast
    decide
  · unfold UnderOneCode
    decide

end LayeredProfiles.Layers
