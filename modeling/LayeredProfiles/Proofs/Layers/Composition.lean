import LayeredProfiles.Proofs.Layers.Precedence
import LayeredProfiles.Proofs.OrderedMap

set_option autoImplicit false

/-!
# Merging in parts

A chain can be merged from its base to its leaf, layer by layer, or its leaf part can be merged first
and then put on top of the rest as if it were one layer: the outcome is the same, down to the order of
requests, of parameters and of unknown keys. What carries this is that requests are put into a table
like writes into a map. Requests of different codes do not get in each other's way, those of one code
add up, and taking names away can be done before or after.

## Main results

* `PidEntry.absorb_assoc`, `PidEntry.withoutNames_absorb` — requests of one code add up.
* `Layers.foldl_place_foldl_place` — requests that are gathered first.
* `Layers.mem_parameterNames_apply` — the names that two layers have together.
* `Layers.apply_nil_stack` — what is merged already is a layer like any other.
* `Layers.merge_in_parts` — merging is associative, and a chain can be cut anywhere.
-/

namespace LayeredProfiles

namespace PidEntry

/-- What requests add can be gathered first. -/
lemma absorb_assoc (first second third : PidEntry) :
    (first.absorb second).absorb third = first.absorb (second.absorb third) := by
  unfold absorb
  simp only [mk.injEq]
  exact ⟨trivial, (Option.or_assoc ..).symm,
    (OrderedMap.extend_extend second.parameters_unique _ _).symm,
    (OrderedMap.extend_extend second.extra_unique _ _).symm⟩

end PidEntry

namespace Layers

variable {table : List PidEntry} {names others : List String}

/-! ## Taking names away -/

/-- Names can be taken away before or after a request is added. -/
lemma withoutNames_absorb (names : List String) (entry more : PidEntry) :
    withoutNames names (entry.absorb more) =
      (withoutNames names entry).absorb (withoutNames names more) := by
  unfold withoutNames PidEntry.keep PidEntry.absorb
  simp only [PidEntry.mk.injEq]
  exact ⟨trivial, trivial,
    OrderedMap.filter_extend _ _ fun name => !names.contains name, trivial⟩

/-- What is taken away depends on which names are given, not on their order. -/
lemma withoutNames_congr (h : ∀ name, name ∈ names ↔ name ∈ others) :
    withoutNames names = withoutNames others := by
  have htest : (fun p : String × String => !names.contains p.1) = fun p => !others.contains p.1 := by
    funext p
    rw [Bool.eq_iff_iff]
    simp [h]
  funext entry
  unfold withoutNames
  rw [htest]

/-- Names can be taken away in two steps. -/
lemma withoutNames_append (entry : PidEntry) :
    withoutNames (names ++ others) entry = withoutNames others (withoutNames names entry) := by
  unfold withoutNames PidEntry.keep
  simp only [PidEntry.mk.injEq]
  refine ⟨trivial, trivial, ?_, trivial⟩
  rw [List.filter_filter]
  refine List.filter_congr fun p _ => ?_
  simp [Bool.and_comm]

/-- Names can be taken away before or after requests are put in. -/
lemma map_withoutNames_foldl_place (names : List String) (entries table : List PidEntry) :
    (entries.foldl place table).map (withoutNames names) =
      (entries.map (withoutNames names)).foldl place (table.map (withoutNames names)) := by
  have hplace : ∀ (table : List PidEntry) (entry : PidEntry),
      (place table entry).map (withoutNames names) =
        place (table.map (withoutNames names)) (withoutNames names entry) := by
    intro table entry
    induction table with
    | nil => rfl
    | cons first rest ih =>
      have hcode : ∀ entry : PidEntry, (withoutNames names entry).code = entry.code := fun _ => rfl
      rw [List.map_cons, place, place, hcode, hcode]
      by_cases hsame : first.code = entry.code
      · rw [if_pos hsame, if_pos hsame, List.map_cons, withoutNames_absorb]
      · rw [if_neg hsame, if_neg hsame, List.map_cons, ih]
  induction entries generalizing table with
  | nil => rfl
  | cons entry rest ih => rw [List.foldl_cons, ih, hplace, List.map_cons, List.foldl_cons]

/-! ## Gathering requests -/

/-- The first request of a table takes one of its code, and others are put in behind it. -/
lemma place_cons (first : PidEntry) (rest : List PidEntry) (entry : PidEntry) :
    place (first :: rest) entry =
      if first.code = entry.code then first.absorb entry :: rest else first :: place rest entry :=
  rfl

/-- Requests of one code can be gathered first. -/
lemma place_place_self (table : List PidEntry) {entry more : PidEntry}
    (h : entry.code = more.code) :
    place (place table entry) more = place table (entry.absorb more) := by
  have hcode : (entry.absorb more).code = entry.code := rfl
  induction table with
  | nil => rw [place, place_cons, if_pos h, place]
  | cons first rest ih =>
    rw [place_cons, place_cons, hcode]
    by_cases hsame : first.code = entry.code
    · have hfirst : (first.absorb entry).code = more.code := hsame.trans h
      rw [if_pos hsame, if_pos hsame, place_cons, if_pos hfirst, PidEntry.absorb_assoc]
    · rw [if_neg hsame, if_neg hsame, place_cons, if_neg (h ▸ hsame), ih]

/-- A request whose code is in the table already can be put in before or after one of another
code. -/
lemma place_comm {entry more : PidEntry} (h : entry.code ≠ more.code)
    (hthere : more.code ∈ codes table) :
    place (place table entry) more = place (place table more) entry := by
  induction table with
  | nil => cases hthere
  | cons first rest ih =>
    rw [place_cons, place_cons first rest more]
    by_cases hentry : first.code = entry.code
    · have hcode : (first.absorb entry).code ≠ more.code := fun heq => h (hentry.symm.trans heq)
      rw [if_pos hentry, if_neg (hentry ▸ h), place_cons, place_cons, if_neg hcode, if_pos hentry]
    · rw [if_neg hentry, place_cons]
      by_cases hmore : first.code = more.code
      · have hcode : (first.absorb more).code ≠ entry.code := hentry
        rw [if_pos hmore, if_pos hmore, place_cons, if_neg hcode]
      · have hrest : more.code ∈ codes rest :=
          (List.mem_cons.1 hthere).resolve_left (Ne.symm hmore)
        rw [if_neg hmore, if_neg hmore, place_cons, if_neg hentry, ih hrest]

/-- A request whose code is in the table already can be put in before or after requests of other
codes. -/
lemma foldl_place_comm {entry : PidEntry} {entries : List PidEntry} (h : entry.code ∉ codes entries)
    (hthere : entry.code ∈ codes table) :
    place (entries.foldl place table) entry = entries.foldl place (place table entry) := by
  induction entries generalizing table with
  | nil => rfl
  | cons first rest ih =>
    obtain ⟨hfirst, hrest⟩ : entry.code ≠ first.code ∧ entry.code ∉ codes rest := by
      simpa [codes] using h
    have hkept : entry.code ∈ codes (place table first) :=
      (mem_codes_place table first _).2 (.inl hthere)
    rw [List.foldl_cons, List.foldl_cons, ih hrest hkept, place_comm (Ne.symm hfirst) hthere]

/-- A request can be gathered with earlier ones of a table that lists no code twice. -/
lemma foldl_place_place {entries : List PidEntry} (h : (codes entries).Nodup)
    (table : List PidEntry) (entry : PidEntry) :
    (place entries entry).foldl place table = place (entries.foldl place table) entry := by
  induction entries generalizing table with
  | nil => rfl
  | cons first rest ih =>
    obtain ⟨hfirst, hrest⟩ := List.nodup_cons.1 (show (first.code :: codes rest).Nodup from h)
    rw [place_cons, List.foldl_cons]
    by_cases hsame : first.code = entry.code
    · have hthere : entry.code ∈ codes (place table first) :=
        (mem_codes_place table first _).2 (.inr hsame.symm)
      rw [if_pos hsame, List.foldl_cons, foldl_place_comm (hsame ▸ hfirst) hthere,
        place_place_self table hsame]
    · rw [if_neg hsame, List.foldl_cons, ih hrest]

/-- **Requests can be gathered first**, in a table that lists no code twice. -/
lemma foldl_place_foldl_place {gathered : List PidEntry} (h : (codes gathered).Nodup)
    (table entries : List PidEntry) :
    (entries.foldl place gathered).foldl place table =
      entries.foldl place (gathered.foldl place table) := by
  induction entries generalizing gathered with
  | nil => rfl
  | cons entry rest ih =>
    have hplaced : (codes (place gathered entry)).Nodup := nodup_codes_foldl_place [entry] h
    rw [List.foldl_cons, ih hplaced, foldl_place_place h, List.foldl_cons]

/-! ## Layers that are put on top of each other first -/

/-- The names of the first request of a table are names of the table. -/
lemma mem_parameterNames_cons (first : PidEntry) (rest : List PidEntry) (name : String) :
    name ∈ parameterNames (first :: rest) ↔
      name ∈ OrderedMap.keys first.parameters ∨ name ∈ parameterNames rest := by
  unfold parameterNames
  rw [List.flatMap_cons, List.mem_append]

/-- The names of a table with requests put in are those of the table and of the requests. -/
lemma mem_parameterNames_foldl_place (entries table : List PidEntry) (name : String) :
    name ∈ parameterNames (entries.foldl place table) ↔
      name ∈ parameterNames table ∨ name ∈ parameterNames entries := by
  have hplace : ∀ (table : List PidEntry) (entry : PidEntry),
      name ∈ parameterNames (place table entry) ↔
        name ∈ parameterNames table ∨ name ∈ OrderedMap.keys entry.parameters := by
    intro table entry
    induction table with
    | nil => simp [place, parameterNames]
    | cons first rest ih =>
      rw [place_cons]
      split
      · have habsorb : (first.absorb entry).parameters =
            OrderedMap.extend first.parameters entry.parameters := rfl
        rw [mem_parameterNames_cons, mem_parameterNames_cons, habsorb,
          OrderedMap.mem_keys_extend _ entry.parameters_unique, or_right_comm]
      · rw [mem_parameterNames_cons, mem_parameterNames_cons, ih, or_assoc]
  induction entries generalizing table with
  | nil => simp [parameterNames]
  | cons entry rest ih =>
    refine (ih (place table entry)).trans ?_
    rw [hplace, mem_parameterNames_cons, or_assoc]

/-- What is taken away from a table are names, and no others. -/
lemma parameterNames_map_withoutNames (names : List String) (table : List PidEntry) :
    parameterNames (table.map (withoutNames names)) =
      (parameterNames table).filter fun name => !names.contains name := by
  unfold parameterNames
  rw [List.flatMap_map, List.filter_flatMap]
  refine List.flatMap_congr fun entry _ => ?_
  unfold OrderedMap.keys
  rw [List.filter_map]
  rfl

/-- Two layers have the names of either, though the later one takes over those of the earlier one. -/
lemma mem_parameterNames_apply (below above : List PidEntry) (name : String) :
    name ∈ parameterNames (apply below above) ↔
      name ∈ parameterNames below ∨ name ∈ parameterNames above := by
  unfold apply
  rw [mem_parameterNames_foldl_place, parameterNames_map_withoutNames, List.mem_filter]
  by_cases habove : name ∈ parameterNames above <;> simp [habove]

/-- A layer that is put on top of nothing is gathered request by request. -/
lemma apply_nil_left (layer : List PidEntry) : apply [] layer = layer.foldl place [] := rfl

/-- **Merging is associative**: two layers can be put on top of each other first. -/
lemma apply_apply (table below above : List PidEntry) :
    apply (apply table below) above = apply table (apply (apply [] below) above) := by
  -- the two layers together take away what they take away one after the other
  have hnames : ∀ name, name ∈ parameterNames (apply (apply [] below) above) ↔
      name ∈ parameterNames below ++ parameterNames above := by
    intro name
    rw [mem_parameterNames_apply, mem_parameterNames_apply, List.mem_append]
    simp [parameterNames]
  let clear := withoutNames (parameterNames above)
  let kept := (table.map (withoutNames (parameterNames below))).map clear
  have htaken : table.map (withoutNames (parameterNames (apply (apply [] below) above))) = kept := by
    rw [withoutNames_congr hnames]
    exact (List.map_congr_left fun entry _ => withoutNames_append entry).trans List.map_map.symm
  have hgathered : apply (apply [] below) above =
      above.foldl place ((below.map clear).foldl place []) := by
    rw [apply_nil_left, apply, map_withoutNames_foldl_place]
    rfl
  have hnil : (codes []).Nodup := List.nodup_nil
  calc apply (apply table below) above
      = above.foldl place ((below.map clear).foldl place kept) := by
        rw [apply, apply, map_withoutNames_foldl_place]
    _ = above.foldl place (((below.map clear).foldl place []).foldl place kept) := by
        rw [foldl_place_foldl_place hnil, List.foldl_nil]
    _ = (above.foldl place ((below.map clear).foldl place [])).foldl place kept := by
        rw [foldl_place_foldl_place (nodup_codes_foldl_place _ hnil)]
    _ = apply table (apply (apply [] below) above) := by
        rw [apply.eq_def table, htaken, hgathered]

/-- **What is merged already is a layer like any other.** -/
lemma apply_nil_stack (chain : List Fragment) :
    apply [] (stack chain.reverse) = stack chain.reverse := by
  induction chain with
  | nil => rfl
  | cons leaf ancestors ih =>
    rw [stack_reverse_cons]
    conv_lhs => rw [← ih, ← apply_apply, ih]

/-- The leaf part of a chain is put on top of what the rest amounts to. -/
lemma stack_reverse_append (part ancestors : List Fragment) :
    stack (part ++ ancestors).reverse =
      part.reverse.foldl (fun table layer => apply table (layer.pids.getD []))
        (stack ancestors.reverse) := by
  unfold stack
  rw [List.reverse_append, List.foldl_append]

/-- The table of a chain of two or more fragments is that of its layers on top of each other. -/
lemma map_pids_merge? {chain : List Fragment} (h : 1 < chain.length) :
    (merge? chain).map Fragment.pids = some (some (stack chain.reverse)) := by
  match chain, h with
  | _ :: _ :: _, _ => rfl

/-- What a chain amounts to stands for it as a layer, whatever else its fragment says. -/
lemma exists_merge?_of_cut (ancestor : Fragment) (ancestors : List Fragment) :
    ∃ base, merge? (ancestor :: ancestors) = some base ∧
      apply [] (base.pids.getD []) = stack (ancestor :: ancestors).reverse := by
  cases ancestors with
  | nil => exact ⟨ancestor, rfl, rfl⟩
  | cons parent ancestors => exact ⟨_, rfl, apply_nil_stack (ancestor :: parent :: ancestors)⟩

/-- **Merging in parts**:

* merging is associative: to put two layers on a table, one after the other, is to put on it what
  the two amount to when they are put on top of each other first;
* a chain can be cut anywhere: merging it gives the table that its leaf part gives on a single
  fragment with the merged and not yet pruned table of the rest, whatever else that fragment says.

Tables are compared as they stand, with the order of requests, of parameters and of unknown keys, and
none of them needs to list a code only once.

**Proof sketch.** A layer takes its names away from the table and puts its requests in one by one.
Two layers have the names of either (`mem_parameterNames_apply`), so they take away together what
they take away one after the other, and names can be taken away before or after requests are put in
(`map_withoutNames_foldl_place`). What is gathered from the first layer lists no code twice, and from
there on requests can be gathered first (`foldl_place_foldl_place`): those of one code add up
(`PidEntry.absorb_assoc`), and one whose code is there already goes past those of other codes
(`place_comm`). -/
theorem merge_in_parts :
    (∀ table below above : List PidEntry,
      apply (apply table below) above = apply table (apply (apply [] below) above)) ∧
    ∀ (part : List Fragment) (ancestor : Fragment) (ancestors : List Fragment),
      ∃ base, merge? (ancestor :: ancestors) = some base ∧
        ∀ other : Fragment,
          (merge? (part ++ ancestor :: ancestors)).map Fragment.pids =
            (merge? (part ++ [{ other with pids := base.pids }])).map Fragment.pids := by
  refine ⟨apply_apply, fun part ancestor ancestors => ?_⟩
  obtain ⟨base, hbase, htable⟩ := exists_merge?_of_cut ancestor ancestors
  refine ⟨base, hbase, fun other => ?_⟩
  cases part with
  | nil => rw [List.nil_append, hbase]; rfl
  | cons leaf part =>
    have hlong : ∀ (first : Fragment) (rest : List Fragment),
        1 < (leaf :: part ++ first :: rest).length := by
      intro first rest
      simp only [List.length_append, List.length_cons]
      omega
    rw [map_pids_merge? (hlong _ _), map_pids_merge? (hlong _ _), stack_reverse_append,
      stack_reverse_append, ← htable]
    rfl

/-- A layer that lists a code twice and moves a parameter of the other one comes to the same, on its
own and gathered with the other one. -/
example :
    let table := [PidEntry.ofExpressions "A" [("X", "1")], .ofExpressions "A" [("Z", "2")]]
    let below := [PidEntry.ofExpressions "B" [("Y", "3")], .ofExpressions "A" [("W", "4")]]
    let above := [PidEntry.ofExpressions "C" [("Y", "5")], .ofExpressions "C" [("X", "6")]]
    let merged := [PidEntry.ofExpressions "A" [("W", "4")], .ofExpressions "A" [("Z", "2")],
      .ofExpressions "B" [], .ofExpressions "C" [("Y", "5"), ("X", "6")]]
    apply (apply table below) above = merged ∧
      apply table (apply (apply [] below) above) = merged := by
  decide +kernel

end Layers

end LayeredProfiles
