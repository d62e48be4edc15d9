import LayeredProfiles.Proofs.Layers.Resolution

set_option autoImplicit false

/-!
# What requests keep through the layers

Beyond its parameters a request keeps the fields with keys that requests do not know. Merging hands
these fields on, from one request to another one of the same code: it neither makes up a field nor
moves it to another code. So what is allowed to stand in the requests of all layers is all that
stands in the requests of the merged table.

## Main definitions

* `Layers.KeepsOnly` — the requests of a table keep only what is allowed for their codes.

## Main results

* `Layers.keepsOnly_place`, `Layers.keepsOnly_apply`, `Layers.keepsOnly_stack` — requests and layers
  that are put in hand their fields on.
* `Resolution.keepsOnly` — a resolved table keeps only what the chain keeps.
-/

namespace LayeredProfiles

namespace Layers

/-- The requests of a table keep only what is allowed for their codes. -/
def KeepsOnly (allowed : String → String × Json → Prop) (table : List PidEntry) : Prop :=
  ∀ entry ∈ table, ∀ field ∈ entry.extra, allowed entry.code field

variable {allowed : String → String × Json → Prop} {table : List PidEntry}

/-- A request that is put into a table hands its fields on to the request of its code. -/
lemma keepsOnly_place (h : KeepsOnly allowed table) {entry : PidEntry}
    (hentry : ∀ field ∈ entry.extra, allowed entry.code field) :
    KeepsOnly allowed (place table entry) := by
  induction table with
  | nil => simpa [place, KeepsOnly] using hentry
  | cons first rest ih =>
    obtain ⟨hfirst, hrest⟩ := List.forall_mem_cons.1 h
    unfold place
    split
    · next hcode =>
      refine List.forall_mem_cons.2 ⟨fun field hfield => ?_, hrest⟩
      rcases OrderedMap.mem_of_mem_extend hfield with hold | hnew
      · exact hfirst field hold
      · exact hcode ▸ hentry field hnew
    · exact List.forall_mem_cons.2 ⟨hfirst, ih hrest⟩

/-- A layer that is put on top of a table hands the fields of its requests on. -/
lemma keepsOnly_apply (h : KeepsOnly allowed table) {layer : List PidEntry}
    (hlayer : KeepsOnly allowed layer) : KeepsOnly allowed (apply table layer) := by
  -- removing parameters does not touch the other fields
  have hbefore : KeepsOnly allowed (table.map (withoutNames (parameterNames layer))) := by
    intro entry hentry
    obtain ⟨whole, hwhole, rfl⟩ := List.mem_map.1 hentry
    exact h whole hwhole
  unfold apply
  generalize table.map (withoutNames (parameterNames layer)) = before at hbefore
  induction layer generalizing before with
  | nil => exact hbefore
  | cons entry rest ih =>
    obtain ⟨hentry, hrest⟩ := List.forall_mem_cons.1 hlayer
    exact ih hrest _ (keepsOnly_place hbefore hentry)

/-- Layers that are put on top of each other keep what they keep separately. -/
lemma keepsOnly_stack {layers : List Fragment}
    (h : ∀ layer ∈ layers, KeepsOnly allowed (layer.pids.getD [])) :
    KeepsOnly allowed (stack layers) := by
  have hfold : ∀ table, KeepsOnly allowed table → KeepsOnly allowed
      (layers.foldl (fun table layer => apply table (layer.pids.getD [])) table) := by
    induction layers with
    | nil => exact fun _ htable => htable
    | cons layer rest ih =>
      obtain ⟨hlayer, hrest⟩ := List.forall_mem_cons.1 h
      exact fun table htable => ih hrest _ (keepsOnly_apply htable hlayer)
  exact hfold [] fun _ hentry => absurd hentry List.not_mem_nil

/-- Pruning does not touch the other fields of the requests that are left. -/
lemma keepsOnly_prune (h : KeepsOnly allowed table) : KeepsOnly allowed (prune table) := by
  intro entry hentry
  obtain ⟨whole, hwhole, rfl⟩ := List.mem_map.1 (List.mem_of_mem_filter hentry)
  exact h whole hwhole

end Layers

/-- All but the table of what a chain amounts to is the leaf's. -/
lemma Resolution.exists_profile_of_ofChain? {key : Path} {leaf : Fragment} {ancestors : Chain}
    {resolution : Resolution}
    (h : Resolution.ofChain? ((key, leaf) :: ancestors) = some resolution) :
    ∃ pids, resolution.profile = { leaf with pids := pids } := by
  obtain ⟨merged, hmerge, rfl⟩ := Option.map_eq_some_iff.1 h
  cases ancestors with
  | nil =>
    obtain rfl : leaf = merged := Option.some.inj hmerge
    exact ⟨_, rfl⟩
  | cons second rest =>
    cases hmerge
    exact ⟨_, rfl⟩

/-- A resolved table keeps only what the fragments of its chain keep. -/
lemma Resolution.keepsOnly {allowed : String → String × Json → Prop} {chain : Chain}
    {resolution : Resolution} {table : List PidEntry} (h : Resolution.ofChain? chain = some resolution)
    (htable : resolution.profile.pids = some table)
    (hchain : ∀ link ∈ chain, Layers.KeepsOnly allowed (link.2.pids.getD [])) :
    Layers.KeepsOnly allowed table := by
  obtain ⟨merged, hmerge, rfl⟩ := Option.map_eq_some_iff.1 h
  obtain ⟨whole, hwhole, rfl⟩ := Option.map_eq_some_iff.1 htable
  have hfragments : ∀ f ∈ chain.fragments, Layers.KeepsOnly allowed (f.pids.getD []) := by
    intro f hf
    obtain ⟨link, hlink, rfl⟩ := List.mem_map.1 hf
    exact hchain link hlink
  refine Layers.keepsOnly_prune ?_
  match hlinks : chain.fragments with
  | [] =>
    rw [hlinks] at hmerge
    cases hmerge
  | [leaf] =>
    rw [hlinks] at hmerge hfragments
    obtain rfl : leaf = merged := Option.some.inj hmerge
    have hleaf := hfragments leaf List.mem_cons_self
    rwa [hwhole] at hleaf
  | leaf :: second :: ancestors =>
    rw [hlinks] at hmerge hfragments
    cases hmerge
    cases hwhole
    exact Layers.keepsOnly_stack fun layer hlayer => hfragments layer (List.mem_reverse.1 hlayer)

end LayeredProfiles
