import LayeredProfiles.OrderedMap
import Mathlib.Tactic.Lemma

set_option autoImplicit false

/-!
# Writing to maps

Writes in bulk leave the keys in the order in which they occur first, and under each key the value
that is written last. Where the keys are free, what was there before stays in front, as it is. Writes
and removals at different keys do not get in each other's way, but two keys that are both new stand in
the order in which they are written. Writing in bulk is associative: it does not matter whether writes
are made one after the other or gathered first. So it does not matter either if they are made again.

## Main results

* `OrderedMap.keys_extend`, `OrderedMap.keys_ofList` — the order of keys after writes.
* `OrderedMap.extend_eq_append` — writes under keys that are free.
* `OrderedMap.get?_extend_flatMap` — of several lists of writes the last one that has a key counts.
* `OrderedMap.erase_insert_of_ne`, `OrderedMap.erase_comm`, `OrderedMap.insert_comm` — writes and
  removals at different keys, in either order.
* `OrderedMap.extend_extend` — writes that are gathered first.
* `OrderedMap.extend_extend_self` — writes that are repeated.
* `OrderedMap.get?_ofList` — of several writes under one key the last one is seen.
* `OrderedMap.filter_extend` — leaving keys out before or after writes.
-/

namespace LayeredProfiles.OrderedMap

universe u v

variable {α : Type u} {β : Type v} [DecidableEq α]

/-- What is added at the end of a list occurs there first unless it occurred before. -/
lemma eraseDups_concat (items : List α) (item : α) :
    (items ++ [item]).eraseDups =
      if item ∈ items.eraseDups then items.eraseDups else items.eraseDups ++ [item] := by
  rw [List.eraseDups_append]
  by_cases h : item ∈ items <;> simp [List.removeAll, List.eraseDups_cons, h]

/-- Writes in bulk add keys in the order in which they occur first. -/
lemma keys_extend {m : OrderedMap α β} {before : List α} (h : keys m = before.eraseDups)
    (more : OrderedMap α β) : keys (extend m more) = (before ++ keys more).eraseDups := by
  induction more generalizing m before with
  | nil => simpa [extend] using h
  | cons entry rest ih =>
    have hinsert : keys (insert m entry.1 entry.2) = (before ++ [entry.1]).eraseDups := by
      rw [keys_insert, h, eraseDups_concat]
    have hrest := ih hinsert
    rw [List.append_assoc, List.singleton_append] at hrest
    exact hrest

/-- The keys of the map that entries write stand in the order in which they occur first. -/
lemma keys_ofList (entries : List (α × β)) :
    keys (ofList entries) = (entries.map Prod.fst).eraseDups := by
  have hnone : keys ([] : OrderedMap α β) = ([] : List α).eraseDups := rfl
  exact keys_extend hnone entries

/-- What is found in two lists of entries is found in the first one, or else in the second. -/
lemma get?_append (m n : OrderedMap α β) (key : α) :
    get? (m ++ n) key = (get? m key).or (get? n key) := by
  induction m with
  | nil => exact (Option.none_or).symm
  | cons entry rest ih =>
    rw [List.cons_append, get?, get?, ih]
    split
    · exact (Option.some_or).symm
    · rfl

/-- Of writes in bulk under one key the last one is seen. -/
lemma get?_extend_reverse (m more : OrderedMap α β) (key : α) :
    get? (extend m more) key = (get? more.reverse key).or (get? m key) := by
  induction more generalizing m with
  | nil => exact (Option.none_or).symm
  | cons entry rest ih =>
    have hstep : extend m (entry :: rest) = extend (insert m entry.1 entry.2) rest := rfl
    rw [hstep, ih, List.reverse_cons, get?_append, get?_insert, Option.or_assoc]
    refine congrArg _ ?_
    by_cases hkey : entry.1 = key <;> simp [get?, hkey]

/-- The map that entries write has the last of the values that are written under a key. -/
lemma get?_ofList (entries : List (α × β)) (key : α) :
    get? (ofList entries) key = get? entries.reverse key :=
  (get?_extend_reverse [] entries key).trans Option.or_none

/-- A write under a key that the front does not have goes past it. -/
lemma insert_append {m : OrderedMap α β} {key : α} (h : key ∉ keys m) (n : OrderedMap α β)
    (value : β) : insert (m ++ n) key value = m ++ insert n key value := by
  induction m with
  | nil => rfl
  | cons first rest ih =>
    obtain ⟨hfirst, hrest⟩ : key ≠ first.1 ∧ key ∉ keys rest := by simpa using h
    rw [List.cons_append, insert, if_neg (Ne.symm hfirst), ih hrest, List.cons_append]

/-- Writes in bulk under keys that the front does not have go past it. -/
lemma extend_append {m more : OrderedMap α β} (h : ∀ key ∈ keys more, key ∉ keys m)
    (n : OrderedMap α β) : extend (m ++ n) more = m ++ extend n more := by
  induction more generalizing n with
  | nil => rfl
  | cons entry rest ih =>
    obtain ⟨hentry, hrest⟩ := List.forall_mem_cons.1 h
    have hstep : extend (m ++ n) (entry :: rest) =
        extend (insert (m ++ n) entry.1 entry.2) rest := rfl
    rw [hstep, insert_append hentry, ih hrest]
    rfl

/-- Writes under keys that are free leave what was there before in front. -/
lemma extend_eq_append {m more : OrderedMap α β} (h : ∀ key ∈ keys more, key ∉ keys m) :
    extend m more = m ++ ofList more := by
  have happend := extend_append h []
  rwa [List.append_nil] at happend

/-- Of several lists of writes the last one that has a key counts under it. -/
lemma get?_extend_flatMap {ι : Type} (items : List ι) {writes : ι → OrderedMap α β}
    (hunique : ∀ item, UniqueKeys (writes item)) (m : OrderedMap α β) (key : α) :
    get? (extend m (items.flatMap writes)) key =
      ((items.filterMap fun item => get? (writes item) key).getLast?).or (get? m key) := by
  induction items generalizing m with
  | nil => rfl
  | cons item rest ih =>
    have hstep : extend m ((item :: rest).flatMap writes) =
        extend (extend m (writes item)) (rest.flatMap writes) := List.foldl_append
    rw [hstep, ih, get?_extend m (hunique item), ← Option.or_assoc, List.filterMap_cons]
    cases get? (writes item) key with
    | none => simp
    | some value => simp [List.getLast?_cons, Option.or_some]

/-! ## Writes and removals at different keys -/

/-- A write goes to the first entry if that has its key, and else past it. -/
lemma insert_cons (first : α × β) (rest : OrderedMap α β) (key : α) (value : β) :
    insert (first :: rest) key value =
      if first.1 = key then (first.1, value) :: rest else first :: insert rest key value :=
  rfl

/-- A removal takes the first entry if that has its key, and goes past it in any case. -/
lemma erase_cons (first : α × β) (rest : OrderedMap α β) (key : α) :
    erase (first :: rest) key = if first.1 = key then erase rest key else first :: erase rest key := by
  unfold erase
  by_cases hkey : first.1 = key <;> simp [hkey]

/-- A key that is not there can be removed either way. -/
lemma swapErase_eq_erase {m : OrderedMap α β} {key : α} (h : key ∉ keys m) :
    swapErase m key = erase m key := by
  induction m with
  | nil => rfl
  | cons first rest ih =>
    obtain ⟨hfirst, hrest⟩ : key ≠ first.1 ∧ key ∉ keys rest := by simpa using h
    rw [swapErase, if_neg (Ne.symm hfirst), ih hrest, erase_cons, if_neg (Ne.symm hfirst)]

/-- Removing a key takes a write under it away. -/
lemma erase_insert_self (m : OrderedMap α β) (key : α) (value : β) :
    erase (insert m key value) key = erase m key := by
  induction m with
  | nil => simp [insert, erase]
  | cons first rest ih =>
    rw [insert_cons, erase_cons]
    by_cases hkey : first.1 = key
    · rw [if_pos hkey, if_pos hkey, erase_cons, if_pos hkey]
    · rw [if_neg hkey, if_neg hkey, erase_cons, if_neg hkey, ih]

/-- Writing under one key and removing another one can be done in either order. -/
lemma erase_insert_of_ne {key other : α} (h : key ≠ other) (m : OrderedMap α β) (value : β) :
    erase (insert m key value) other = insert (erase m other) key value := by
  induction m with
  | nil => simp [insert, erase, h]
  | cons first rest ih =>
    rw [insert_cons, erase_cons]
    by_cases hkey : first.1 = key
    · rw [if_pos hkey, if_neg (hkey ▸ h), erase_cons, insert_cons, if_pos hkey, if_neg (hkey ▸ h)]
    · rw [if_neg hkey, erase_cons, ih]
      split
      · rfl
      · rw [insert_cons, if_neg hkey]

/-- Keys can be removed in either order. -/
lemma erase_comm (m : OrderedMap α β) (key other : α) :
    erase (erase m key) other = erase (erase m other) key := by
  unfold erase
  rw [List.filter_filter, List.filter_filter]
  exact List.filter_congr fun entry _ => Bool.and_comm _ _

/-- A key that is there already keeps its place, so writing under it can be done before or after a
write under another key. -/
lemma insert_comm {m : OrderedMap α β} {key other : α} (h : key ≠ other) (hthere : other ∈ keys m)
    (value more : β) :
    insert (insert m key value) other more = insert (insert m other more) key value := by
  induction m with
  | nil => simp at hthere
  | cons first rest ih =>
    rw [insert_cons, insert_cons first rest other]
    by_cases hkey : first.1 = key
    · rw [if_pos hkey, if_neg (hkey ▸ h), insert_cons, insert_cons, if_neg (hkey ▸ h), if_pos hkey]
    · rw [if_neg hkey, insert_cons]
      by_cases hother : first.1 = other
      · rw [if_pos hother, if_pos hother, insert_cons, if_neg hkey]
      · have hrest : other ∈ keys rest := by
          simpa [Ne.symm hother] using hthere
        rw [if_neg hother, if_neg hother, insert_cons, if_neg hkey, ih hrest]

/-! ## Writes that are gathered first -/

/-- A key that is written, or that was there before, is there. -/
lemma mem_keys_insert (m : OrderedMap α β) (key : α) (value : β) (other : α) :
    other ∈ keys (insert m key value) ↔ other ∈ keys m ∨ other = key := by
  rw [keys_insert]
  split
  · next hthere => exact ⟨.inl, fun h => h.elim id fun heq => heq ▸ hthere⟩
  · simp

/-- What is written under a key is written over by what is written there next. -/
lemma insert_insert_self (m : OrderedMap α β) (key : α) (value more : β) :
    insert (insert m key value) key more = insert m key more := by
  induction m with
  | nil => simp [insert]
  | cons first rest ih =>
    rw [insert_cons, insert_cons]
    by_cases hkey : first.1 = key
    · rw [if_pos hkey, if_pos hkey, insert_cons, if_pos hkey]
    · rw [if_neg hkey, if_neg hkey, insert_cons, if_neg hkey, ih]

/-- What is added under a free key is written over by what is written there next. -/
lemma insert_insertIfNew (m : OrderedMap α β) (key : α) (value more : β) :
    insert (insertIfNew m key value) key more = insert m key more := by
  unfold insertIfNew
  split
  · rfl
  · next hfree =>
    have hnew : key ∉ keys m := by
      rw [← get?_isSome_iff]
      exact hfree
    rw [← insert_of_not_mem hnew, insert_insert_self]

/-- A key that is there already and is not written again can be written before or after writes in
bulk. -/
lemma insert_extend {m more : OrderedMap α β} {key : α} (hthere : key ∈ keys m)
    (hnew : key ∉ keys more) (value : β) :
    insert (extend m more) key value = extend (insert m key value) more := by
  induction more generalizing m with
  | nil => rfl
  | cons entry rest ih =>
    obtain ⟨hentry, hrest⟩ : key ≠ entry.1 ∧ key ∉ keys rest := by simpa using hnew
    have hkept : key ∈ keys (insert m entry.1 entry.2) := (mem_keys_insert m _ _ key).2 (.inl hthere)
    have hstep : extend m (entry :: rest) = extend (insert m entry.1 entry.2) rest := rfl
    have hswap : extend (insert m key value) (entry :: rest) =
        extend (insert (insert m key value) entry.1 entry.2) rest := rfl
    rw [hstep, hswap, ih hkept hrest, insert_comm (Ne.symm hentry) hthere]

/-- A write can be gathered with earlier ones. -/
lemma extend_insert {n : OrderedMap α β} (h : UniqueKeys n) (m : OrderedMap α β) (key : α)
    (value : β) : extend m (insert n key value) = insert (extend m n) key value := by
  induction n generalizing m with
  | nil => rfl
  | cons first rest ih =>
    obtain ⟨hfirst, hrest⟩ := List.nodup_cons.1 (show (first.1 :: keys rest).Nodup from h)
    have hstep : extend m (first :: rest) = extend (insert m first.1 first.2) rest := rfl
    rw [insert_cons, hstep]
    by_cases hkey : first.1 = key
    · subst hkey
      have hthere : first.1 ∈ keys (insert m first.1 first.2) :=
        (mem_keys_insert m _ _ _).2 (.inr rfl)
      rw [if_pos rfl, insert_extend hthere hfirst, insert_insert_self]
      rfl
    · rw [if_neg hkey]
      exact ih hrest (insert m first.1 first.2)

/-- **Writing in bulk is associative**: writes can be gathered first. -/
lemma extend_extend {n : OrderedMap α β} (h : UniqueKeys n) (m more : OrderedMap α β) :
    extend m (extend n more) = extend (extend m n) more := by
  induction more generalizing n with
  | nil => rfl
  | cons entry rest ih =>
    have hstep : extend n (entry :: rest) = extend (insert n entry.1 entry.2) rest := rfl
    rw [hstep, ih (uniqueKeys_insert h entry.1 entry.2), extend_insert h]
    rfl

/-- Writing what is there already changes nothing, in bulk as well. -/
lemma extend_of_get? {m more : OrderedMap α β}
    (h : ∀ entry ∈ more, get? m entry.1 = some entry.2) : extend m more = m := by
  induction more with
  | nil => rfl
  | cons entry rest ih =>
    obtain ⟨hentry, hrest⟩ := List.forall_mem_cons.1 h
    have hstep : extend m (entry :: rest) = extend (insert m entry.1 entry.2) rest := rfl
    rw [hstep, insert_of_get? hentry, ih hrest]

/-- **Writes that are repeated change nothing**, even if they write under one key several times. -/
lemma extend_extend_self (m more : OrderedMap α β) :
    extend (extend m more) more = extend m more := by
  have hunique : UniqueKeys (ofList more) := uniqueKeys_ofList more
  have hnil : UniqueKeys ([] : OrderedMap α β) := List.nodup_nil
  -- writes that are gathered have one value for each key, and it is there already
  have hgathered : ∀ n : OrderedMap α β, extend n (ofList more) = extend n more :=
    fun n => extend_extend hnil n more
  have hsame : extend (ofList more) (ofList more) = ofList more :=
    extend_of_get? fun entry hentry => (get?_eq_some_iff hunique _ _).2 hentry
  calc extend (extend m more) more
      = extend (extend m (ofList more)) (ofList more) := by rw [hgathered, hgathered]
    _ = extend m (extend (ofList more) (ofList more)) := (extend_extend hunique m _).symm
    _ = extend m more := by rw [hsame, hgathered]

/-- A key that is among the writes, or that was there before, is there. -/
lemma mem_keys_extend (m : OrderedMap α β) {more : OrderedMap α β} (h : UniqueKeys more) (key : α) :
    key ∈ keys (extend m more) ↔ key ∈ keys m ∨ key ∈ keys more := by
  rw [← get?_isSome_iff, get?_extend m h, Option.isSome_or, Bool.or_eq_true, get?_isSome_iff,
    get?_isSome_iff, or_comm]

/-- Leaving keys out before or after a write. -/
lemma filter_insert (m : OrderedMap α β) (test : α → Bool) (key : α) (value : β) :
    (insert m key value).filter (fun entry => test entry.1) =
      if test key then insert (m.filter fun entry => test entry.1) key value
      else m.filter fun entry => test entry.1 := by
  induction m with
  | nil => cases htest : test key <;> simp [insert, htest]
  | cons first rest ih =>
    rw [insert_cons]
    by_cases hkey : first.1 = key
    · subst hkey
      cases htest : test first.1 <;> simp [htest, insert_cons]
    · rw [if_neg hkey, List.filter_cons, List.filter_cons, ih]
      cases test first.1 <;> cases test key <;> simp [insert_cons, hkey]

/-- Keys can be left out before or after writes in bulk. -/
lemma filter_extend (m more : OrderedMap α β) (test : α → Bool) :
    (extend m more).filter (fun entry => test entry.1) =
      extend (m.filter fun entry => test entry.1) (more.filter fun entry => test entry.1) := by
  induction more generalizing m with
  | nil => rfl
  | cons entry rest ih =>
    have hstep : extend m (entry :: rest) = extend (insert m entry.1 entry.2) rest := rfl
    rw [hstep, ih, filter_insert, List.filter_cons]
    cases test entry.1 <;> rfl

end LayeredProfiles.OrderedMap
