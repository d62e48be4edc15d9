set_option autoImplicit false

/-!
# Maps in insertion order

Objects of a document, parameter tables and directories keep their entries in the order in which
the keys first appeared. A map is therefore the list of its entries, and writing to a key that is
already present changes the value where it stands.

## Main definitions

* `OrderedMap` — a list of entries.
* `OrderedMap.get?`, `OrderedMap.insert`, `OrderedMap.extend` — look-up, write, write in bulk.
* `OrderedMap.swapErase` — removal that fills the gap with the last entry.
* `OrderedMap.UniqueKeys` — no key occurs twice.

## Main results

* `OrderedMap.get?_insert`, `OrderedMap.get?_extend`, `OrderedMap.get?_insertIfNew` — a write is seen
  at its key and nowhere else.
* `OrderedMap.get?_erase` — so is a removal.
* `OrderedMap.swapErase_perm` — the two removals differ in the order of what is left.
* `OrderedMap.get?_eq_some_iff` — look-up finds the entries, if keys are unique.
* `OrderedMap.keys_insert` — a write keeps the keys, or adds its key at the end.
* `OrderedMap.uniqueKeys_insert`, `OrderedMap.uniqueKeys_ofList` — writing keeps keys unique.
-/

namespace LayeredProfiles

universe u v

/-- A map whose entries stand in the order in which their keys were first written. -/
abbrev OrderedMap (α : Type u) (β : Type v) := List (α × β)

namespace OrderedMap

variable {α : Type u} {β : Type v}

/-- The keys, in order. -/
def keys (m : OrderedMap α β) : List α :=
  m.map Prod.fst

/-- No key occurs twice. -/
def UniqueKeys (m : OrderedMap α β) : Prop :=
  (keys m).Nodup

variable [DecidableEq α]

/-- The value under a key. -/
def get? : OrderedMap α β → α → Option β
  | [], _ => none
  | (k, v) :: rest, key => if k = key then some v else get? rest key

/-- Whether a key is present. -/
def contains (m : OrderedMap α β) (key : α) : Bool :=
  (get? m key).isSome

/-- Writes a value: a key that is present keeps its place, a new one comes last. -/
def insert : OrderedMap α β → α → β → OrderedMap α β
  | [], key, value => [(key, value)]
  | (k, v) :: rest, key, value =>
    if k = key then (k, value) :: rest else (k, v) :: insert rest key value

/-- Writes every entry of `more`, in order. -/
def extend (m more : OrderedMap α β) : OrderedMap α β :=
  more.foldl (fun acc entry => insert acc entry.1 entry.2) m

/-- The map written by a list of entries, of which a later one replaces an earlier one's value. -/
def ofList (entries : List (α × β)) : OrderedMap α β :=
  extend [] entries

/-- Adds an entry under a key that is still free. -/
def insertIfNew (m : OrderedMap α β) (key : α) (value : β) : OrderedMap α β :=
  if contains m key then m else m ++ [(key, value)]

/-- Removes a key, keeping the order of the others. -/
def erase (m : OrderedMap α β) (key : α) : OrderedMap α β :=
  m.filter fun entry => entry.1 ≠ key

/-- Removes a key and moves the last entry into its place. -/
def swapErase : OrderedMap α β → α → OrderedMap α β
  | [], _ => []
  | (k, v) :: rest, key =>
    if k = key then
      match rest.getLast? with
      | none => []
      | some last => last :: rest.dropLast
    else (k, v) :: swapErase rest key

/-! ## What a write changes -/

omit [DecidableEq α] in
@[simp] theorem keys_nil : keys ([] : OrderedMap α β) = [] := rfl

omit [DecidableEq α] in
@[simp] theorem keys_cons (entry : α × β) (m : OrderedMap α β) :
    keys (entry :: m) = entry.1 :: keys m := rfl

omit [DecidableEq α] in
/-- A key stands in an entry. -/
theorem mem_keys_iff {m : OrderedMap α β} {key : α} :
    key ∈ keys m ↔ ∃ value, (key, value) ∈ m := by
  simp [keys]

/-- A write is seen at its key and nowhere else. -/
theorem get?_insert (m : OrderedMap α β) (key other : α) (value : β) :
    get? (insert m key value) other = if key = other then some value else get? m other := by
  induction m with
  | nil => simp [insert, get?]
  | cons entry rest ih =>
    obtain ⟨k, v⟩ := entry
    by_cases hk : k = key
    · subst hk
      by_cases ho : k = other <;> simp [insert, get?, ho]
    · by_cases ho : k = other
      · subst ho
        simp [insert, get?, hk, Ne.symm hk]
      · simp [insert, get?, hk, ho, ih]

/-- A removal is seen at its key and nowhere else. -/
theorem get?_erase (m : OrderedMap α β) (key other : α) :
    get? (erase m key) other = if key = other then none else get? m other := by
  induction m with
  | nil => simp [erase, get?]
  | cons entry rest ih =>
    obtain ⟨k, v⟩ := entry
    unfold erase at ih ⊢
    by_cases hk : k = key
    · rw [List.filter_cons_of_neg (by simp [hk]), ih]
      by_cases ho : key = other <;> simp [get?, hk, ho]
    · rw [List.filter_cons_of_pos (by simp [hk]), get?, get?, ih]
      by_cases ho : k = other
      · simp [ho, Ne.symm (ho ▸ hk)]
      · simp [ho]

/-- Writing what is there already changes nothing. -/
theorem insert_of_get? {m : OrderedMap α β} {key : α} {value : β} (h : get? m key = some value) :
    insert m key value = m := by
  induction m with
  | nil => cases h
  | cons entry rest ih =>
    obtain ⟨k, v⟩ := entry
    by_cases hk : k = key
    · simp_all [get?, insert]
    · simp_all [get?, insert]

/-- Removing a key that was not there before it was written leaves nothing behind. -/
theorem erase_insert_of_not_mem {m : OrderedMap α β} {key : α} (h : key ∉ keys m) (value : β) :
    erase (insert m key value) key = m := by
  induction m with
  | nil => simp [erase, insert]
  | cons entry rest ih =>
    obtain ⟨k, v⟩ := entry
    obtain ⟨hk, hrest⟩ : key ≠ k ∧ key ∉ keys rest := by simpa using h
    unfold erase at ih ⊢
    rw [insert, if_neg (Ne.symm hk), List.filter_cons_of_pos (by simp [Ne.symm hk]), ih hrest]

/-- A key is found exactly if it is one of the keys. -/
theorem get?_isSome_iff (m : OrderedMap α β) (key : α) :
    (get? m key).isSome ↔ key ∈ keys m := by
  induction m with
  | nil => simp [get?]
  | cons entry rest ih =>
    obtain ⟨k, v⟩ := entry
    by_cases hk : k = key
    · simp [get?, hk]
    · simp [get?, hk, ih, Ne.symm hk]

/-- Nothing is found exactly under what is not one of the keys. -/
theorem get?_eq_none_iff (m : OrderedMap α β) (key : α) : get? m key = none ↔ key ∉ keys m := by
  rw [← get?_isSome_iff]
  cases get? m key <;> simp

/-- What something is found under is one of the keys. -/
theorem mem_keys_of_get? {m : OrderedMap α β} {key : α} {value : β} (h : get? m key = some value) :
    key ∈ keys m :=
  (get?_isSome_iff m key).1 (h ▸ rfl)

/-- If keys are unique, what is found under a key is what stands in the entry of that key. -/
theorem get?_eq_some_iff {m : OrderedMap α β} (h : UniqueKeys m) (key : α) (value : β) :
    get? m key = some value ↔ (key, value) ∈ m := by
  induction m with
  | nil => simp [get?]
  | cons entry rest ih =>
    obtain ⟨k, v⟩ := entry
    obtain ⟨hk, hrest⟩ := List.nodup_cons.1 (show (k :: keys rest).Nodup from h)
    by_cases hkey : k = key
    · subst hkey
      have habsent : (k, value) ∉ rest := fun hmem => hk (List.mem_map_of_mem hmem)
      simp [get?, habsent, eq_comm]
    · simp [get?, hkey, Ne.symm hkey, ih hrest]

/-- What is found under a key stands in an entry of that key. -/
theorem mem_of_get? {m : OrderedMap α β} {key : α} {value : β} (h : get? m key = some value) :
    (key, value) ∈ m := by
  induction m with
  | nil => cases h
  | cons entry rest ih =>
    unfold get? at h
    split at h
    · next hkey =>
      obtain rfl := Option.some.inj h
      exact hkey ▸ List.mem_cons_self
    · exact List.mem_cons_of_mem _ (ih h)

/-- A write keeps the keys, or adds its key at the end. -/
theorem keys_insert (m : OrderedMap α β) (key : α) (value : β) :
    keys (insert m key value) = if key ∈ keys m then keys m else keys m ++ [key] := by
  induction m with
  | nil => simp [insert]
  | cons entry rest ih =>
    obtain ⟨k, v⟩ := entry
    by_cases hk : k = key
    · simp [insert, hk]
    · by_cases hm : key ∈ keys rest <;> simp [insert, hk, ih, hm, Ne.symm hk]

/-- A write keeps keys unique. -/
theorem uniqueKeys_insert {m : OrderedMap α β} (h : UniqueKeys m) (key : α) (value : β) :
    UniqueKeys (insert m key value) := by
  unfold UniqueKeys at *
  rw [keys_insert]
  split
  · exact h
  · next hk => simpa [List.nodup_append] using ⟨h, fun a ha hak => hk (hak ▸ ha)⟩

omit [DecidableEq α] in
/-- Leaving entries out keeps keys unique. -/
theorem uniqueKeys_filter {m : OrderedMap α β} (h : UniqueKeys m) (test : α × β → Bool) :
    UniqueKeys (m.filter test) :=
  List.Nodup.sublist (List.Sublist.map Prod.fst List.filter_sublist) h

/-- Writes in bulk are seen at their keys, where they hide what was there before. -/
theorem get?_extend (m : OrderedMap α β) {more : OrderedMap α β} (h : UniqueKeys more) (key : α) :
    get? (extend m more) key = (get? more key).or (get? m key) := by
  induction more generalizing m with
  | nil => simp [extend, get?]
  | cons entry rest ih =>
    obtain ⟨k, v⟩ := entry
    obtain ⟨hk, hrest⟩ := List.nodup_cons.1 (show (k :: keys rest).Nodup from h)
    have step : extend m ((k, v) :: rest) = extend (insert m k v) rest := rfl
    rw [step, ih _ hrest, get?_insert]
    by_cases hkey : k = key
    · subst hkey
      simp [get?, (get?_eq_none_iff rest k).2 hk]
    · simp [get?, hkey]

/-- An entry stood there before a write, or it was written. -/
theorem mem_of_mem_insert {m : OrderedMap α β} {key : α} {value : β} {entry : α × β}
    (h : entry ∈ insert m key value) : entry ∈ m ∨ entry = (key, value) := by
  induction m with
  | nil => exact .inr (List.mem_singleton.1 h)
  | cons first rest ih =>
    unfold insert at h
    split at h
    · next hk =>
      rcases List.mem_cons.1 h with rfl | hrest
      · exact .inr (by rw [hk])
      · exact .inl (List.mem_cons_of_mem _ hrest)
    · rcases List.mem_cons.1 h with rfl | hrest
      · exact .inl List.mem_cons_self
      · exact (ih hrest).imp_left (List.mem_cons_of_mem _)

/-- An entry stood there before writes in bulk, or it is one of those that were written. -/
theorem mem_of_mem_extend {m more : OrderedMap α β} {entry : α × β} (h : entry ∈ extend m more) :
    entry ∈ m ∨ entry ∈ more := by
  induction more generalizing m with
  | nil => exact .inl h
  | cons first rest ih =>
    rcases ih (m := insert m first.1 first.2) h with hinsert | hrest
    · rcases mem_of_mem_insert hinsert with hold | rfl
      · exact .inl hold
      · exact .inr List.mem_cons_self
    · exact .inr (List.mem_cons_of_mem _ hrest)

/-- Writing to a key that is still free adds the entry at the end. -/
theorem insert_of_not_mem {m : OrderedMap α β} {key : α} (h : key ∉ keys m) (value : β) :
    insert m key value = m ++ [(key, value)] := by
  induction m with
  | nil => rfl
  | cons entry rest ih =>
    obtain ⟨hk, hrest⟩ : key ≠ entry.1 ∧ key ∉ keys rest := by simpa using h
    rw [insert, if_neg (Ne.symm hk), ih hrest, List.cons_append]

/-- Writes in bulk under keys that are free and unique add the entries at the end. -/
theorem extend_of_uniqueKeys {m more : OrderedMap α β} (h : UniqueKeys (m ++ more)) :
    extend m more = m ++ more := by
  induction more generalizing m with
  | nil => exact (List.append_nil m).symm
  | cons entry rest ih =>
    have hfree : entry.1 ∉ keys m := by
      unfold UniqueKeys keys at h
      rw [List.map_append, List.map_cons, List.nodup_append] at h
      exact fun hmem => h.2.2 _ hmem _ List.mem_cons_self rfl
    have hstep : extend m (entry :: rest) = extend (insert m entry.1 entry.2) rest := rfl
    rw [hstep, insert_of_not_mem hfree, ih (by simpa using h), List.append_assoc]
    rfl

/-- If keys are unique already, the map that the entries write is the list of the entries. -/
theorem ofList_of_uniqueKeys {entries : OrderedMap α β} (h : UniqueKeys entries) :
    ofList entries = entries :=
  extend_of_uniqueKeys (m := []) h

/-- If keys are unique, leaving entries out hides exactly those. -/
theorem get?_filter {m : OrderedMap α β} (h : UniqueKeys m) (test : α × β → Bool) (key : α) :
    get? (m.filter test) key = (get? m key).filter fun value => test (key, value) := by
  refine Option.ext fun value => ?_
  rw [get?_eq_some_iff (uniqueKeys_filter h test), List.mem_filter, Option.filter_eq_some_iff,
    get?_eq_some_iff h]

/-- What is added under a free key is seen there, and what was there before is seen first. -/
theorem get?_insertIfNew (m : OrderedMap α β) (key other : α) (value : β) :
    get? (insertIfNew m key value) other =
      (get? m other).or (if key = other then some value else none) := by
  have happend : get? (m ++ [(key, value)]) other =
      (get? m other).or (if key = other then some value else none) := by
    induction m with
    | nil => simp [get?]
    | cons entry rest ih =>
      obtain ⟨k, v⟩ := entry
      by_cases hk : k = other <;> simp [get?, hk, ih]
  unfold insertIfNew contains
  split
  · next hfound =>
    by_cases hkey : key = other
    · rw [← hkey, Option.or_of_isSome hfound]
    · simp [hkey]
  · exact happend

/-- Removing a key and filling the gap keeps the entries of the other keys, and no more. -/
theorem swapErase_perm {m : OrderedMap α β} (h : UniqueKeys m) (key : α) :
    (swapErase m key).Perm (erase m key) := by
  induction m with
  | nil => exact .nil
  | cons entry rest ih =>
    obtain ⟨hfree, hrest⟩ := List.nodup_cons.1 (show (entry.1 :: keys rest).Nodup from h)
    unfold erase at ih ⊢
    unfold swapErase
    split
    · next hkey =>
      subst hkey
      have hkept : rest.filter (fun other => other.1 ≠ entry.1) = rest :=
        List.filter_eq_self.2 fun other hother =>
          decide_eq_true fun heq => hfree (heq ▸ List.mem_map_of_mem hother)
      rw [List.filter_cons_of_neg (by simp), hkept]
      split
      · next hlast => rw [List.getLast?_eq_none_iff.1 hlast]
      · next last hlast =>
        obtain ⟨front, rfl⟩ := List.getLast?_eq_some_iff.1 hlast
        simpa using (List.perm_append_singleton last front).symm
    · next hkey =>
      rw [List.filter_cons_of_pos (by simpa using hkey)]
      exact (ih hrest).cons entry

/-- Writes in bulk keep keys unique. -/
theorem uniqueKeys_extend {m : OrderedMap α β} (h : UniqueKeys m) (more : OrderedMap α β) :
    UniqueKeys (extend m more) := by
  unfold extend
  induction more generalizing m with
  | nil => exact h
  | cons entry rest ih => exact ih (uniqueKeys_insert h entry.1 entry.2)

/-- Whatever the entries, the map they write has unique keys. -/
theorem uniqueKeys_ofList (entries : List (α × β)) : UniqueKeys (ofList entries) :=
  uniqueKeys_extend (show UniqueKeys ([] : OrderedMap α β) from List.nodup_nil) entries

end OrderedMap

end LayeredProfiles
