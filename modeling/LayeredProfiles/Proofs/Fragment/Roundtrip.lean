import LayeredProfiles.Fragment.Writing
import LayeredProfiles.Proofs.Fragment.Reading
import LayeredProfiles.Proofs.Layers.Extras

set_option autoImplicit false

/-!
# Tables that are written and read again

A table is written as a list of requests, each with its own keys first and what it keeps last. When
the list is read, own keys are told from others by their names. So what is read is what was written
as long as no request keeps a field under a key that requests know. Both forms of a table are read
that way, and layers that are put on top of each other keep it so, since they only hand fields on.

## Main definitions

* `PidEntry.KeepsUnknown` — the requests of a table keep unknown keys only.
* `PidEntry.Reached` — the tables of documents, and what layering makes of them.

## Main results

* `PidEntry.ofItem?_toJson` — a request is read from what it is written as.
* `PidEntry.table?_tableToJson` — so is a table.
* `PidEntry.Reached.keepsUnknown` — what the requests of a table that is reached keep.
* `Fragment.table_reread` — a document with a table that was written.
-/

namespace LayeredProfiles

namespace PidEntry

variable {entry : PidEntry} {table : List PidEntry}

/-! ## One request -/

/-- The own keys of what may have a setup. -/
lemma keys_own_sublist (first key last : String) (setup : Option String) (a b : Json) :
    (OrderedMap.keys (((first, a) :: optionalField key setup) ++ [(last, b)])).Sublist
      [first, key, last] := by
  cases setup with
  | none => exact .cons_cons first (.cons key (.refl [last]))
  | some s => exact .refl [first, key, last]

/-- The own fields of a request: its code, its setup if it has one, and its parameters. -/
def ownFields (entry : PidEntry) : OrderedMap String Json :=
  (("pid", .text entry.code) :: optionalField "pid_init" entry.setup) ++
    [("parameters", expressionsToJson entry.parameters)]

/-- A request is written with its own fields first. -/
lemma toJson_eq (entry : PidEntry) : entry.toJson = .object (entry.ownFields ++ entry.extra) :=
  congrArg Json.object (List.append_cons _ _ _)

/-- The own fields of a request have keys that requests know. -/
lemma keys_ownFields_sublist (entry : PidEntry) :
    (OrderedMap.keys entry.ownFields).Sublist ownKeys :=
  keys_own_sublist _ _ _ _ _ _

/-- A request that keeps unknown keys with tidy values is written as a tidy object. -/
lemma tidy_toJson (h : ∀ field ∈ entry.extra, Keeps field) : entry.toJson.Tidy := by
  have hparameters : (expressionsToJson entry.parameters).Tidy := by
    refine ⟨uniqueKeys_expressions_iff.2 entry.parameters_unique,
      Json.tidyFields_iff.2 fun field hfield => ?_⟩
    obtain ⟨p, -, rfl⟩ := List.mem_map.1 hfield
    trivial
  rw [toJson_eq]
  refine Json.tidy_object_of_own ownKeys _ (by decide) entry.keys_ownFields_sublist ?_
    ⟨entry.extra_unique, Json.tidyFields_iff.2 fun field hfield => (h field hfield).2⟩
    fun field hfield => (h field hfield).1
  cases hsetup : entry.setup <;> simpa [ownFields, hsetup, optionalField, Json.Tidy] using hparameters

/-- Beyond its own fields a request is written as what it keeps. -/
lemma fieldsBeyond_written (h : ∀ field ∈ entry.extra, Keeps field) :
    fieldsBeyond ownKeys (entry.ownFields ++ entry.extra) = entry.extra := by
  have hown : fieldsBeyond ownKeys entry.ownFields = [] := by
    refine List.filter_eq_nil_iff.2 fun field hfield => ?_
    simpa using entry.keys_ownFields_sublist.subset (List.mem_map_of_mem hfield)
  have hextra : fieldsBeyond ownKeys entry.extra = entry.extra :=
    List.filter_eq_self.2 fun field hfield => by simpa using (h field hfield).1
  unfold fieldsBeyond at hown hextra ⊢
  rw [List.filter_append, hown, hextra, List.nil_append]

/-- A request that is made of what it has is that request. -/
lemma of_self (entry : PidEntry) :
    .of entry.code entry.setup entry.parameters entry.extra = entry := by
  cases entry with
  | mk code setup parameters extra hparameters hextra =>
    simp only [of, OrderedMap.ofList_of_uniqueKeys hparameters,
      OrderedMap.ofList_of_uniqueKeys hextra]

/-- **A request is read from what it is written as**, if it keeps unknown keys. -/
lemma ofItem?_toJson (h : ∀ field ∈ entry.extra, Keeps field) :
    ofItem? entry.toJson = some entry := by
  have hsetup : OrderedMap.get? (entry.ownFields ++ entry.extra) "pid_init" =
      entry.setup.map Json.text := by
    have hfree : OrderedMap.get? entry.extra "pid_init" = none := by
      rw [OrderedMap.get?_eq_none_iff, OrderedMap.mem_keys_iff]
      rintro ⟨value, hfield⟩
      exact (h _ hfield).1 (by simp [ownKeys])
    cases hsetup : entry.setup <;>
      simp [ownFields, hsetup, optionalField, OrderedMap.get?, hfree]
  have hparameters : OrderedMap.get? (entry.ownFields ++ entry.extra) "parameters" =
      some (expressionsToJson entry.parameters) := by
    cases hsetup : entry.setup <;> simp [ownFields, hsetup, optionalField, OrderedMap.get?]
  refine ofItem?_eq_some_iff.2 ⟨_, entry.code, entry.parameters, entry.toJson_eq, rfl, ?_,
    hparameters, ?_⟩
  · rw [hsetup]
    cases entry.setup <;> simp [MaybeText]
  · have htext : (entry.setup.map Json.text).bind Json.text? = entry.setup := by
      cases entry.setup <;> rfl
    rw [fieldsBeyond_written h, hsetup, htext, of_self]

/-! ## Tables -/

/-- The requests of a table keep unknown keys with tidy values. -/
def KeepsUnknown (table : List PidEntry) : Prop :=
  Layers.KeepsOnly (fun _ => Keeps) table

/-- A table is read from the list that it is written as. -/
lemma table?_tableToJson (h : KeepsUnknown table) : table? (tableToJson table) = some table := by
  refine Steps.mapM_eq_some_iff.2 (List.forall₂_map_left_iff.2 (List.forall₂_same.2 ?_))
  exact fun entry hentry => ofItem?_toJson (h entry hentry)

/-- A table is written as a list of tidy objects. -/
lemma tidy_tableToJson (h : KeepsUnknown table) : (tableToJson table).Tidy :=
  Json.tidyItems_iff.2 (List.forall_mem_map.2 fun entry hentry => tidy_toJson (h entry hentry))

/-- The tables that are reached: those of fragments that were read, and what becomes of these when
layers are put on top of each other and disabled parameters are dropped, in any order. -/
inductive Reached : (table : List PidEntry) → Prop
  /-- The table of a fragment that was read. -/
  | read {path : Path} {document : Json} {f : Fragment} {table : List PidEntry}
      (htidy : document.Tidy) (h : Fragment.ofDocument path document = .ok f)
      (htable : f.pids = some table) : Reached table
  /-- A table that is reached, on top of another one. -/
  | apply {table layer : List PidEntry} (htable : Reached table) (hlayer : Reached layer) :
      Reached (Layers.apply table layer)
  /-- A table that is reached, without what is disabled. -/
  | prune {table : List PidEntry} (htable : Reached table) : Reached (Layers.prune table)

/-- **What the requests of a table that is reached keep**: unknown keys with tidy values. -/
lemma Reached.keepsUnknown (h : Reached table) : KeepsUnknown table := by
  induction h with
  | @read path document f table htidy hread htable =>
    rw [Fragment.ofDocument, Steps.mapError_eq_ok_iff] at hread
    cases document with
    | object fields =>
      have hkeeps := Fragment.keeps_of_ofJson htidy hread
      rwa [htable] at hkeeps
    | _ => cases hread
  | apply _ _ htable hlayer => exact Layers.keepsOnly_apply htable hlayer
  | prune _ htable => exact Layers.keepsOnly_prune htable

end PidEntry

namespace Fragment

/-- **A table that was written is read again.** Take a table of a fragment that was read, from either
form, or one that is reached from such tables by putting layers on top of each other and dropping
disabled parameters. No object in the list that it is written as has a key twice. And whatever
document a fragment is read from, if the list is put in the place of its table, or added if it has
none, the same fragment is read but for its table, which is the one that was written: the same
requests in the same order, each with its code, its setup, its parameters and what it keeps, in their
order.

**Proof sketch.** No request of a table that is reached keeps a field under a key that requests know
(`PidEntry.Reached.keepsUnknown`): reading sorts such fields out, and layering makes up none
(`Layers.keepsOnly_apply`). Then the own fields of a request are told from those that it keeps
(`PidEntry.ofItem?_toJson`). -/
theorem table_reread (path : Path) {fields : OrderedMap String Json} {f : Fragment}
    {table : List PidEntry} (hreached : PidEntry.Reached table) (htidy : (Json.object fields).Tidy)
    (hread : ofDocument path (.object fields) = .ok f) :
    (PidEntry.tableToJson table).Tidy ∧
      ofDocument path (.object (OrderedMap.insert fields "pids" (PidEntry.tableToJson table))) =
        .ok { f with pids := some table } := by
  have hkeeps := hreached.keepsUnknown
  refine ⟨PidEntry.tidy_tableToJson hkeeps, ?_⟩
  rw [ofDocument, Steps.mapError_eq_ok_iff] at hread ⊢
  exact ofJson_insert_pids htidy.1 hread (PidEntry.table?_tableToJson hkeeps)

/-- A base with its requests in a mapping: a code inside, other fields, and a setup. -/
def sampleMapped : Json :=
  .object [("pids", .object [
    ("A", .object [("pid", .integer 7), ("x", .integer 1),
      ("parameters", .object [("S", .text "1"), ("R", .text "2")]), ("y", .null)]),
    ("B", .object [("pid_init", .text "i"), ("parameters", .object [("T", .text "3")])])])]

/-- A layer with a list of requests that takes a parameter over, disables one and adds fields. -/
def sampleListed : Json :=
  .object [("pids", .array [
    .object [("parameters", .object [("Q", .text "4"), ("R", .text "")]), ("y", .bool true),
      ("pid", .text "A"), ("z", .text "5")],
    .object [("pid", .text "C"), ("parameters", .object [("T", .text "6")])]])]

/-- The layer on top of the base, without what is disabled. -/
def sampleMerged : List PidEntry :=
  [.of "A" none [("S", "1"), ("Q", "4")] [("y", .bool true), ("x", .integer 1), ("z", .text "5")],
    .of "C" none [("T", "6")] []]

/-- The merged table is read from the list that it is written as, added to a document that has
none. -/
theorem table_reread_sampleMerged :
    PidEntry.Reached sampleMerged ∧ (PidEntry.tableToJson sampleMerged).Tidy ∧
      ofDocument ⟨"p"⟩ (.object [("x", .null), ("pids", PidEntry.tableToJson sampleMerged)]) =
        .ok { empty with pids := some sampleMerged, extra := [("x", .null)] } := by
  have hmapped : sampleMapped.Tidy := by
    simp [sampleMapped, Json.Tidy, Json.TidyFields, OrderedMap.UniqueKeys, OrderedMap.keys]
  have hlisted : sampleListed.Tidy := by
    simp [sampleListed, Json.Tidy, Json.TidyFields, Json.TidyItems, OrderedMap.UniqueKeys,
      OrderedMap.keys]
  have hbase : ofDocument ⟨"base"⟩ sampleMapped = .ok { empty with
      pids := some [.of "A" none [("S", "1"), ("R", "2")] [("y", .null), ("x", .integer 1)],
        .of "B" (some "i") [("T", "3")] []] } := by decide +kernel
  have hlayer : ofDocument ⟨"layer"⟩ sampleListed = .ok { empty with
      pids := some [.of "A" none [("Q", "4"), ("R", "")] [("y", .bool true), ("z", .text "5")],
        .of "C" none [("T", "6")] []] } := by decide +kernel
  have hreached : PidEntry.Reached sampleMerged :=
    (PidEntry.Reached.apply (.read hmapped hbase rfl) (.read hlisted hlayer rfl)).prune
  have htidy : (Json.object [("x", .null)]).Tidy := by
    simp [Json.Tidy, Json.TidyFields, OrderedMap.UniqueKeys, OrderedMap.keys]
  have hread : ofDocument ⟨"p"⟩ (.object [("x", .null)]) =
      .ok { empty with extra := [("x", .null)] } := by decide +kernel
  obtain ⟨hwritten, hagain⟩ := table_reread ⟨"p"⟩ hreached htidy hread
  exact ⟨hreached, hwritten, hagain⟩

end Fragment

end LayeredProfiles
