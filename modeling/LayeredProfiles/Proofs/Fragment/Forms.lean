import LayeredProfiles.Proofs.Fragment.Reading

set_option autoImplicit false

/-!
# The two forms of a table

A table of requests is a mapping from codes to bodies or a list of bodies that have their codes
inside. The forms are read in different ways: a list takes the code out of the item as one of the
fields that requests know, and a mapping drops a code inside by moving the last other field into its
place. Still they accept the same bodies and yield the same requests, up to the order of what a
request keeps beside a code that was dropped.

## Main definitions

* `PidEntry.mapping` — a table as a mapping.
* `PidEntry.IsListed` — a body as an item of a list.
* `PidEntry.Alike` — requests that were read from one body in the two forms.

## Main results

* `PidEntry.ofItem?_of_isListed`, `PidEntry.ofField?_body` — what is read from a body in either form.
* `PidEntry.exists_table?_array_iff` — both forms can be read or none.
* `PidEntry.alike_of_read` — what is read from a body is alike.
* `Fragment.forms_agree` — a document with a table in one form and in the other one.
-/

namespace LayeredProfiles

namespace PidEntry

/-- A table as a mapping from codes to bodies. -/
def mapping (bodies : List (String × OrderedMap String Json)) : Json :=
  .object (bodies.map fun body => (body.1, .object body.2))

/-- An item of a list that is a body with its code inside: the code stands in the place of one that
was there or anywhere else, and the other fields stand as they are. -/
def IsListed (body : String × OrderedMap String Json) (item : Json) : Prop :=
  ∃ fields, item = .object fields ∧ OrderedMap.get? fields "pid" = some (.text body.1) ∧
    OrderedMap.erase fields "pid" = OrderedMap.erase body.2 "pid"

/-- Requests that were read from a body in the two forms: they say the same. -/
structure Alike (body : String × OrderedMap String Json) (a b : PidEntry) : Prop where
  /-- Both have the code of the body. -/
  code : a.code = body.1 ∧ b.code = body.1
  /-- They have the same setup. -/
  setup : a.setup = b.setup
  /-- They have the same parameters, in the same order. -/
  parameters : a.parameters = b.parameters
  /-- They keep the same fields. -/
  extra : a.extra.Perm b.extra
  /-- They keep them in the same order if there is no code in the body. -/
  order : "pid" ∉ OrderedMap.keys body.2 → a.extra = b.extra

variable {body : String × OrderedMap String Json} {item : Json} {entry : PidEntry}

/-! ## One request -/

/-- Writing the code into a body makes an item of it. -/
lemma isListed_insert (body : String × OrderedMap String Json) :
    IsListed body (.object (OrderedMap.insert body.2 "pid" (.text body.1))) := by
  refine ⟨_, rfl, ?_, OrderedMap.erase_insert_self _ _ _⟩
  rw [OrderedMap.get?_insert, if_pos rfl]

/-- What requests do not know is left whether or not a code is there. -/
lemma fieldsBeyond_erase (fields : OrderedMap String Json) :
    fieldsBeyond ownKeys (OrderedMap.erase fields "pid") = fieldsBeyond ownKeys fields := by
  unfold fieldsBeyond OrderedMap.erase
  rw [List.filter_filter]
  refine List.filter_congr fun field _ => ?_
  simpa [ownKeys] using fun h _ _ => h

/-- What is read from a body as an item of a list. -/
lemma ofItem?_of_isListed (h : IsListed body item) :
    ofItem? item = some entry ↔ ∃ expressions, MaybeText (OrderedMap.get? body.2 "pid_init") ∧
      OrderedMap.get? body.2 "parameters" = some (expressionsToJson expressions) ∧
      entry = .of body.1 ((OrderedMap.get? body.2 "pid_init").bind Json.text?) expressions
        (fieldsBeyond ownKeys body.2) := by
  obtain ⟨fields, rfl, hcode, hothers⟩ := h
  have hget : ∀ key, "pid" ≠ key → OrderedMap.get? fields key = OrderedMap.get? body.2 key := by
    intro key hkey
    have hsame := congrArg (OrderedMap.get? · key) hothers
    simpa [OrderedMap.get?_erase, hkey] using hsame
  have hbeyond : fieldsBeyond ownKeys fields = fieldsBeyond ownKeys body.2 := by
    rw [← fieldsBeyond_erase fields, hothers, fieldsBeyond_erase]
  rw [ofItem?_eq_some_iff, ← hbeyond, ← hget "pid_init" (by decide),
    ← hget "parameters" (by decide)]
  simp [hcode]

/-- What is read from a body under its code. -/
lemma ofField?_body : ofField? (body.1, .object body.2) = some entry ↔
    ∃ expressions, MaybeText (OrderedMap.get? body.2 "pid_init") ∧
      OrderedMap.get? body.2 "parameters" = some (expressionsToJson expressions) ∧
      entry = .of body.1 ((OrderedMap.get? body.2 "pid_init").bind Json.text?) expressions
        (OrderedMap.swapErase (fieldsBeyond ["pid_init", "parameters"] body.2) "pid") := by
  rw [ofField?_eq_some_iff]
  simp

/-- A request is read from a body in both forms or in none. -/
lemma exists_ofItem?_iff (h : IsListed body item) : (∃ entry, ofItem? item = some entry) ↔
    ∃ entry, ofField? (body.1, .object body.2) = some entry := by
  simp only [ofItem?_of_isListed h, ofField?_body]
  constructor
  all_goals
    rintro ⟨_, expressions, hsetup, hwritten, -⟩
    exact ⟨_, expressions, hsetup, hwritten, rfl⟩

/-- Without a code in a body, both forms keep the other fields as they are. -/
lemma swapErase_fieldsBeyond_of_not_mem {fields : OrderedMap String Json}
    (h : "pid" ∉ OrderedMap.keys fields) :
    OrderedMap.swapErase (fieldsBeyond ["pid_init", "parameters"] fields) "pid" =
      fieldsBeyond ownKeys fields := by
  have hfree : "pid" ∉ OrderedMap.keys (fieldsBeyond ["pid_init", "parameters"] fields) :=
    fun hmem => h ((List.filter_sublist.map Prod.fst).subset hmem)
  rw [OrderedMap.swapErase_eq_erase hfree, erase_fieldsBeyond]

/-- The requests that are read from a body in the two forms are alike. -/
lemma alike_of_read {a b : PidEntry} (hunique : OrderedMap.UniqueKeys body.2)
    (hlisted : IsListed body item) (ha : ofField? (body.1, .object body.2) = some a)
    (hb : ofItem? item = some b) : Alike body a b := by
  obtain ⟨expressions, -, hwritten, rfl⟩ := ofField?_body.1 ha
  obtain ⟨others, -, hagain, rfl⟩ := (ofItem?_of_isListed hlisted).1 hb
  -- the parameters are the same, since an object holds one list of expressions only
  rw [hwritten, Option.some.injEq, ← expressions?_eq_some_iff, expressions?_eq_some_iff.2 rfl,
    Option.some.injEq] at hagain
  subst hagain
  have hbeyond : OrderedMap.UniqueKeys (fieldsBeyond ownKeys body.2) :=
    OrderedMap.uniqueKeys_filter hunique _
  have hperm := swapErase_fieldsBeyond_perm hunique
  refine ⟨⟨rfl, rfl⟩, rfl, rfl, ?_, fun hfree => ?_⟩
  · change (OrderedMap.ofList _).Perm (OrderedMap.ofList _)
    rwa [OrderedMap.ofList_of_uniqueKeys hbeyond,
      OrderedMap.ofList_of_uniqueKeys ((hperm.map Prod.fst).nodup_iff.2 hbeyond)]
  · exact congrArg OrderedMap.ofList (swapErase_fieldsBeyond_of_not_mem hfree)

/-! ## Tables -/

variable {bodies : List (String × OrderedMap String Json)} {items : List Json}
  {table listed : List PidEntry}

/-- A mapping is read body by body. -/
lemma table?_mapping_eq_some_iff : table? (mapping bodies) = some table ↔
    List.Forall₂ (fun body entry => ofField? (body.1, .object body.2) = some entry) bodies table := by
  rw [mapping, table?, Steps.mapM_eq_some_iff, List.forall₂_map_left_iff]

/-- A list can be read exactly if the mapping of its bodies can be read. -/
lemma exists_table?_array_iff (h : List.Forall₂ IsListed bodies items) :
    (∃ listed, table? (.array items) = some listed) ↔
      ∃ table, table? (mapping bodies) = some table := by
  have harray : ∀ listed, table? (.array items) = some listed ↔
      List.Forall₂ (fun item entry => ofItem? item = some entry) items listed :=
    fun _ => Steps.mapM_eq_some_iff
  simp only [harray, table?_mapping_eq_some_iff, Steps.exists_values_iff]
  constructor
  · intro hitems body hbody
    obtain ⟨item, hitem, hlisted⟩ := Steps.exists_value_of_mem h hbody
    exact (exists_ofItem?_iff hlisted).1 (hitems item hitem)
  · intro hbodies item hitem
    obtain ⟨body, hbody, hlisted⟩ := Steps.exists_of_mem_values h hitem
    exact (exists_ofItem?_iff hlisted).2 (hbodies body hbody)

/-- The requests at one place of the tables that are read from a tidy mapping and its list are
alike. -/
lemma alike_of_table? (htidy : (mapping bodies).Tidy) (h : List.Forall₂ IsListed bodies items)
    (htable : table? (mapping bodies) = some table) (hlist : table? (.array items) = some listed)
    {i : ℕ} {a b : PidEntry} (hbody : bodies[i]? = some body) (ha : table[i]? = some a)
    (hb : listed[i]? = some b) : Alike body a b := by
  have hlength : i < items.length := h.length_eq ▸ (List.getElem?_eq_some_iff.1 hbody).1
  have hitem := List.getElem?_eq_getElem hlength
  have hinner := htidy.of_mem (List.mem_map_of_mem (List.mem_of_getElem? hbody))
  exact alike_of_read hinner.1 (Steps.of_getElem? h hbody hitem)
    (Steps.of_getElem? (table?_mapping_eq_some_iff.1 htable) hbody ha)
    (Steps.of_getElem? (Steps.mapM_eq_some_iff.1 hlist) hitem hb)

end PidEntry

namespace Fragment

/-- **The forms of a table agree.** Take a document in which no object has a key twice, with a table
that is a mapping from codes to objects. Put a list in its place that has each of these objects, in
their order, with its code inside, instead of a code that it may have, and all else as it is. Then a
fragment is read from the one document exactly if a fragment is read from the other one. The two
fragments differ in nothing but their tables. These have a request for each of the objects, in their
order. The requests at one place have the code of the object there, the same setup and the same
parameters in the same order, and they keep the same fields, also in the same order unless there was
a code in the object.

**Proof sketch.** A list sorts the code out with the other fields that requests know, and a mapping
removes it on its own, which leaves the same fields (`PidEntry.swapErase_fieldsBeyond_perm`), or
removes nothing (`PidEntry.swapErase_fieldsBeyond_of_not_mem`). So a body is read in both forms or
in none (`PidEntry.exists_ofItem?_iff`), and a document with another table is a fragment with
another table (`ofJson_insert_pids`). -/
theorem forms_agree (path : Path) {fields : OrderedMap String Json}
    {bodies : List (String × OrderedMap String Json)} {items : List Json}
    (htidy : (Json.object fields).Tidy)
    (hpids : OrderedMap.get? fields "pids" = some (PidEntry.mapping bodies))
    (hlisted : List.Forall₂ PidEntry.IsListed bodies items) :
    ((∃ g, ofDocument path (.object (OrderedMap.insert fields "pids" (.array items))) = .ok g) ↔
      ∃ f, ofDocument path (.object fields) = .ok f) ∧
    ∀ f g, ofDocument path (.object fields) = .ok f →
      ofDocument path (.object (OrderedMap.insert fields "pids" (.array items))) = .ok g →
      ∃ table listed, f.pids = some table ∧ g = { f with pids := some listed } ∧
        table.length = bodies.length ∧ listed.length = bodies.length ∧
        ∀ (i : ℕ) body a b, bodies[i]? = some body → table[i]? = some a → listed[i]? = some b →
          PidEntry.Alike body a b := by
  simp only [ofDocument, Steps.mapError_eq_ok_iff]
  have hforms := PidEntry.exists_table?_array_iff hlisted
  refine ⟨⟨?_, ?_⟩, ?_⟩
  · rintro ⟨g, hg⟩
    have hunique := OrderedMap.uniqueKeys_insert htidy.1 "pids" (Json.array items)
    have hlist : OrderedMap.get? (OrderedMap.insert fields "pids" (.array items)) "pids" =
        some (.array items) := by
      rw [OrderedMap.get?_insert, if_pos rfl]
    obtain ⟨listed, hread, -⟩ := exists_table?_of_ofJson hunique hg hlist
    obtain ⟨table, htable⟩ := hforms.1 ⟨listed, hread⟩
    -- the mapping in the place of the list is the document that was there first
    have hback := ofJson_insert_pids hunique hg htable
    rw [OrderedMap.insert_insert_self, OrderedMap.insert_of_get? hpids] at hback
    exact ⟨_, hback⟩
  · rintro ⟨f, hf⟩
    obtain ⟨table, htable, -⟩ := exists_table?_of_ofJson htidy.1 hf hpids
    obtain ⟨listed, hread⟩ := hforms.2 ⟨table, htable⟩
    exact ⟨_, ofJson_insert_pids htidy.1 hf hread⟩
  · intro f g hf hg
    obtain ⟨table, htable, hown⟩ := exists_table?_of_ofJson htidy.1 hf hpids
    obtain ⟨listed, hread⟩ := hforms.2 ⟨table, htable⟩
    obtain rfl := Except.ok.inj ((ofJson_insert_pids htidy.1 hf hread).symm.trans hg)
    have hmapping := htidy.of_mem (OrderedMap.mem_of_get? hpids)
    refine ⟨table, listed, hown, rfl, (PidEntry.table?_mapping_eq_some_iff.1 htable).length_eq.symm,
      hlisted.length_eq.trans (Steps.mapM_eq_some_iff.1 hread).length_eq |>.symm, ?_⟩
    exact fun i body a b => PidEntry.alike_of_table? hmapping hlisted htable hread

/-- Two bodies with fields that requests do not know, the first one with a code of another kind. -/
def sampleBodies : List (String × OrderedMap String Json) :=
  [("A", [("pid", .null), ("x", .integer 1),
      ("parameters", .object [("S", .text "1"), ("R", .text "")]), ("y", .integer 2)]),
    ("B", [("v", .null), ("pid_init", .text "i"), ("parameters", .object []), ("w", .bool true)])]

/-- The bodies as items, the second one with its code in front. -/
def sampleItems : List Json :=
  [.object [("pid", .text "A"), ("x", .integer 1),
      ("parameters", .object [("S", .text "1"), ("R", .text "")]), ("y", .integer 2)],
    .object [("pid", .text "B"), ("v", .null), ("pid_init", .text "i"), ("parameters", .object []),
      ("w", .bool true)]]

/-- A document with these bodies in a mapping. -/
def sampleForm : OrderedMap String Json :=
  [("pids", PidEntry.mapping sampleBodies), ("note", .text "n")]

/-- Both forms of the document are read, and they keep other fields in different orders where a code
was dropped. -/
theorem forms_agree_sampleForm :
    (Json.object sampleForm).Tidy ∧ List.Forall₂ PidEntry.IsListed sampleBodies sampleItems ∧
      ∃ f g a b c d, ofDocument ⟨"p"⟩ (.object sampleForm) = .ok f ∧
        ofDocument ⟨"p"⟩ (.object (OrderedMap.insert sampleForm "pids" (.array sampleItems))) =
          .ok g ∧
        f.pids = some [a, c] ∧ g = { f with pids := some [b, d] } ∧
        a.extra = [("y", .integer 2), ("x", .integer 1)] ∧ a.extra.Perm b.extra ∧
        a.extra ≠ b.extra ∧ c.extra = [("v", .null), ("w", .bool true)] ∧ c.extra = d.extra := by
  have htidy : (Json.object sampleForm).Tidy := by
    simp [sampleForm, sampleBodies, PidEntry.mapping, Json.Tidy, Json.TidyFields,
      OrderedMap.UniqueKeys, OrderedMap.keys]
  have hlisted : List.Forall₂ PidEntry.IsListed sampleBodies sampleItems :=
    .cons (PidEntry.isListed_insert _) (.cons ⟨_, rfl, rfl, by decide⟩ .nil)
  have hread : ofDocument ⟨"p"⟩ (.object sampleForm) = .ok { empty with
      note := some "n"
      pids := some [.of "A" none [("S", "1"), ("R", "")] [("y", .integer 2), ("x", .integer 1)],
        .of "B" (some "i") [] [("v", .null), ("w", .bool true)]] } := by decide +kernel
  have hother : ofDocument ⟨"p"⟩
      (.object (OrderedMap.insert sampleForm "pids" (.array sampleItems))) = .ok { empty with
        note := some "n"
        pids := some [.of "A" none [("S", "1"), ("R", "")] [("x", .integer 1), ("y", .integer 2)],
          .of "B" (some "i") [] [("v", .null), ("w", .bool true)]] } := by decide +kernel
  obtain ⟨table, listed, htable, hsame, -, -, halike⟩ :=
    (forms_agree ⟨"p"⟩ htidy rfl hlisted).2 _ _ hread hother
  obtain rfl := Option.some.inj htable
  obtain rfl := Option.some.inj (congrArg pids hsame)
  have hfirst := halike 0 _ _ _ rfl rfl rfl
  have hsecond := halike 1 _ _ _ rfl rfl rfl
  exact ⟨htidy, hlisted, _, _, _, _, _, _, hread, hother, rfl, hsame, rfl, hfirst.extra, by decide,
    rfl, hsecond.order (by decide)⟩

end Fragment

end LayeredProfiles
