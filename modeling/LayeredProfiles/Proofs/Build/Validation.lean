import LayeredProfiles.Build.Compile
import LayeredProfiles.Proofs.Build.FanOut
import LayeredProfiles.Proofs.Fragment.Folder

set_option autoImplicit false

/-!
# Which fragments a schema rejects

Once the schema is loaded and every fragment can be read as a text, checking the fragments has only
one possible outcome. Either the schema accepts all of them, or every one that it rejects is
reported, in the order of their files. A fragment that holds no document is rejected like any other,
and a rejection never keeps the others from being reported. In which order tasks end does not show.

## Main definitions

* `Build.rejectionsOf` — what a schema has against fragments, one by one.

## Main results

* `Build.validate_eq` — the outcome of checking fragments, described without tasks.
* `Build.validate_reports` — all rejections are reported, each once, and in order.
-/

namespace LayeredProfiles

namespace Schema

variable {schema : Schema} {path : Path} {text : String} {rejection : Rejection}

/-- A rejection is about the file that was checked, and it has a reason. -/
lemma of_rejectText?_eq_some (h : schema.rejectText? path text = some rejection) :
    rejection.path = path ∧ rejection.reasons ≠ [] := by
  unfold rejectText? at h
  split at h
  · unfold reject? at h
    split at h
    · cases h
    · next found hfound =>
      cases h
      exact ⟨rfl, by simpa using hfound⟩
  · cases h
    exact ⟨rfl, List.cons_ne_nil _ _⟩

/-- A text is accepted exactly if it is a document with which nothing is wrong. -/
lemma rejectText?_eq_none_iff : schema.rejectText? path text = none ↔
    ∃ document, Json.parse text = .ok document ∧ schema.violations document = [] := by
  unfold rejectText?
  cases Json.parse text with
  | ok document => simp [reject?_eq_none_iff]
  | error e => simp

end Schema

namespace Build

variable {config : BuildConfig} {tree : FileTree} {schema : Schema} {keys : List Path}
  {texts : Path → String}

/-- What a schema has against the fragments of the given texts, one by one. -/
def rejectionsOf (folder : ProfileFolder) (schema : Schema) (texts : Path → String)
    (keys : List Path) : List Rejection :=
  keys.filterMap fun key => schema.rejectText? (folder.pathOf key) (texts key)

/-- Nothing is reported exactly if every fragment is accepted. -/
lemma rejectionsOf_eq_nil_iff {folder : ProfileFolder} : rejectionsOf folder schema texts keys = [] ↔
    ∀ key ∈ keys, schema.rejectText? (folder.pathOf key) (texts key) = none :=
  List.filterMap_eq_nil_iff

/-- A report names the files of the rejected fragments. -/
lemma map_path_rejectionsOf {folder : ProfileFolder} :
    (rejectionsOf folder schema texts keys).map Rejection.path =
      (keys.filter fun key =>
        (schema.rejectText? (folder.pathOf key) (texts key)).isSome).map folder.pathOf := by
  induction keys with
  | nil => rfl
  | cons key rest ih =>
    unfold rejectionsOf at ih ⊢
    cases hkey : schema.rejectText? (folder.pathOf key) (texts key) with
    | none => simpa [hkey] using ih
    | some rejection => simpa [hkey, (Schema.of_rejectText?_eq_some hkey).1] using ih

/-- A report on the fragments of a folder is in the order of their files, of which none occurs
twice. -/
lemma pairwise_rejectionsOf (hnamed : tree.WellNamed) (hkeys : config.folder.keys tree = .ok keys) :
    (rejectionsOf config.folder schema texts keys).Pairwise
      fun a b => Path.compare a.path b.path = .lt := by
  have hpaths : ((rejectionsOf config.folder schema texts keys).map Rejection.path).Pairwise
      fun a b => Path.compare a b = .lt := by
    rw [map_path_rejectionsOf, List.pairwise_map]
    exact (ProfileFolder.pairwise_pathOf hnamed hkeys).filter _
  exact List.pairwise_map.1 hpaths

/-- The tasks yield what the schema has against their fragments. -/
lemma filterMap_of_checks {ended : List Path} {results : List (Option Rejection)}
    (htexts : ∀ key ∈ ended, config.folder.readText tree key = .ok (texts key))
    (h : List.Forall₂ (fun key result => validateFragment config tree schema key = .ok result)
      ended results) :
    results.filterMap id = rejectionsOf config.folder schema texts ended := by
  induction h with
  | nil => rfl
  | @cons key result rest others htask _ ih =>
    have hresult : schema.rejectText? (config.folder.pathOf key) (texts key) = result := by
      unfold validateFragment at htask
      rw [htexts key List.mem_cons_self] at htask
      exact Except.ok.inj htask
    have hothers := ih fun key hkey => htexts key (List.mem_cons_of_mem _ hkey)
    unfold rejectionsOf at hothers ⊢
    rw [List.filterMap_cons, List.filterMap_cons, hothers, hresult]
    rfl

instance : Std.TransCmp fun a b : Rejection => Path.compare a.path b.path where
  eq_swap := Std.OrientedCmp.eq_swap
  isLE_trans := Std.TransCmp.isLE_trans

/-- **Checking fragments, described without tasks**: where all of them can be read, they are either
all accepted and counted, or what the schema has against them is reported. -/
lemma validate_eq (hnamed : tree.WellNamed) (hschema : config.schemaFile.schema tree = .ok schema)
    (hkeys : config.folder.keys tree = .ok keys)
    (htexts : ∀ key ∈ keys, config.folder.readText tree key = .ok (texts key))
    (choices : List Nat) :
    validate config choices tree =
      if rejectionsOf config.folder schema texts keys = [] then .ok keys.length
      else .error (.rejected (rejectionsOf config.folder schema texts keys)) := by
  have htask : ∀ key ∈ keys, validateFragment config tree schema key =
      .ok (schema.rejectText? (config.folder.pathOf key) (texts key)) := by
    intro key hkey
    unfold validateFragment
    rw [htexts key hkey]
    rfl
  unfold validate
  rw [hschema, hkeys]
  dsimp only [bind, Except.bind]
  cases hall : FanOut.all config.maxConcurrency (validateFragment config tree schema) choices keys
    with
  | error failure =>
    -- no task fails, since every fragment can be read
    obtain ⟨key, hkey, hfails⟩ := FanOut.all_eq_error hall
    rw [htask key hkey] at hfails
    cases hfails
  | ok results =>
    obtain ⟨ended, hended, htasks⟩ := FanOut.all_eq_ok hall
    have hresults : results.filterMap id = rejectionsOf config.folder schema texts ended :=
      filterMap_of_checks (fun key hkey => htexts key (hended.subset hkey)) htasks
    have hperm : (results.filterMap id).Perm (rejectionsOf config.folder schema texts keys) := by
      rw [hresults]
      exact hended.filterMap _
    have hsort : ((results.filterMap id).mergeSort fun a b => Path.le a.path b.path) =
        rejectionsOf config.folder schema texts keys :=
      mergeSort_eq_of_perm _ hperm (pairwise_rejectionsOf hnamed hkeys)
    dsimp only
    split
    · next hnone =>
      rw [hnone] at hperm
      rw [if_pos hperm.nil_eq.symm]
    · next hsome =>
      rw [hsort, if_neg fun hnil => ?_]
      rw [hnil] at hperm
      exact hsome hperm.eq_nil

/-- **All rejections are reported.** Take a tree that stands for real files, in which the schema
loads and every fragment is listed and can be read as a text. Whatever the order in which tasks end,
checking the fragments yields their number exactly if the schema accepts each of them. If it rejects
any, then there is one report, and checking fails with it whatever the order: it holds what the schema
has against the rejected fragments and nothing else, names the file of each rejected fragment once,
is in the order of these files, and gives at least one reason for each. The schema accepts exactly
the documents with which nothing is wrong, so a fragment that holds no document is rejected as well.

**Proof sketch.** No task fails, so the results of the tasks are what the schema has against their
fragments, in the order in which the tasks end (`filterMap_of_checks`). What is left of them when
sorted is the report in the order of the keys: the keys are in order, and all files have the
components of the folder in front of those of their keys, so no two of them come at the same place
(`pairwise_rejectionsOf`, `mergeSort_eq_of_perm`). -/
theorem validate_reports (config : BuildConfig) (tree : FileTree) (schema : Schema)
    (keys : List Path) (texts : Path → String) (hnamed : tree.WellNamed)
    (hschema : config.schemaFile.schema tree = .ok schema)
    (hkeys : config.folder.keys tree = .ok keys)
    (htexts : ∀ key ∈ keys, config.folder.readText tree key = .ok (texts key)) :
    let check := fun key => schema.rejectText? (config.folder.pathOf key) (texts key)
    (∀ choices count, validate config choices tree = .ok count ↔
      count = keys.length ∧ ∀ key ∈ keys, check key = none) ∧
    ((∃ key ∈ keys, check key ≠ none) → ∃ rejections : List Rejection,
      (∀ choices, validate config choices tree = .error (.rejected rejections)) ∧
      (∀ rejection, rejection ∈ rejections ↔ ∃ key ∈ keys, check key = some rejection) ∧
      rejections.map Rejection.path =
        (keys.filter fun key => (check key).isSome).map config.folder.pathOf ∧
      (rejections.Pairwise fun a b => Path.compare a.path b.path = .lt) ∧
      ∀ rejection ∈ rejections, rejection.reasons ≠ []) ∧
    (∀ key ∈ keys, check key = none ↔
      ∃ document, Json.parse (texts key) = .ok document ∧ schema.violations document = []) := by
  intro check
  have houtcome := validate_eq hnamed hschema hkeys htexts
  refine ⟨fun choices count => ?_, ?_, fun key _ => Schema.rejectText?_eq_none_iff⟩
  · rw [houtcome, ← rejectionsOf_eq_nil_iff]
    split_ifs with hnil
    · rw [Except.ok.injEq, eq_comm]
      exact (and_iff_left hnil).symm
    · exact iff_of_false (fun h => by cases h) fun h => hnil h.2
  · rintro ⟨key, hkey, hrejected⟩
    have hsome : rejectionsOf config.folder schema texts keys ≠ [] := fun hnil =>
      hrejected (rejectionsOf_eq_nil_iff.1 hnil key hkey)
    refine ⟨rejectionsOf config.folder schema texts keys, fun choices => ?_, fun rejection => ?_,
      map_path_rejectionsOf, pairwise_rejectionsOf hnamed hkeys, fun rejection hmem => ?_⟩
    · rw [houtcome, if_neg hsome]
    · exact List.mem_filterMap
    · obtain ⟨key, -, hkey⟩ := List.mem_filterMap.1 hmem
      exact (Schema.of_rejectText?_eq_some hkey).2

/-- A schema of objects and four fragments: one that it accepts, one that holds no document and two
that hold lists. -/
def sampleFragments : FileTree :=
  ⟨[(["schema.json"], .file (.text (Json.toText (.object [("type", .text "object")])))),
    (["p"], .directory), (["p", "d-x.json"], .file (.text "[]")),
    (["p", "note.md"], .file (.text "[")), (["p", "d"], .directory),
    (["p", "d", "c.json"], .file (.text "[]")), (["p", "b.json"], .file (.text "[")),
    (["p", "a.json"], .file (.text (Json.toText (.object []))))], []⟩

/-- Fragments are worked on two at a time. -/
def sampleChecked : BuildConfig :=
  { BuildConfig.default with
    profilesDir := ⟨"p"⟩
    schemaPath := ⟨"schema.json"⟩
    maxConcurrency := 2 }

/-- The three fragments that the schema does not accept are reported, in the order of their files. -/
theorem validate_reports_sampleFragments :
    sampleFragments.WellNamed ∧ ∃ (schema : Schema) (keys : List Path) (texts : Path → String),
      sampleChecked.schemaFile.schema sampleFragments = .ok schema ∧
      sampleChecked.folder.keys sampleFragments = .ok keys ∧
      (∀ key ∈ keys, sampleChecked.folder.readText sampleFragments key = .ok (texts key)) ∧
      ∃ rejections : List Rejection,
        (∀ choices, validate sampleChecked choices sampleFragments =
          .error (.rejected rejections)) ∧
        rejections.map Rejection.path = [⟨"p/b.json"⟩, ⟨"p/d/c.json"⟩, ⟨"p/d-x.json"⟩] := by
  have hnamed : sampleFragments.WellNamed := by decide +kernel
  have hschema : sampleChecked.schemaFile.schema sampleFragments =
      .ok (.all [.kinds [.object]]) := by
    have hdocument : sampleChecked.schemaFile.document sampleFragments =
        .ok (.object [("type", .text "object")]) := by decide +kernel
    exact Steps.bind_eq_ok_iff.2 ⟨_, hdocument, rfl⟩
  have hkeys : sampleChecked.folder.keys sampleFragments =
      .ok [⟨"a.json"⟩, ⟨"b.json"⟩, ⟨"d/c.json"⟩, ⟨"d-x.json"⟩] := by
    refine ProfileFolder.keys_eq_ok_iff.2
      ⟨[["d-x.json"], ["note.md"], ["d", "c.json"], ["b.json"], ["a.json"]].map fun names =>
        (names, Path.join ⟨"p"⟩ (.ofNames names)), by decide +kernel, ?_⟩
    exact (mergeSort_eq_of_perm Path.compare (by decide +kernel) (by decide +kernel)).symm
  have htexts : ∀ key ∈ ([⟨"a.json"⟩, ⟨"b.json"⟩, ⟨"d/c.json"⟩, ⟨"d-x.json"⟩] : List Path),
      sampleChecked.folder.readText sampleFragments key =
        .ok (if key = ⟨"a.json"⟩ then Json.toText (.object [])
          else if key = ⟨"b.json"⟩ then "[" else "[]") := by decide +kernel
  obtain ⟨-, hreport, -⟩ := validate_reports _ _ _ _ _ hnamed hschema hkeys htexts
  obtain ⟨rejections, houtcome, -, hpaths, -⟩ :=
    hreport ⟨⟨"b.json"⟩, by decide, by decide +kernel⟩
  exact ⟨hnamed, _, _, _, hschema, hkeys, htexts, rejections, houtcome,
    hpaths.trans (by decide +kernel)⟩

end Build

end LayeredProfiles
