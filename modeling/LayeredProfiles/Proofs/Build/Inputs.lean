import LayeredProfiles.Proofs.Build.Schedule
import LayeredProfiles.Proofs.FileTree.Rewritten

set_option autoImplicit false

/-!
# What a build reads

Fragments and their note files are read from below the directory of the fragments: normalized keys
do not lead out of it. So while files in other places change, the fragments stay the same, and so
does what they compile to.

## Main results

* `ProfileFolder.keys_rewritten`, `ProfileFolder.source_rewritten` — the fragments stay the same.
* `NoteFiles.noteFor_rewritten` — the notes stay the same.
* `Build.compile_rewritten` — fragments compile to the same artifact.
* `Build.compile_eq_of_rewritten`, `Build.validate_eq_of_rewritten` — compiling and checking fragments
  end in the same way, be it with a failure.
* `Build.validate_eq_ok_iff` — when checking fragments succeeds.
-/

namespace LayeredProfiles

/-- No piece of a path made of names leads up. -/
lemma Path.ne_up_of_mem_split_ofNames {names : List String} (h : ∀ name ∈ names, IsName name) :
    ∀ piece ∈ (ofNames names).split, piece ≠ ['.', '.'] := by
  intro piece hpiece
  by_cases hne : names = []
  · rw [hne] at hpiece
    have hempty : piece = [] := by simpa [ofNames, split, Text.joinWith, Text.splitAt] using hpiece
    simp [hempty]
  · rw [split_ofNames hne h] at hpiece
    obtain ⟨name, hname, rfl⟩ := List.mem_map.1 hpiece
    exact (isName_iff.1 (h name hname)).2.2.2

/-- The note file beside a fragment is in the place of the fragment's own name. -/
lemma NoteFiles.pathFor_ofNames {dir : Path} {noteFile : String} (hname : Path.IsName noteFile)
    {names : List String} (hnames : ∀ name ∈ names, Path.IsName name) :
    (NoteFiles.mk dir noteFile).pathFor (.ofNames names) =
      dir.join (.ofNames (names.dropLast ++ [noteFile])) := by
  have hdir : ∀ name ∈ names.dropLast, Path.IsName name := fun name hmem =>
    hnames name (List.dropLast_subset names hmem)
  have hself : (⟨noteFile⟩ : Path) = .ofNames [noteFile] := by simp [Path.ofNames, Text.joinWith]
  unfold NoteFiles.pathFor
  dsimp only
  rw [Path.parent?_ofNames hnames, hself,
    Path.join_ofNames_append (List.cons_ne_nil _ _) hdir (by simpa using hname)]

section Spared

variable {before after : FileTree} {touched : List Location} {base : Location} {dir : Path}
  (h : FileTree.Rewritten before after touched) (hresolve : before.resolve dir = .ok base)
  (hspared : ∀ l ∈ touched, ¬ base <+: l)

include h hresolve hspared

/-- Files under names below a directory are read as before. -/
lemma FileTree.Rewritten.readText_ofNames {names : List String}
    (hnames : ∀ name ∈ names, Path.IsName name) :
    after.readText (dir.join (.ofNames names)) = before.readText (dir.join (.ofNames names)) :=
  h.readText_join (FileTree.reach_of_resolve hresolve) hspared (Path.isAbsolute_ofNames hnames)
    (Path.ne_up_of_mem_split_ofNames hnames)

/-- The same fragments are listed. -/
lemma ProfileFolder.keys_rewritten :
    (ProfileFolder.mk dir).keys after = (ProfileFolder.mk dir).keys before := by
  unfold ProfileFolder.keys
  rw [h.walk hresolve hspared]

/-- Fragments have the same texts. -/
lemma ProfileFolder.readText_rewritten :
    (ProfileFolder.mk dir).readText after = (ProfileFolder.mk dir).readText before := by
  funext key
  unfold ProfileFolder.readText FileTree.read ProfileFolder.pathOf Path.normalized
  rw [h.readText_ofNames hresolve hspared Path.isName_of_mem_names]

/-- Fragments are the same. -/
lemma ProfileFolder.source_rewritten :
    (ProfileFolder.mk dir).source after = (ProfileFolder.mk dir).source before := by
  funext key
  unfold ProfileFolder.source
  rw [ProfileFolder.readText_rewritten h hresolve hspared]

/-- Vehicles have the same notes. -/
lemma NoteFiles.noteFor_rewritten {noteFile : String} (hname : Path.IsName noteFile)
    {names : List String} (hnames : ∀ name ∈ names, Path.IsName name) (carModel : String) :
    (NoteFiles.mk dir noteFile).noteFor after (.ofNames names) carModel =
      (NoteFiles.mk dir noteFile).noteFor before (.ofNames names) carModel := by
  unfold NoteFiles.noteFor FileTree.readIfThere
  rw [NoteFiles.pathFor_ofNames hname hnames, h.readText_ofNames hresolve hspared fun name hmem =>
    (List.mem_append.1 hmem).elim (fun hfront => hnames name (List.dropLast_subset names hfront))
      fun hlast => List.mem_singleton.1 hlast ▸ hname]

end Spared

namespace Build

variable {config : BuildConfig} {before after tree : FileTree} {library : ParameterLibrary}
  {touched : List Location} {base : Location}

section Spared

variable (h : FileTree.Rewritten before after touched)
  (hresolve : before.resolve config.profilesDir = .ok base) (hspared : ∀ l ∈ touched, ¬ base <+: l)

include h hresolve hspared

/-- A fragment compiles to the same profile. -/
lemma compileFragment_rewritten (hnote : Path.IsName config.noteFile) {names : List String}
    (hnames : ∀ name ∈ names, Path.IsName name) :
    compileFragment config after library (.ofNames names) =
      compileFragment config before library (.ofNames names) := by
  unfold compileFragment noteOf BuildConfig.folder BuildConfig.noteFiles
  dsimp only
  rw [ProfileFolder.source_rewritten h hresolve hspared]
  simp only [NoteFiles.noteFor_rewritten h hresolve hspared hnote hnames]

/-- Compiling all fragments ends in the same way, be it with a failure. -/
lemma compile_eq_of_rewritten (hnote : Path.IsName config.noteFile) (hnamed : before.WellNamed)
    (choices : List Nat) :
    compile config choices after library = compile config choices before library := by
  have hlisted : config.folder.keys after = config.folder.keys before :=
    ProfileFolder.keys_rewritten h hresolve hspared
  unfold compile
  rw [hlisted]
  cases hkeys : config.folder.keys before with
  | error failure => dsimp only [bind, Except.bind]
  | ok keys =>
    have htasks : ∀ key ∈ keys,
        compileOrSkip config after library key = compileOrSkip config before library key := by
      intro key hkey
      -- a key that is listed is made of names, so its note file is below the directory as well
      obtain ⟨names, rfl, hnames⟩ := ProfileFolder.exists_names_of_mem_keys hnamed hkeys hkey
      unfold compileOrSkip
      rw [compileFragment_rewritten h hresolve hspared hnote hnames]
    dsimp only [bind, Except.bind]
    rw [FanOut.all_congr config.maxConcurrency choices htasks]

/-- All fragments compile to the same artifact, whatever the order in which tasks end. -/
lemma compile_rewritten (hnote : Path.IsName config.noteFile) (hgrounded : before.Grounded)
    {choices : List Nat} {artifact : Artifact}
    (hcompile : compile config choices before library = .ok artifact) (others : List Nat) :
    compile config others after library = .ok artifact := by
  rw [compile_eq_of_rewritten h hresolve hspared hnote hgrounded.toWellNamed]
  exact compile_of_compile hgrounded.toWellNamed hcompile config rfl rfl rfl others

/-- Checking a fragment against a schema ends in the same way, be it with a failure. -/
lemma validateFragment_rewritten :
    validateFragment config after = validateFragment config before := by
  have hread : config.folder.readText after = config.folder.readText before :=
    ProfileFolder.readText_rewritten h hresolve hspared
  funext schema key
  unfold validateFragment
  rw [hread]

/-- Checking all fragments against the same schema ends in the same way, be it with a failure. -/
lemma validate_eq_of_rewritten
    (hschema : config.schemaFile.schema after = config.schemaFile.schema before)
    (choices : List Nat) : validate config choices after = validate config choices before := by
  have hlisted : config.folder.keys after = config.folder.keys before :=
    ProfileFolder.keys_rewritten h hresolve hspared
  unfold validate
  rw [hschema, hlisted, validateFragment_rewritten h hresolve hspared]

end Spared

/-- Checking fragments succeeds exactly if each of them passes, so the order in which tasks end does
not matter. -/
lemma validate_eq_ok_iff {choices : List Nat} {count : Nat} :
    validate config choices tree = .ok count ↔
      ∃ schema keys, config.schemaFile.schema tree = .ok schema ∧
        config.folder.keys tree = .ok keys ∧
        (∀ key ∈ keys, validateFragment config tree schema key = .ok none) ∧
        count = keys.length := by
  unfold validate
  simp only [Steps.bind_eq_ok_iff]
  constructor
  · rintro ⟨schema, hschema, keys, hkeys, checked, hchecked, h⟩
    split at h
    · next hnone =>
      refine ⟨schema, keys, hschema, hkeys, fun key hkey => ?_, (Except.ok.inj h).symm⟩
      obtain ⟨result, hresult, htask⟩ := (FanOut.mem_of_all_eq_ok hchecked).1 key hkey
      obtain rfl : result = none := List.filterMap_eq_nil_iff.1 hnone result hresult
      exact htask
    · cases h
  · rintro ⟨schema, keys, hschema, hkeys, hpasses, rfl⟩
    refine ⟨schema, hschema, keys, hkeys, ?_⟩
    -- no task fails, and none of the results is a rejection
    cases hall : FanOut.all config.maxConcurrency (validateFragment config tree schema) choices keys
      with
    | error failure =>
      obtain ⟨key, hkey, hfails⟩ := FanOut.all_eq_error hall
      rw [hpasses key hkey] at hfails
      cases hfails
    | ok checked =>
      have hnone : checked.filterMap id = [] := by
        refine List.filterMap_eq_nil_iff.2 fun result hresult => ?_
        obtain ⟨key, hkey, htask⟩ := (FanOut.mem_of_all_eq_ok hall).2 result hresult
        rw [hpasses key hkey] at htask
        exact (Except.ok.inj htask).symm
      refine ⟨checked, rfl, ?_⟩
      rw [hnone]

end Build

end LayeredProfiles
