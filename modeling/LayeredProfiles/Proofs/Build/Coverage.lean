import LayeredProfiles.Proofs.Build.FanOut
import LayeredProfiles.Proofs.Build.Omission
import LayeredProfiles.Proofs.Build.Session
import LayeredProfiles.Proofs.Fragment.Folder

set_option autoImplicit false

/-!
# What a build covers

A build that succeeds has one profile for every fragment of the folder, and none for those that are
left out. Nothing else is passed over in silence: a fragment that is not left out either compiles or
makes the build fail, and then with a failure after which it cannot go on.

## Main results

* `Build.compileOrSkip_eq_ok`, `Build.compileOrSkip_eq_error` — how the task of a fragment ends.
* `Build.compile_eq_ok`, `Build.exists_compile_iff`, `Build.compile_eq_error` — how compiling all
  fragments ends.
* `Build.compile_ne_ok_of_broken` — what becomes of a fragment whose chain is broken.
* `Build.compiled_coverage` — all of it, for a session.
-/

namespace LayeredProfiles.Build

variable {config : BuildConfig} {tree : FileTree} {library : ParameterLibrary}

/-! ## One fragment -/

/-- The task of a fragment yields a profile under the fragment's key, or nothing if the fragment is
left out. -/
lemma compileOrSkip_eq_ok {key : Path} {result : Option ResolvedProfile}
    (h : compileOrSkip config tree library key = .ok result) :
    (leavesOut config tree key = true ∧ result = none) ∨
      (leavesOut config tree key = false ∧ ∃ car, result = some car ∧ car.source = key ∧
        compileFragment config tree library key = .ok car) := by
  unfold compileOrSkip at h
  cases hcompile : compileFragment config tree library key with
  | ok car =>
    obtain ⟨hkept, hsource⟩ := leavesOut_of_ok hcompile
    rw [hcompile] at h
    exact .inr ⟨hkept, car, (Except.ok.inj h).symm, hsource, rfl⟩
  | error failure =>
    rw [hcompile] at h
    dsimp only at h
    split at h
    · next hrecoverable =>
      rw [leavesOut_of_error hcompile] at hrecoverable
      exact .inl ⟨hrecoverable, (Except.ok.inj h).symm⟩
    · cases h

/-- The task of a fragment fails only if the fragment is not left out and does not compile. -/
lemma compileOrSkip_eq_error {key : Path} {failure : Failure}
    (h : compileOrSkip config tree library key = .error failure) :
    leavesOut config tree key = false ∧
      compileFragment config tree library key = .error failure := by
  unfold compileOrSkip at h
  cases hcompile : compileFragment config tree library key with
  | ok car =>
    rw [hcompile] at h
    cases h
  | error reason =>
    rw [hcompile] at h
    dsimp only at h
    split at h
    · cases h
    · next hfatal =>
      cases h
      rw [Bool.not_eq_true, leavesOut_of_error hcompile] at hfatal
      exact ⟨hfatal, rfl⟩

/-! ## All fragments -/

/-- The profiles that tasks yield have the keys that are not left out, and each is what its fragment
compiles to. -/
lemma sources_of_tasks {ended : List Path} {results : List (Option ResolvedProfile)}
    (h : List.Forall₂ (fun key result => compileOrSkip config tree library key = .ok result)
      ended results) :
    (results.filterMap id).map ResolvedProfile.source =
        ended.filter (fun key => !leavesOut config tree key) ∧
      ∀ car ∈ results.filterMap id, compileFragment config tree library car.source = .ok car := by
  induction h with
  | nil => exact ⟨rfl, fun car hcar => absurd hcar List.not_mem_nil⟩
  | cons htask _ ih =>
    obtain ⟨hsources, hcars⟩ := ih
    rcases compileOrSkip_eq_ok htask with ⟨hleft, rfl⟩ | ⟨hkept, car, rfl, rfl, hcompile⟩
    · rw [List.filterMap_cons_none rfl, List.filter_cons_of_neg (by simp [hleft])]
      exact ⟨hsources, hcars⟩
    · rw [List.filterMap_cons_some (show id (some car) = some car from rfl), List.map_cons,
        List.filter_cons_of_pos (by simp [hkept]), hsources]
      refine ⟨rfl, fun found hfound => ?_⟩
      rcases List.mem_cons.1 hfound with rfl | hrest
      · exact hcompile
      · exact hcars found hrest

/-- On success there is one profile for every fragment that is not left out. -/
lemma compile_eq_ok {choices : List Nat} {artifact : Artifact}
    (h : compile config choices tree library = .ok artifact) :
    ∃ keys, config.folder.keys tree = .ok keys ∧
      (artifact.cars.map ResolvedProfile.source).Perm
        (keys.filter fun key => !leavesOut config tree key) ∧
      ∀ car ∈ artifact.cars, compileFragment config tree library car.source = .ok car := by
  obtain ⟨keys, hkeys, h⟩ := Steps.bind_eq_ok_iff.1 h
  obtain ⟨results, hall, hartifact⟩ := Steps.bind_eq_ok_iff.1 h
  obtain ⟨ended, hended, htasks⟩ := FanOut.all_eq_ok hall
  obtain ⟨hsources, hcars⟩ := sources_of_tasks htasks
  have hperm := Artifact.ofProfiles_perm (results.filterMap id)
  rw [← Except.ok.inj hartifact]
  refine ⟨keys, hkeys, ?_, fun car hcar => hcars car (hperm.subset hcar)⟩
  have hfilter := hended.filter fun key => !leavesOut config tree key
  exact ((hperm.map ResolvedProfile.source).trans (.of_eq hsources)).trans hfilter

/-- A folder that cannot be listed is no reason to go on. -/
lemma isRecoverable_of_keys {failure : Failure}
    (h : config.folder.keys tree = .error failure) : failure.isRecoverable = false := by
  rcases Steps.bind_eq_error_iff.1 h with hwalk | ⟨_, -, hok⟩
  · obtain ⟨reason, rfl⟩ := FileTree.walk_eq_error hwalk
    rfl
  · cases hok

/-- Compiling all fragments fails only if the folder cannot be listed or a fragment that is not left
out does not compile. -/
lemma compile_eq_error {choices : List Nat} {failure : Failure}
    (h : compile config choices tree library = .error failure) :
    config.folder.keys tree = .error failure ∨
      ∃ keys, config.folder.keys tree = .ok keys ∧ ∃ key ∈ keys,
        leavesOut config tree key = false ∧
          compileFragment config tree library key = .error failure := by
  rcases Steps.bind_eq_error_iff.1 h with hkeys | ⟨keys, hkeys, h⟩
  · exact .inl hkeys
  · rcases Steps.bind_eq_error_iff.1 h with hall | ⟨results, -, hok⟩
    · obtain ⟨key, hkey, htask⟩ := FanOut.all_eq_error hall
      exact .inr ⟨keys, hkeys, key, hkey, compileOrSkip_eq_error htask⟩
    · cases hok

/-- Compiling all fragments never fails recoverably. -/
lemma isRecoverable_of_compile {choices : List Nat} {failure : Failure}
    (h : compile config choices tree library = .error failure) :
    failure.isRecoverable = false := by
  rcases compile_eq_error h with hkeys | ⟨_, -, _, -, hkept, hcompile⟩
  · exact isRecoverable_of_keys hkeys
  · rw [leavesOut_of_error hcompile, hkept]

/-- Compiling all fragments succeeds exactly if the folder can be listed and every fragment that is
not left out compiles. -/
lemma exists_compile_iff {choices : List Nat} :
    (∃ artifact, compile config choices tree library = .ok artifact) ↔
      ∃ keys, config.folder.keys tree = .ok keys ∧ ∀ key ∈ keys,
        leavesOut config tree key = true ∨
          ∃ car, compileFragment config tree library key = .ok car := by
  constructor
  · rintro ⟨artifact, h⟩
    obtain ⟨keys, hkeys, hperm, hcars⟩ := compile_eq_ok h
    refine ⟨keys, hkeys, fun key hkey => ?_⟩
    cases hleft : leavesOut config tree key with
    | true => exact .inl rfl
    | false =>
      have hcovered : key ∈ artifact.cars.map ResolvedProfile.source :=
        hperm.symm.subset (List.mem_filter.2 ⟨hkey, by simp [hleft]⟩)
      obtain ⟨car, hcar, rfl⟩ := List.mem_map.1 hcovered
      exact .inr ⟨car, hcars car hcar⟩
  · rintro ⟨keys, hkeys, hall⟩
    cases hcompile : compile config choices tree library with
    | ok artifact => exact ⟨artifact, rfl⟩
    | error failure =>
      exfalso
      rcases compile_eq_error hcompile with herror | ⟨found, hfound, key, hkey, hkept, hfail⟩
      · rw [hkeys] at herror
        cases herror
      · rw [hkeys, Except.ok.injEq] at hfound
        rcases hall key (hfound ▸ hkey) with hleft | ⟨car, hcar⟩
        · rw [hkept] at hleft
          cases hleft
        · rw [hfail] at hcar
          cases hcar

/-- Files that are found in the order of their keys, and compile in the order of their profiles, make
an artifact as they are. -/
lemma compile_of_pairwise {choices : List Nat} {files : List (List String × Path)}
    {results : List (Option ResolvedProfile)}
    (hwalk : tree.walk config.folder.base = .ok files)
    (hkeys : ((files.filter fun file => file.2.extension? == some "json").map
      fun file => Path.ofNames file.1).Pairwise fun a b => Path.le a b)
    (hall : FanOut.all config.maxConcurrency (compileOrSkip config tree library) choices
      ((files.filter fun file => file.2.extension? == some "json").map
        fun file => .ofNames file.1) = .ok results)
    (hcars : (results.filterMap id).Pairwise fun a b => a.compare b != .gt) :
    compile config choices tree library = .ok ⟨results.filterMap id⟩ := by
  have hfound := ProfileFolder.keys_eq_ok_iff.2 ⟨files, hwalk, rfl⟩
  rw [Path.sort, List.mergeSort_of_pairwise hkeys] at hfound
  refine Steps.bind_eq_ok_iff.2 ⟨_, hfound, Steps.bind_eq_ok_iff.2 ⟨_, hall, ?_⟩⟩
  rw [Artifact.ofProfiles, List.mergeSort_of_pairwise hcars]

/-- A fragment whose chain is broken makes compiling all fragments fail. -/
lemma compile_ne_ok_of_broken {choices : List Nat} {artifact : Artifact} {keys : List Path}
    {key ancestor : Path} {leaf : Fragment} {reason : Failure} {i : Nat}
    (hkeys : config.folder.keys tree = .ok keys) (hkey : key ∈ keys)
    (hleaf : config.folder.source tree key = .ok leaf)
    (hancestor : (Walk.mk (config.folder.source tree) key leaf).key? (i + 1) = some ancestor)
    (hbroken : config.folder.source tree ancestor = .error reason) :
    compile config choices tree library ≠ .ok artifact := by
  intro h
  obtain ⟨found, hfound, hall⟩ := exists_compile_iff.1 ⟨artifact, h⟩
  rw [hkeys, Except.ok.injEq] at hfound
  rcases hall key (hfound ▸ hkey) with hleft | ⟨car, hcar⟩
  · -- a fragment that builds on nothing has no second key
    rw [leavesOut_of_source hleaf, Bool.and_eq_true, Option.isNone_iff_eq_none] at hleft
    rw [Walk.key?_eq_none_of_lt rfl hleft.1 (Nat.succ_pos i)] at hancestor
    cases hancestor
  · obtain ⟨loaded, resolution, _, _, hloaded, hresolve, -⟩ := compileFragment_eq_ok_iff.1 hcar
    rw [hleaf, Except.ok.injEq] at hloaded
    obtain ⟨chain, hchain, -⟩ := Fragment.resolve_eq_ok_iff.1 (hloaded ▸ hresolve)
    obtain ⟨f, hf⟩ := Chain.exists_source_of_collect hchain hancestor
    rw [hbroken] at hf
    cases hf

/-! ## Sessions -/

/-- A library that cannot be loaded is no reason to go on. -/
lemma isRecoverable_of_library {session : Session} {failure : Failure}
    (h : session.library? = .error failure) : failure.isRecoverable = false := by
  unfold Session.library? at h
  split at h
  · cases h
  · rcases Steps.bind_eq_error_iff.1 h with htext | ⟨text, -, hparse⟩
    · obtain ⟨fault, -, rfl⟩ := Steps.mapError_eq_error_iff.1 htext
      rfl
    · unfold ParameterLibrary.parse at hparse
      split at hparse
      · cases hparse
        rfl
      · obtain ⟨defect, -, rfl⟩ := Steps.mapError_eq_error_iff.1 hparse
        rfl

/-- Compiling in a session never fails recoverably. -/
lemma isRecoverable_of_compiled {choices : List Nat} {session after : Session} {failure : Failure}
    (h : (compiled choices).runIn session = (.error failure, after)) :
    failure.isRecoverable = false := by
  rw [runIn_compiled] at h
  cases hlibrary : session.library? with
  | error reason =>
    rw [hlibrary] at h
    cases h
    exact isRecoverable_of_library hlibrary
  | ok library =>
    rw [hlibrary] at h
    exact isRecoverable_of_compile (congrArg Prod.fst h)

/-! ## A session -/

/-- A session with four files of fragments: a base, a leaf that builds on it and disables a
parameter that the library does not have, a list, which is no fragment, and a fragment that says
nothing. -/
def sampleSession : Session where
  config := { BuildConfig.default with profilesDir := ⟨"p"⟩, paramsPath := ⟨"params.json"⟩ }
  library := none
  tree :=
    let file := fun document : Json => Entry.file (.text document.toText)
    ⟨[(["params.json"], file (.object [("X", .object [("settings", .object [("unit", .text "V")])])])),
      (["p"], .directory),
      (["p", "base.json"], file (.object [("pids", .object [("A", .object
        [("parameters", .object [("X", .text "1"), ("Z", .text "")])])])])),
      (["p", "leaf.json"], file (.object [("extends", .text "base.json"), ("pids", .array [.object
        [("pid", .text "B"), ("parameters", .object [("Y", .text "")])]])])),
      (["p", "list.json"], file (.array [])),
      (["p", "none.json"], file (.object []))], []⟩

/-- The library of the session. -/
def sampleLibrary : ParameterLibrary :=
  .ofDefinitions [⟨"X", none, [("unit", .text "V")]⟩]

/-- The artifact of the session. -/
def sampleArtifact : Artifact where
  cars := ["base.json", "leaf.json"].map fun name =>
    ⟨"", none, [⟨"A", none, [⟨"X", "1", [("unit", .text "V")]⟩], []⟩], [], none, true, ⟨name⟩⟩

/-- The session compiles to its artifact. -/
lemma runIn_compiled_sampleSession :
    (compiled []).runIn sampleSession =
      (.ok sampleArtifact, sampleSession.keep sampleLibrary) := by
  refine runIn_compiled_eq_ok_iff.2 ⟨sampleLibrary, by decide +kernel, rfl, ?_⟩
  have hwalk : sampleSession.tree.walk sampleSession.config.folder.base =
      .ok (["base.json", "leaf.json", "list.json", "none.json"].map fun name =>
        ([name], Path.join ⟨"p"⟩ ⟨name⟩)) := by decide +kernel
  have hall : FanOut.all sampleSession.config.maxConcurrency
      (compileOrSkip sampleSession.config sampleSession.tree sampleLibrary) []
      [⟨"base.json"⟩, ⟨"leaf.json"⟩, ⟨"list.json"⟩, ⟨"none.json"⟩] =
        .ok (sampleArtifact.cars.map some ++ [none, none]) := by decide +kernel
  exact compile_of_pairwise hwalk (by decide +kernel) hall (by decide +kernel)

/-! ## The whole -/

/-- **What a build covers.** A build never fails recoverably. It succeeds exactly if there is a
library, the folder can be listed and every fragment that is not left out compiles. If it succeeds,
the keys of its profiles are those of the fragments that are not left out, as often as they are
listed, which in a tree that stands for real files is once. Each profile is what its fragment
compiles to. If something that a fragment builds on is missing or is no fragment, the build fails.

**Proof sketch.** Whether a fragment is left out can be told from its text, and a failure to compile
it is recoverable exactly if it is left out (`leavesOut_of_error`), so the task of a fragment yields
nothing only then (`compileOrSkip_eq_ok`). No key is lost while tasks run (`FanOut.all_eq_ok`), and
a chain is collected only if all of it loads. -/
theorem compiled_coverage (choices : List Nat) (session : Session) :
    (∀ failure after, (compiled choices).runIn session = (.error failure, after) →
      failure.isRecoverable = false) ∧
    ((∃ artifact after, (compiled choices).runIn session = (.ok artifact, after)) ↔
      ∃ library keys, session.library? = .ok library ∧
        session.config.folder.keys session.tree = .ok keys ∧
        ∀ key ∈ keys, leavesOut session.config session.tree key = true ∨
          ∃ car, compileFragment session.config session.tree library key = .ok car) ∧
    (∀ artifact after, (compiled choices).runIn session = (.ok artifact, after) →
      ∃ library keys, session.library? = .ok library ∧
        session.config.folder.keys session.tree = .ok keys ∧
        (artifact.cars.map ResolvedProfile.source).Perm
          (keys.filter fun key => !leavesOut session.config session.tree key) ∧
        (∀ car ∈ artifact.cars,
          compileFragment session.config session.tree library car.source = .ok car) ∧
        (session.tree.WellNamed → (artifact.cars.map ResolvedProfile.source).Nodup)) ∧
    (∀ keys, session.config.folder.keys session.tree = .ok keys →
      ∀ key ∈ keys, ∀ leaf, session.config.folder.source session.tree key = .ok leaf →
        ∀ i ancestor reason,
          (Walk.mk (session.config.folder.source session.tree) key leaf).key? (i + 1) =
            some ancestor →
          session.config.folder.source session.tree ancestor = .error reason →
          ∃ failure after, (compiled choices).runIn session = (.error failure, after)) := by
  refine ⟨fun _ _ h => isRecoverable_of_compiled h, ?_, ?_, ?_⟩
  · constructor
    · rintro ⟨artifact, after, h⟩
      obtain ⟨library, hlibrary, -, hcompile⟩ := runIn_compiled_eq_ok_iff.1 h
      obtain ⟨keys, hkeys, hall⟩ := exists_compile_iff.1 ⟨artifact, hcompile⟩
      exact ⟨library, keys, hlibrary, hkeys, hall⟩
    · rintro ⟨library, keys, hlibrary, hkeys, hall⟩
      obtain ⟨artifact, hcompile⟩ := exists_compile_iff.2 ⟨keys, hkeys, hall⟩
      exact ⟨artifact, _, runIn_compiled_eq_ok_iff.2 ⟨library, hlibrary, rfl, hcompile⟩⟩
  · intro artifact after h
    obtain ⟨library, hlibrary, -, hcompile⟩ := runIn_compiled_eq_ok_iff.1 h
    obtain ⟨keys, hkeys, hperm, hcars⟩ := compile_eq_ok hcompile
    refine ⟨library, keys, hlibrary, hkeys, hperm, hcars, fun hnamed => ?_⟩
    exact hperm.nodup_iff.2 ((ProfileFolder.nodup_keys hnamed hkeys).filter _)
  · intro keys hkeys key hkey leaf hleaf i ancestor reason hancestor hbroken
    rcases hrun : (compiled choices).runIn session with ⟨failure | artifact, after⟩
    · exact ⟨failure, after, rfl⟩
    · obtain ⟨library, -, -, hcompile⟩ := runIn_compiled_eq_ok_iff.1 hrun
      exact absurd hcompile (compile_ne_ok_of_broken hkeys hkey hleaf hancestor hbroken)

/-- The session covers the base and the leaf, each once, and leaves the two other files out. -/
theorem compiled_coverage_sampleSession :
    sampleSession.tree.WellNamed ∧
      (compiled []).runIn sampleSession =
        (.ok sampleArtifact, sampleSession.keep sampleLibrary) ∧
      (sampleArtifact.cars.map ResolvedProfile.source).Nodup := by
  have hnamed : sampleSession.tree.WellNamed := by decide +kernel
  obtain ⟨_, _, -, -, -, -, hnodup⟩ :=
    (compiled_coverage [] sampleSession).2.2.1 _ _ runIn_compiled_sampleSession
  exact ⟨hnamed, runIn_compiled_sampleSession, hnodup hnamed⟩

end LayeredProfiles.Build
