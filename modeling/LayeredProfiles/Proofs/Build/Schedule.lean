import LayeredProfiles.Proofs.Build.Coverage
import LayeredProfiles.Proofs.Profile.Order

set_option autoImplicit false

/-!
# The order of tasks does not matter

Tasks end in any order, and how many of them run at once is a matter of configuration. The artifact
shows neither: it is what the fragments compile to one by one, put in order, and since no two
fragments have the same key there is only one such order. What is rendered from it is the same as
well.

## Main definitions

* `Build.profilesOf` — what fragments compile to, one by one.
* `Session.withConcurrency` — a session that works on so many fragments at once.

## Main results

* `Build.compile_eq_ok_iff` — compiling all fragments, described without tasks.
* `Build.schedule_irrelevant` — the artifact and the documents do not depend on the tasks.
-/

namespace LayeredProfiles

/-- The session that works on so many fragments at once. -/
def Session.withConcurrency (session : Session) (limit : Nat) : Session :=
  { session with config := { session.config with maxConcurrency := limit } }

namespace Build

variable {config : BuildConfig} {tree : FileTree} {library : ParameterLibrary}

/-- What the fragments under the given keys compile to, one by one, as far as they do. -/
def profilesOf (config : BuildConfig) (tree : FileTree) (library : ParameterLibrary)
    (keys : List Path) : List ResolvedProfile :=
  keys.filterMap fun key => (compileFragment config tree library key).toOption

/-- The tasks yield what their fragments compile to. -/
lemma filterMap_of_tasks {ended : List Path} {results : List (Option ResolvedProfile)}
    (h : List.Forall₂ (fun key result => compileOrSkip config tree library key = .ok result)
      ended results) :
    results.filterMap id = profilesOf config tree library ended := by
  have hstep : ∀ key result, compileOrSkip config tree library key = .ok result →
      (compileFragment config tree library key).toOption = result := by
    intro key result htask
    unfold compileOrSkip at htask
    cases hcompile : compileFragment config tree library key with
    | ok car =>
      rw [hcompile] at htask
      exact Except.ok.inj htask
    | error failure =>
      rw [hcompile] at htask
      dsimp only at htask
      split at htask
      · exact Except.ok.inj htask
      · cases htask
  induction h with
  | nil => rfl
  | cons htask _ ih =>
    unfold profilesOf at ih ⊢
    rw [List.filterMap_cons, List.filterMap_cons, ih, hstep _ _ htask]
    rfl

/-- The profiles of fragments have keys among theirs, each at most once. -/
lemma sources_profilesOf (keys : List Path) :
    ((profilesOf config tree library keys).map ResolvedProfile.source).Sublist keys := by
  induction keys with
  | nil => exact List.Sublist.slnil
  | cons key rest ih =>
    unfold profilesOf at ih ⊢
    rw [List.filterMap_cons]
    cases hcompile : compileFragment config tree library key with
    | error failure => exact ih.cons _
    | ok car =>
      rw [← (leavesOut_of_ok hcompile).2]
      exact ih.cons_cons _

/-- Profiles of distinct fragments have keys of distinct components. -/
lemma nodup_components_profilesOf {keys : List Path} (h : (keys.map Path.components).Nodup) :
    ((profilesOf config tree library keys).map fun car => car.source.components).Nodup := by
  have hsources : ((profilesOf config tree library keys).map ResolvedProfile.source).Sublist keys :=
    sources_profilesOf keys
  have hcomponents := hsources.map Path.components
  rw [List.map_map] at hcomponents
  exact h.sublist hcomponents

/-- **Compiling all fragments, described without tasks**: it succeeds exactly if the folder can be
listed and every fragment that is not left out compiles, and then it yields what the fragments
compile to one by one, in the order of the artifact. -/
lemma compile_eq_ok_iff (hnamed : tree.WellNamed) {choices : List Nat} {artifact : Artifact} :
    compile config choices tree library = .ok artifact ↔
      ∃ keys, config.folder.keys tree = .ok keys ∧
        (∀ key ∈ keys, leavesOut config tree key = true ∨
          ∃ car, compileFragment config tree library key = .ok car) ∧
        artifact = .ofProfiles (profilesOf config tree library keys) := by
  have hone : ∀ {found keys}, compile config choices tree library = .ok found →
      config.folder.keys tree = .ok keys →
      found = .ofProfiles (profilesOf config tree library keys) := by
    intro found keys h hkeys
    obtain ⟨listed, hlisted, h⟩ := Steps.bind_eq_ok_iff.1 h
    obtain ⟨results, hall, hartifact⟩ := Steps.bind_eq_ok_iff.1 h
    obtain ⟨ended, hended, htasks⟩ := FanOut.all_eq_ok hall
    rw [hkeys, Except.ok.injEq] at hlisted
    rw [← Except.ok.inj hartifact, filterMap_of_tasks htasks]
    have hperm : (profilesOf config tree library keys).Perm
        (profilesOf config tree library ended) := (hlisted ▸ hended.symm).filterMap _
    refine (Artifact.ofProfiles_congr hperm ?_).symm
    exact nodup_components_profilesOf (ProfileFolder.nodup_components_keys hnamed hkeys)
  constructor
  · intro h
    obtain ⟨keys, hkeys, hall⟩ := exists_compile_iff.1 ⟨artifact, h⟩
    exact ⟨keys, hkeys, hall, hone h hkeys⟩
  · rintro ⟨keys, hkeys, hall, rfl⟩
    obtain ⟨found, hfound⟩ := exists_compile_iff.2 ⟨keys, hkeys, hall⟩
    rw [hfound, hone hfound hkeys]

/-- Compiling all fragments yields the same artifact whatever the order in which tasks end, and with
every configuration that has the same folder, note files and bound on ancestors. -/
lemma compile_of_compile (hnamed : tree.WellNamed) {choices : List Nat} {artifact : Artifact}
    (h : compile config choices tree library = .ok artifact) (other : BuildConfig)
    (hfolder : other.folder = config.folder) (hnotes : other.noteFiles = config.noteFiles)
    (hdepth : other.maxDepth = config.maxDepth) (others : List Nat) :
    compile other others tree library = .ok artifact := by
  have hfragment : compileFragment other tree library = compileFragment config tree library := by
    funext key
    unfold compileFragment noteOf
    rw [hfolder, hnotes, hdepth]
  have hleft : leavesOut other tree = leavesOut config tree := by
    funext key
    unfold leavesOut
    rw [hfolder]
  rw [compile_eq_ok_iff hnamed] at h ⊢
  unfold profilesOf at h ⊢
  rw [hfragment, hleft, hfolder]
  exact h

/-- **The order of tasks does not matter.** An artifact holds exactly the given profiles, in the
order of their names in lower case, their names and the components of their keys. Profiles whose
keys are distinct make the same artifact and the same rows in whatever order they are given. So if
compiling succeeds in a session whose tree stands for real files, it yields the same artifact
whatever the order in which tasks end and however many run at once, and rendering it ends in the
same way.

**Proof sketch.** Two profiles that come at the same place have the same key (`ofProfiles_congr`),
and in such a tree no two fragments do (`nodup_components_keys`). So the artifact is what the
fragments compile to one by one (`compile_eq_ok_iff`), where neither tasks nor their number
occur. -/
theorem schedule_irrelevant :
    (∀ profiles, (Artifact.ofProfiles profiles).cars.Perm profiles ∧
      (Artifact.ofProfiles profiles).cars.Pairwise ResolvedProfile.Precedes) ∧
    (∀ profiles others : List ResolvedProfile, profiles.Perm others →
      (profiles.map fun car => car.source.components).Nodup →
        Artifact.ofProfiles profiles = .ofProfiles others ∧
        Document.vehicleRows (.ofProfiles profiles) = Document.vehicleRows (.ofProfiles others)) ∧
    (∀ session : Session, session.tree.WellNamed →
      ∀ choices artifact after, (compiled choices).runIn session = (.ok artifact, after) →
        ∀ others limit,
          ((compiled others).runIn (session.withConcurrency limit)).1 = .ok artifact ∧
          ((compiled others >>= rendered).runIn (session.withConcurrency limit)).1 =
            ((compiled choices >>= rendered).runIn session).1) := by
  refine ⟨fun profiles => ⟨Artifact.ofProfiles_perm profiles, Artifact.pairwise_precedes profiles⟩,
    fun profiles others hperm hnodup => ?_, ?_⟩
  · have hsame := Artifact.ofProfiles_congr hperm hnodup
    exact ⟨hsame, congrArg Document.vehicleRows hsame⟩
  · intro session hnamed choices artifact after h others limit
    obtain ⟨library, hlibrary, rfl, hcompile⟩ := runIn_compiled_eq_ok_iff.1 h
    have hcompiled := compile_of_compile hnamed hcompile (session.withConcurrency limit).config
      rfl rfl rfl others
    have hother : (compiled others).runIn (session.withConcurrency limit) =
        (.ok artifact, (session.withConcurrency limit).keep library) :=
      runIn_compiled_eq_ok_iff.2 ⟨library, hlibrary, rfl, hcompiled⟩
    refine ⟨congrArg Prod.fst hother, ?_⟩
    rw [runIn_bind, runIn_bind, h, hother]
    dsimp only
    rw [runIn_rendered, runIn_rendered]
    rfl

/-- Worked on one by one and ending the other way round, the fragments of the session make the same
artifact. -/
theorem schedule_irrelevant_sampleSession :
    (Artifact.ofProfiles sampleArtifact.cars.reverse = .ofProfiles sampleArtifact.cars) ∧
      sampleSession.tree.WellNamed ∧
      (compiled []).runIn sampleSession =
        (.ok sampleArtifact, sampleSession.keep sampleLibrary) ∧
      ((compiled [3, 2, 1]).runIn (sampleSession.withConcurrency 1)).1 = .ok sampleArtifact := by
  have hnamed : sampleSession.tree.WellNamed := by decide +kernel
  have hnodup : (sampleArtifact.cars.reverse.map fun car => car.source.components).Nodup := by
    decide +kernel
  have hreversed :=
    (schedule_irrelevant.2.1 _ _ (List.reverse_perm sampleArtifact.cars) hnodup).1
  exact ⟨hreversed, hnamed, runIn_compiled_sampleSession,
    (schedule_irrelevant.2.2 _ hnamed _ _ _ runIn_compiled_sampleSession _ _).1⟩

end Build

end LayeredProfiles
