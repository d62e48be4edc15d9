import LayeredProfiles.Proofs.Build.Coverage
import LayeredProfiles.Proofs.Profile.Enrich

set_option autoImplicit false

/-!
# The parameters of an artifact

Whatever a chain looks like, the table that it amounts to is pruned at the very end, and only then
its parameters are looked up. So no request of an artifact is empty, no parameter is disabled, and a
disabled parameter need not be in the library.

## Main results

* `Fragment.exists_prune_of_resolve` — a resolved table is a pruned one.
* `Build.sound_of_compileFragment` — the requests of a profile are sound.
* `Build.compiled_sound` — the same for every profile of an artifact.
-/

namespace LayeredProfiles

/-- The table of a resolved fragment is a pruned one, be it a lone fragment's or that of a chain. -/
lemma Fragment.exists_prune_of_resolve {source : FragmentSource} {maxDepth : Nat} {key : Path}
    {leaf : Fragment} {resolution : Resolution} {table : List PidEntry}
    (h : leaf.resolve source maxDepth key = .ok resolution)
    (htable : resolution.profile.pids = some table) :
    ∃ merged, table = Layers.prune merged := by
  obtain ⟨chain, -, hfound⟩ := resolve_eq_ok_iff.1 h
  obtain ⟨f, -, rfl⟩ := Option.map_eq_some_iff.1 hfound
  obtain ⟨merged, -, hprune⟩ := Option.map_eq_some_iff.1 htable
  exact ⟨merged, hprune.symm⟩

namespace Build

/-- The requests of a profile are sound. -/
lemma sound_of_compileFragment {config : BuildConfig} {tree : FileTree} {library : ParameterLibrary}
    {key : Path} {car : ResolvedProfile} (h : compileFragment config tree library key = .ok car) :
    ∀ pid ∈ car.pids, pid.Sound library := by
  obtain ⟨leaf, resolution, profile, note, -, hresolve, hprofile, -, rfl⟩ :=
    compileFragment_eq_ok_iff.1 h
  obtain ⟨table, pids, htable, hjoined, rfl⟩ := ResolvedProfile.of_eq_ok_iff.1 hprofile
  obtain ⟨merged, rfl⟩ := Fragment.exists_prune_of_resolve hresolve htable
  intro pid hpid
  obtain ⟨entry, hentry, hof⟩ := Steps.exists_of_mem_values hjoined hpid
  exact ResolvedPid.sound_of hentry hof

/-- **The parameters of an artifact.** If compiling succeeds, every request of every profile carries
a parameter, no parameter has an empty expression, and every parameter is in the parameter library,
whose settings for its name are exactly the parameter's. Nothing is asked of the chains: a fragment
that stands alone is pruned like any other.

**Proof sketch.** Each profile of the artifact is what its fragment compiles to (`compile_eq_ok`).
Its table is a pruned one (`exists_prune_of_resolve`), and joining it with the library keeps its
parameters and takes the settings from there (`sound_of`). -/
theorem compiled_sound (choices : List Nat) (session after : Session) (artifact : Artifact)
    (h : (compiled choices).runIn session = (.ok artifact, after)) :
    ∃ library, session.library? = .ok library ∧ after.library = some library ∧
      ∀ car ∈ artifact.cars, ∀ pid ∈ car.pids, pid.Sound library := by
  obtain ⟨library, hlibrary, rfl, hcompile⟩ := runIn_compiled_eq_ok_iff.1 h
  obtain ⟨keys, -, -, hcars⟩ := compile_eq_ok hcompile
  refine ⟨library, hlibrary, rfl, fun car hcar => ?_⟩
  exact sound_of_compileFragment (hcars car hcar)

/-- The disabled parameters of the session are gone, also the one that the library does not have. -/
theorem compiled_sound_sampleSession :
    (compiled []).runIn sampleSession =
        (.ok sampleArtifact, sampleSession.keep sampleLibrary) ∧
      ∃ library, sampleSession.library? = .ok library ∧
        (sampleSession.keep sampleLibrary).library = some library ∧
        ∀ car ∈ sampleArtifact.cars, ∀ pid ∈ car.pids, pid.Sound library :=
  ⟨runIn_compiled_sampleSession,
    compiled_sound [] _ _ _ runIn_compiled_sampleSession⟩

end Build

end LayeredProfiles
