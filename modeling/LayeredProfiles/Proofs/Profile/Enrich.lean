import LayeredProfiles.Layers.Merge
import LayeredProfiles.Profile.Enrich
import LayeredProfiles.Proofs.Steps

set_option autoImplicit false

/-!
# Parameters with their settings

Joining keeps requests and parameters one for one and in their order, and takes the settings from
the library. What holds of every request of a pruned table, that it carries parameters and that all
of them are enabled, therefore holds of the profile as well. Joining fails exactly if a name of the
table is not in the library, and what is reported is the first such name, request by request.

## Main definitions

* `ResolvedPid.Sound` — what a request of a profile promises.
* `ResolvedPid.Joins` — what a request of a profile has from its table and from the library.

## Main results

* `Layers.mem_prune` — what a request of a pruned table carries.
* `ResolvedPid.of_eq_ok_iff`, `ResolvedProfile.of_eq_ok_iff` — what joining yields.
* `ResolvedPid.of_eq_error_iff`, `ResolvedProfile.of_eq_error_iff` — what joining reports.
* `ResolvedPid.sound_of` — a request of a pruned table is joined to a sound one.
* `ResolvedProfile.joining_outcome` — when joining succeeds, what it leaves and what it reports.
-/

namespace LayeredProfiles

/-- A request of a pruned table carries parameters, none of which is disabled. -/
lemma Layers.mem_prune {table : List PidEntry} {entry : PidEntry} (h : entry ∈ prune table) :
    entry.parameters ≠ [] ∧ ∀ p ∈ entry.parameters, p.2 ≠ "" := by
  obtain ⟨hmem, hsome⟩ := List.mem_filter.1 h
  obtain ⟨whole, -, rfl⟩ := List.mem_map.1 hmem
  refine ⟨by simpa using hsome, fun p hp => ?_⟩
  exact of_decide_eq_true (List.mem_filter.1 hp).2

/-- A parameter is joined with the settings that the library has for its name. -/
lemma EnrichedParameter.of_eq_ok_iff {library : ParameterLibrary} {parameter : String × String}
    {enriched : EnrichedParameter} :
    EnrichedParameter.of library parameter = .ok enriched ↔
      ∃ definition, library.get? parameter.1 = some definition ∧
        enriched = ⟨parameter.1, parameter.2, definition.settings⟩ := by
  unfold EnrichedParameter.of
  cases library.get? parameter.1 with
  | none => simp
  | some definition => simp [eq_comm]

namespace ResolvedPid

/-- What a request of a profile promises: it carries parameters, each has an expression, and each is
in the library with exactly these settings. -/
structure Sound (library : ParameterLibrary) (pid : ResolvedPid) : Prop where
  /-- The request carries parameters. -/
  nonempty : pid.parameters ≠ []
  /-- No parameter is disabled. -/
  enabled : ∀ p ∈ pid.parameters, p.expression ≠ ""
  /-- The library has every parameter, with exactly these settings. -/
  known : ∀ p ∈ pid.parameters, ∃ definition,
    library.get? p.name = some definition ∧ p.settings = definition.settings

/-- A request is joined parameter by parameter, and all else is kept. -/
lemma of_eq_ok_iff {library : ParameterLibrary} {entry : PidEntry} {pid : ResolvedPid} :
    ResolvedPid.of library entry = .ok pid ↔
      ∃ parameters, List.Forall₂ (fun p enriched => EnrichedParameter.of library p = .ok enriched)
        entry.parameters parameters ∧ pid = ⟨entry.code, entry.setup, parameters, entry.extra⟩ := by
  unfold ResolvedPid.of
  rw [Steps.bind_eq_ok_iff]
  constructor
  · rintro ⟨parameters, hall, hpure⟩
    exact ⟨parameters, Steps.mapM_eq_ok_iff.1 hall, (Except.ok.inj hpure).symm⟩
  · rintro ⟨parameters, hall, rfl⟩
    exact ⟨parameters, Steps.mapM_eq_ok_iff.2 hall, rfl⟩

/-- A request of a pruned table is joined to a sound one. -/
lemma sound_of {library : ParameterLibrary} {table : List PidEntry} {entry : PidEntry}
    {pid : ResolvedPid} (hentry : entry ∈ Layers.prune table)
    (h : ResolvedPid.of library entry = .ok pid) : pid.Sound library := by
  obtain ⟨hsome, henabled⟩ := Layers.mem_prune hentry
  obtain ⟨parameters, hall, rfl⟩ := of_eq_ok_iff.1 h
  refine ⟨?_, ?_, ?_⟩
  · rintro rfl
    exact hsome (List.forall₂_nil_right_iff.1 hall)
  · intro enriched henriched
    obtain ⟨p, hp, hof⟩ := Steps.exists_of_mem_values hall henriched
    obtain ⟨definition, -, rfl⟩ := EnrichedParameter.of_eq_ok_iff.1 hof
    exact henabled p hp
  · intro enriched henriched
    obtain ⟨p, -, hof⟩ := Steps.exists_of_mem_values hall henriched
    obtain ⟨definition, hget, rfl⟩ := EnrichedParameter.of_eq_ok_iff.1 hof
    exact ⟨definition, hget, rfl⟩

end ResolvedPid

/-- A fragment with a table of requests is joined request by request, and all else is kept. -/
lemma ResolvedProfile.of_eq_ok_iff {source : Path} {merged : Fragment} {library : ParameterLibrary}
    {origins : Origins} {profile : ResolvedProfile} :
    ResolvedProfile.of source merged library origins = .ok profile ↔
      ∃ table pids, merged.pids = some table ∧
        List.Forall₂ (fun entry pid => ResolvedPid.of library entry = .ok pid) table pids ∧
        profile = ⟨merged.carModel, merged.init, pids, merged.extra, merged.note,
          merged.listedInDocs, source⟩ := by
  unfold ResolvedProfile.of
  cases merged.pids with
  | none => simp
  | some table =>
    dsimp only
    cases hjoined : table.mapM (ResolvedPid.of library) with
    | error name =>
      simp only [reduceCtorEq, Option.some.injEq, false_iff, not_exists, not_and]
      rintro _ pids rfl hpids
      rw [Steps.mapM_eq_ok_iff.2 hpids] at hjoined
      cases hjoined
    | ok pids =>
      simp only [Except.ok.injEq, Option.some.injEq]
      constructor
      · rintro rfl
        exact ⟨table, pids, rfl, Steps.mapM_eq_ok_iff.1 hjoined, rfl⟩
      · rintro ⟨_, others, rfl, hothers, rfl⟩
        rw [Steps.mapM_eq_ok_iff.2 hothers, Except.ok.injEq] at hjoined
        rw [hjoined]

/-! ## What joining reports -/

section Report

variable {library : ParameterLibrary} {name : String}

/-- A parameter cannot be joined if the library does not have its name, which is reported. -/
lemma EnrichedParameter.of_eq_error_iff {parameter : String × String} :
    EnrichedParameter.of library parameter = .error name ↔
      Option.guard (fun name => !library.contains name) parameter.1 = some name := by
  unfold EnrichedParameter.of
  rw [Option.guard_eq_some_iff, ParameterLibrary.contains]
  cases hget : library.get? parameter.1 with
  | none =>
    rw [Except.error.injEq]
    exact ⟨fun hname => ⟨hname, rfl⟩, And.left⟩
  | some definition => simp

/-- Joining a request reports the first of its names that the library does not have. -/
lemma ResolvedPid.of_eq_error_iff {entry : PidEntry} : ResolvedPid.of library entry = .error name ↔
    (OrderedMap.keys entry.parameters).find? (fun name => !library.contains name) = some name := by
  have hfault : ∀ parameter unknown, EnrichedParameter.of library parameter = .error unknown ↔
      (Option.guard (fun name => !library.contains name) ∘ Prod.fst) parameter = some unknown :=
    fun _ _ => EnrichedParameter.of_eq_error_iff
  rw [List.find?_eq_findSome?_guard, OrderedMap.keys, List.findSome?_map,
    ← Steps.mapM_eq_error_iff hfault]
  unfold ResolvedPid.of
  rw [Steps.bind_eq_error_iff]
  simp [pure, Except.pure]

/-- Joining a fragment reports that it has no table, or the first name of its table that the library
does not have, against the origin of the name. -/
lemma ResolvedProfile.of_eq_error_iff {source : Path} {merged : Fragment} {origins : Origins}
    {failure : Failure} : ResolvedProfile.of source merged library origins = .error failure ↔
      (merged.pids = none ∧ failure = .badFragment source .noPids) ∨
      ∃ table name, merged.pids = some table ∧
        (Layers.parameterNames table).find? (fun name => !library.contains name) = some name ∧
        failure = .unknownParameter ((origins.of? name).getD source) name := by
  unfold ResolvedProfile.of
  cases merged.pids with
  | none => simp [eq_comm]
  | some table =>
    have hreport : ∀ name, table.mapM (ResolvedPid.of library) = .error name ↔
        (Layers.parameterNames table).find? (fun name => !library.contains name) = some name := by
      intro name
      rw [Steps.mapM_eq_error_iff fun _ _ => ResolvedPid.of_eq_error_iff, Layers.parameterNames,
        List.find?_flatMap]
    simp only [reduceCtorEq, false_and, false_or, Option.some.injEq, exists_and_left,
      exists_eq_left', ← hreport]
    cases table.mapM (ResolvedPid.of library) with
    | error unknown => simp [eq_comm]
    | ok pids => simp

end Report

/-! ## The outcome of joining -/

/-- A request of a profile has all of the request of the table that it was joined from, with its
parameters one for one in their order, each with the settings of the library for its name. -/
structure ResolvedPid.Joins (library : ParameterLibrary) (entry : PidEntry) (pid : ResolvedPid) :
    Prop where
  /-- The code is kept. -/
  code : pid.code = entry.code
  /-- What is sent before the request is kept. -/
  setup : pid.setup = entry.setup
  /-- The keys beyond the known ones are kept. -/
  extra : pid.extra = entry.extra
  /-- Names and expressions are kept, and the settings are those of the library. -/
  parameters : List.Forall₂ (fun parameter enriched => enriched.name = parameter.1 ∧
    enriched.expression = parameter.2 ∧ ∃ definition,
      library.get? parameter.1 = some definition ∧ enriched.settings = definition.settings)
    entry.parameters pid.parameters

/-- What a request is joined to has everything of it. -/
lemma ResolvedPid.joins_of_of {library : ParameterLibrary} {entry : PidEntry} {pid : ResolvedPid}
    (h : ResolvedPid.of library entry = .ok pid) : Joins library entry pid := by
  obtain ⟨parameters, hall, rfl⟩ := of_eq_ok_iff.1 h
  refine ⟨rfl, rfl, rfl, hall.imp fun parameter enriched hof => ?_⟩
  obtain ⟨definition, hget, rfl⟩ := EnrichedParameter.of_eq_ok_iff.1 hof
  exact ⟨rfl, rfl, definition, hget, rfl⟩

section Names

variable {library : ParameterLibrary} {names : List String}

/-- No unknown name is found exactly if all names are in the library. -/
lemma ParameterLibrary.find?_eq_none_iff :
    names.find? (fun name => !library.contains name) = none ↔
      ∀ name ∈ names, name ∈ library.names := by
  simp [List.find?_eq_none, contains_iff]

/-- The unknown name that is found is the first one: all names in front of it are in the library. -/
lemma ParameterLibrary.find?_eq_some_iff {name : String} :
    names.find? (fun name => !library.contains name) = some name ↔
      ∃ before after, names = before ++ name :: after ∧
        (∀ earlier ∈ before, earlier ∈ library.names) ∧ name ∉ library.names := by
  have hunknown : (!library.contains name) = true ↔ name ∉ library.names := by
    rw [← contains_iff, Bool.not_eq_true', Bool.not_eq_true]
  rw [List.find?_eq_some_iff_append, hunknown]
  simp only [Bool.not_not, contains_iff]
  grind

end Names

namespace ResolvedProfile

/-- **The outcome of joining.** A fragment is joined exactly if it has a table and every name in the
table is in the library. Then the profile has all that the fragment has: its table one for one in
its order, each request with its code, what is sent before it, its other keys and its parameters,
each of these with its expression and the settings of the library. Otherwise, a fragment without a
table is reported as such, and with a table the first name that is not in the library is reported,
request by request and in each request in the order of the parameters. It is reported against the
origin of the name, or against the leaf if there is none.

**Proof sketch.** Each traversal yields a value for each item, or it reports the fault of the first
item that has one (`Steps.mapM_eq_ok_iff`, `Steps.mapM_eq_error_iff`). So both together report the
first unknown one of all names of the table (`of_eq_error_iff`), and there is none exactly if all
are in the library (`ParameterLibrary.find?_eq_none_iff`). -/
theorem joining_outcome (source : Path) (merged : Fragment) (library : ParameterLibrary)
    (origins : Origins) :
    ((∃ profile, ResolvedProfile.of source merged library origins = .ok profile) ↔
      ∃ table, merged.pids = some table ∧
        ∀ name ∈ Layers.parameterNames table, name ∈ library.names) ∧
    (∀ profile, ResolvedProfile.of source merged library origins = .ok profile →
      ∃ table pids, merged.pids = some table ∧
        List.Forall₂ (ResolvedPid.Joins library) table pids ∧
        profile = ⟨merged.carModel, merged.init, pids, merged.extra, merged.note,
          merged.listedInDocs, source⟩) ∧
    (∀ failure, ResolvedProfile.of source merged library origins = .error failure ↔
      (merged.pids = none ∧ failure = .badFragment source .noPids) ∨
      ∃ table before name after, merged.pids = some table ∧
        Layers.parameterNames table = before ++ name :: after ∧
        (∀ earlier ∈ before, earlier ∈ library.names) ∧ name ∉ library.names ∧
        failure = .unknownParameter ((origins.of? name).getD source) name) := by
  refine ⟨?_, ?_, fun failure => ?_⟩
  · cases houtcome : ResolvedProfile.of source merged library origins with
    | ok profile =>
      obtain ⟨table, pids, htable, -, -⟩ := of_eq_ok_iff.1 houtcome
      refine ⟨fun _ => ⟨table, htable, ParameterLibrary.find?_eq_none_iff.1 ?_⟩, fun _ => ⟨_, rfl⟩⟩
      -- an unknown name would have been reported
      refine Option.eq_none_iff_forall_ne_some.2 fun name hfind => ?_
      cases houtcome.symm.trans (of_eq_error_iff.2 (.inr ⟨table, name, htable, hfind, rfl⟩))
    | error failure =>
      simp only [reduceCtorEq, exists_false, false_iff, not_exists, not_and]
      intro table htable hknown
      rcases of_eq_error_iff.1 houtcome with ⟨hnone, -⟩ | ⟨other, name, hother, hfind, -⟩
      · cases htable.symm.trans hnone
      · obtain rfl := Option.some.inj (htable.symm.trans hother)
        cases hfind.symm.trans (ParameterLibrary.find?_eq_none_iff.2 hknown)
  · intro profile h
    obtain ⟨table, pids, htable, hjoined, rfl⟩ := of_eq_ok_iff.1 h
    exact ⟨table, pids, htable, hjoined.imp fun _ _ => ResolvedPid.joins_of_of, rfl⟩
  · simp only [of_eq_error_iff, ParameterLibrary.find?_eq_some_iff]
    grind

/-- A fragment with two requests, the second of which carries three parameters. -/
def sampleWishes : Fragment :=
  { Fragment.empty with
    pids := some [.ofExpressions "A" [("X", "1")],
      .ofExpressions "B" [("X", "2"), ("Z", "3"), ("Y", "4")]] }

/-- Of two unknown names the one that stands first is reported, with and without an origin. With
both of them in the library the fragment is joined. -/
theorem joining_outcome_sampleWishes :
    let part := ParameterLibrary.ofDefinitions [⟨"X", none, [("unit", .text "V")]⟩]
    let whole := ParameterLibrary.ofDefinitions [⟨"Y", none, []⟩, ⟨"Z", none, []⟩, ⟨"X", none, []⟩]
    ResolvedProfile.of ⟨"leaf.json"⟩ sampleWishes part ⟨[("Y", ⟨"a.json"⟩), ("Z", ⟨"b.json"⟩)]⟩ =
        .error (.unknownParameter ⟨"b.json"⟩ "Z") ∧
      ResolvedProfile.of ⟨"leaf.json"⟩ sampleWishes part .none =
        .error (.unknownParameter ⟨"leaf.json"⟩ "Z") ∧
      ∃ pids, ResolvedProfile.of ⟨"leaf.json"⟩ sampleWishes whole .none =
          .ok ⟨"", none, pids, [], none, true, ⟨"leaf.json"⟩⟩ ∧
        List.Forall₂ (ResolvedPid.Joins whole) (sampleWishes.pids.getD []) pids := by
  intro part whole
  obtain ⟨-, -, horigin⟩ := joining_outcome ⟨"leaf.json"⟩ sampleWishes part
    ⟨[("Y", ⟨"a.json"⟩), ("Z", ⟨"b.json"⟩)]⟩
  obtain ⟨-, -, hleaf⟩ := joining_outcome ⟨"leaf.json"⟩ sampleWishes part .none
  obtain ⟨hknown, hfields, -⟩ := joining_outcome ⟨"leaf.json"⟩ sampleWishes whole .none
  refine ⟨(horigin _).2 (.inr ⟨_, ["X", "X"], "Z", ["Y"], rfl, rfl, by decide, by decide, rfl⟩),
    (hleaf _).2 (.inr ⟨_, ["X", "X"], "Z", ["Y"], rfl, rfl, by decide, by decide, rfl⟩), ?_⟩
  obtain ⟨profile, hprofile⟩ := hknown.2 ⟨_, rfl, by decide⟩
  obtain ⟨table, pids, htable, hjoined, rfl⟩ := hfields profile hprofile
  obtain rfl := Option.some.inj htable
  exact ⟨pids, hprofile, hjoined⟩

end ResolvedProfile

end LayeredProfiles
