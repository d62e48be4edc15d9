import LayeredProfiles.Build.Compile
import LayeredProfiles.Proofs.Fragment.Reading
import LayeredProfiles.Proofs.Layers.Resolution

set_option autoImplicit false

/-!
# Which fragments are left out

A fragment is left out of a build if its file holds a document that is no fragment, or a fragment
that neither builds on another one nor has a table of requests. This can be told from the text of
the file alone: nothing that happens afterwards, while the chain is collected, the layers are
merged, the parameters are looked up or the note is found, is a reason to leave a fragment out.

## Main definitions

* `Fragment.givesNothing` — whether a document gives no profile by itself.
* `Build.leavesOut` — whether a fragment is left out.

## Main results

* `Fragment.pids_isSome_ofJson` — a fragment has a table of requests if its document has the key.
* `Build.leavesOut_of_ok`, `Build.leavesOut_of_error` — compiling a fragment fails recoverably
  exactly if the fragment is left out.
-/

namespace LayeredProfiles

namespace Fragment

/-- Whether a document gives no profile by itself: it is no fragment, or it neither builds on a
fragment nor has a table of requests. -/
def givesNothing (document : Json) : Bool :=
  match ofJson document with
  | .error _ => true
  | .ok f => f.parent.isNone && !OrderedMap.contains (document.fields?.getD []) "pids"

/-- Only the field of the table of requests gives a fragment one. -/
lemma pids_isSome_readField {f g : Fragment} {field : String × Json}
    (h : readField f field = .ok g) : g.pids.isSome = (f.pids.isSome || field.1 == "pids") := by
  obtain ⟨hsuits, rfl⟩ := readField_eq_ok_iff.1 h
  by_cases hname : field.1 = "pids"
  · rw [hname] at hsuits
    obtain ⟨table, htable⟩ := PidEntry.exists_table?_iff.2 hsuits
    simp [place, hname, htable]
  · simp [place, hname, beq_eq_false_iff_ne.2 hname]

/-- Reading fields gives a fragment a table of requests if one of them is that field. -/
lemma pids_isSome_foldlM {fields : OrderedMap String Json} {f g : Fragment}
    (h : fields.foldlM readField f = .ok g) :
    g.pids.isSome = (f.pids.isSome || OrderedMap.contains fields "pids") := by
  induction fields generalizing f with
  | nil =>
    cases h
    simp [OrderedMap.contains, OrderedMap.get?]
  | cons field rest ih =>
    rw [List.foldlM_cons] at h
    obtain ⟨next, hfield, hrest⟩ := Steps.bind_eq_ok_iff.1 h
    rw [ih hrest, pids_isSome_readField hfield, Bool.or_assoc]
    by_cases hname : field.1 = "pids"
    · simp [OrderedMap.contains, OrderedMap.get?, hname]
    · simp [OrderedMap.contains, OrderedMap.get?, hname, beq_eq_false_iff_ne.2 hname]

/-- A fragment has a table of requests if its document has the key. -/
lemma pids_isSome_ofJson {document : Json} {f : Fragment} (h : ofJson document = .ok f) :
    f.pids.isSome = OrderedMap.contains (document.fields?.getD []) "pids" := by
  unfold ofJson at h
  split at h
  · next fields =>
    rw [pids_isSome_foldlM h]
    rfl
  · cases h

/-- What gives no profile by itself, said of the fragment that a document holds. -/
lemma givesNothing_of_ok {document : Json} {f : Fragment} (h : ofJson document = .ok f) :
    givesNothing document = (f.parent.isNone && f.pids.isNone) := by
  simp only [givesNothing, h, ← pids_isSome_ofJson h, Option.not_isSome]

end Fragment

namespace Build

/-- Whether a fragment is left out of a build: its file holds a document, but one that gives no
profile by itself. -/
def leavesOut (config : BuildConfig) (tree : FileTree) (key : Path) : Bool :=
  match config.folder.readText tree key with
  | .error _ => false
  | .ok text =>
    match Json.parse text with
    | .error _ => false
    | .ok document => Fragment.givesNothing document

variable {config : BuildConfig} {tree : FileTree} {library : ParameterLibrary} {key : Path}

/-! ## Finding the fragment -/

/-- A file that holds a document is left out if the document gives no profile by itself. -/
lemma leavesOut_of_document {text : String} {document : Json}
    (htext : config.folder.readText tree key = .ok text)
    (hdocument : Json.parse text = .ok document) :
    leavesOut config tree key = Fragment.givesNothing document := by
  unfold leavesOut
  rw [htext]
  dsimp only
  rw [hdocument]

/-- A fragment that loads is left out exactly if it neither builds on another one nor has a table of
requests. -/
lemma leavesOut_of_source {leaf : Fragment} (h : config.folder.source tree key = .ok leaf) :
    leavesOut config tree key = (leaf.parent.isNone && leaf.pids.isNone) := by
  obtain ⟨text, htext, hparse⟩ := Steps.bind_eq_ok_iff.1 h
  obtain ⟨document, hdocument, hfragment⟩ := Fragment.parse_eq_ok_iff.1 hparse
  rw [leavesOut_of_document htext hdocument]
  exact Fragment.givesNothing_of_ok hfragment

/-- A text that is no fragment is left out exactly if it is a document. -/
lemma isRecoverable_of_parse {text : String} {failure : Failure}
    (htext : config.folder.readText tree key = .ok text)
    (h : Fragment.parse key text = .error failure) :
    failure.isRecoverable = leavesOut config tree key := by
  unfold Fragment.parse at h
  split at h
  · next defect hdocument =>
    cases h
    unfold leavesOut
    rw [htext]
    dsimp only
    rw [hdocument]
    rfl
  · next document hdocument =>
    obtain ⟨defect, hdefect, rfl⟩ := Steps.mapError_eq_error_iff.1 h
    rw [leavesOut_of_document htext hdocument, Fragment.givesNothing, hdefect]
    rfl

/-- A fragment that does not load is left out exactly if the failure concerns it only. -/
lemma isRecoverable_of_source {failure : Failure}
    (h : config.folder.source tree key = .error failure) :
    failure.isRecoverable = leavesOut config tree key := by
  rcases Steps.bind_eq_error_iff.1 h with htext | ⟨text, htext, hparse⟩
  · unfold leavesOut
    rw [htext]
    unfold ProfileFolder.readText FileTree.read at htext
    obtain ⟨fault, -, rfl⟩ := Steps.mapError_eq_error_iff.1 htext
    rfl
  · exact isRecoverable_of_parse htext hparse

/-! ## What comes afterwards -/

/-- Joining a fragment with the settings of its parameters fails for a reason to go on without it
only if it has no table of requests. -/
lemma isRecoverable_of_profile {merged : Fragment} {origins : Origins} {failure : Failure}
    (h : ResolvedProfile.of key merged library origins = .error failure) :
    failure.isRecoverable = merged.pids.isNone := by
  unfold ResolvedProfile.of at h
  split at h
  · next hpids =>
    cases h
    rw [hpids]
    rfl
  · next table hpids =>
    split at h
    · cases h
      rw [hpids]
      rfl
    · cases h

/-- A profile stems from a fragment with a table of requests, and it has the fragment's key. -/
lemma source_of_profile {merged : Fragment} {origins : Origins} {profile : ResolvedProfile}
    (h : ResolvedProfile.of key merged library origins = .ok profile) :
    profile.source = key ∧ merged.pids.isNone = false := by
  unfold ResolvedProfile.of at h
  split at h
  · cases h
  · next table hpids =>
    split at h
    · cases h
    · cases h
      rw [hpids]
      exact ⟨rfl, rfl⟩

/-- A note that cannot be read is no reason to go on without the fragment. -/
lemma isRecoverable_of_note {profile : ResolvedProfile} {failure : Failure}
    (h : noteOf config tree key profile = .error failure) : failure.isRecoverable = false := by
  unfold noteOf at h
  split at h
  · cases h
  · rcases Steps.bind_eq_error_iff.1 h with hread | ⟨text, -, hchoose⟩
    · unfold FileTree.readIfThere at hread
      split at hread <;> cases hread
      rfl
    · cases text <;> cases hchoose

/-! ## Compiling a fragment -/

/-- What compiling a fragment amounts to: the fragment loads and is resolved and joined with
settings, and a note is found. -/
lemma compileFragment_eq_ok_iff {car : ResolvedProfile} :
    compileFragment config tree library key = .ok car ↔
      ∃ leaf resolution profile note, config.folder.source tree key = .ok leaf ∧
        leaf.resolve (config.folder.source tree) config.maxDepth key = .ok resolution ∧
        ResolvedProfile.of key resolution.profile library resolution.origins = .ok profile ∧
        noteOf config tree key profile = .ok note ∧ car = { profile with note := note } := by
  simp only [compileFragment, Steps.bind_eq_ok_iff, Except.ok.injEq]
  constructor
  · rintro ⟨leaf, hleaf, resolution, hresolve, profile, hprofile, note, hnote, rfl⟩
    exact ⟨leaf, resolution, profile, note, hleaf, hresolve, hprofile, hnote, rfl⟩
  · rintro ⟨leaf, resolution, profile, note, hleaf, hresolve, hprofile, hnote, rfl⟩
    exact ⟨leaf, hleaf, resolution, hresolve, profile, hprofile, note, hnote, rfl⟩

/-- A fragment that compiles is not left out, and its profile has its key. -/
lemma leavesOut_of_ok {car : ResolvedProfile}
    (h : compileFragment config tree library key = .ok car) :
    leavesOut config tree key = false ∧ car.source = key := by
  obtain ⟨leaf, resolution, profile, note, hleaf, hresolve, hprofile, -, rfl⟩ :=
    compileFragment_eq_ok_iff.1 h
  obtain ⟨hsource, hpids⟩ := source_of_profile hprofile
  refine ⟨?_, hsource⟩
  rw [leavesOut_of_source hleaf, ← Fragment.pids_isNone_of_resolve hresolve, hpids]

/-- A fragment that does not compile is left out exactly if the failure concerns it only. -/
lemma leavesOut_of_error {failure : Failure}
    (h : compileFragment config tree library key = .error failure) :
    failure.isRecoverable = leavesOut config tree key := by
  rcases Steps.bind_eq_error_iff.1 h with hleaf | ⟨leaf, hleaf, h⟩
  · exact isRecoverable_of_source hleaf
  rw [leavesOut_of_source hleaf]
  rcases Steps.bind_eq_error_iff.1 h with hresolve | ⟨resolution, hresolve, h⟩
  · obtain ⟨hparent, hfatal⟩ := Fragment.isRecoverable_of_resolve hresolve
    rw [hfatal, hparent, Bool.false_and]
  rw [← Fragment.pids_isNone_of_resolve hresolve]
  rcases Steps.bind_eq_error_iff.1 h with hprofile | ⟨profile, hprofile, h⟩
  · exact isRecoverable_of_profile hprofile
  rw [(source_of_profile hprofile).2]
  rcases Steps.bind_eq_error_iff.1 h with hnote | ⟨note, hnote, h⟩
  · exact isRecoverable_of_note hnote
  · cases h

end Build

end LayeredProfiles
