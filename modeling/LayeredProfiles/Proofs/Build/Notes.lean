import LayeredProfiles.Proofs.Build.Coverage
import LayeredProfiles.Proofs.Layers.Extras
import LayeredProfiles.Proofs.Note.Parentheses
import LayeredProfiles.Proofs.Profile.Enrich

set_option autoImplicit false

/-!
# The notes of an artifact

The note of a vehicle is put in parentheses wherever it is taken from: from the vehicle's own fragment,
or, if there is none or a blank one, from the note file beside it. So what holds of every note in
parentheses holds of the notes of an artifact.

## Main definitions

* `Build.NoteSource` — the texts that the note of a vehicle can be taken from.

## Main results

* `Build.exists_noteSource` — every note of a profile is taken from one of them.
* `Build.notes_enclosed` — which notes are enclosed, and which are not.
-/

namespace LayeredProfiles.Build

/-- The texts that the note of a vehicle can be taken from. -/
inductive NoteSource (config : BuildConfig) (tree : FileTree) (key : Path) : String → Prop
  /-- The note of the vehicle's own fragment, if it is not blank. -/
  | own {leaf : Fragment} {text : String} (loads : config.folder.source tree key = .ok leaf)
      (given : leaf.note = some text) (filled : Text.isAllBlank text = false) :
      NoteSource config tree key text
  /-- What the note file beside the fragment offers, if the fragment has no note of its own. -/
  | offered {leaf : Fragment} {file : String} {text : List Char}
      (loads : config.folder.source tree key = .ok leaf)
      (missing : ∀ own, leaf.note = some own → Text.isAllBlank own = true)
      (read : tree.readIfThere (config.noteFiles.pathFor key) = .ok (some file))
      (offers : Note.Offered (Note.lines file) text) :
      NoteSource config tree key (String.ofList text)

variable {config : BuildConfig} {tree : FileTree} {library : ParameterLibrary}

/-- What is resolved has the note of the leaf. -/
lemma note_of_profile {key : Path} {leaf : Fragment} {resolution : Resolution}
    {profile : ResolvedProfile}
    (hresolve : leaf.resolve (config.folder.source tree) config.maxDepth key = .ok resolution)
    (hprofile : ResolvedProfile.of key resolution.profile library resolution.origins = .ok profile) :
    profile.note = leaf.note := by
  obtain ⟨chain, hchain, hfound⟩ := Fragment.resolve_eq_ok_iff.1 hresolve
  obtain ⟨ancestors, rfl, -⟩ := Chain.exists_of_collect hchain
  obtain ⟨pids, hpids⟩ := Resolution.exists_profile_of_ofChain? hfound
  obtain ⟨_, _, -, -, rfl⟩ := ResolvedProfile.of_eq_ok_iff.1 hprofile
  rw [hpids]

/-- The note of a profile is a text that it can be taken from, in parentheses. -/
lemma exists_noteSource {key : Path} {car : ResolvedProfile} {note : String}
    (h : compileFragment config tree library key = .ok car) (hnote : car.note = some note) :
    ∃ text, NoteSource config tree key text ∧ note = Note.parenthesized text := by
  obtain ⟨leaf, resolution, profile, found, hleaf, hresolve, hprofile, hfound, rfl⟩ :=
    compileFragment_eq_ok_iff.1 h
  obtain rfl : found = some note := hnote
  have hown := note_of_profile hresolve hprofile
  unfold noteOf at hfound
  split at hfound
  · next own hfilter =>
    obtain ⟨hgiven, hfilled⟩ := Option.filter_eq_some_iff.1 hfilter
    cases hfound
    exact ⟨own, .own hleaf (hown ▸ hgiven) (by simpa using hfilled), rfl⟩
  · next hfilter =>
    have hmissing : ∀ own, leaf.note = some own → Text.isAllBlank own = true := by
      intro own hgiven
      simpa using Option.filter_eq_none_iff.1 hfilter own (hown ▸ hgiven)
    obtain ⟨read, hread, hchoice⟩ := Steps.bind_eq_ok_iff.1 hfound
    cases read with
    | none => cases hchoice
    | some file =>
      obtain ⟨text, hoffers, hsame⟩ := Note.exists_offered_of_choose? (Except.ok.inj hchoice)
      exact ⟨_, .offered hleaf hmissing hread hoffers, hsame⟩

/-- **Which notes are enclosed.** Putting a note in parentheses twice is the same as putting it in
parentheses once, and inside of the outer ones there is the trimmed text, or the inside of it. If the
parentheses of a text are balanced, then its note is enclosed, and the first parenthesis is closed by
the last one only, unless the trimmed text is a sequence of groups: such a text is left as it is, and is
not enclosed. Every note of an artifact is a text in parentheses, be it the fragment's own or one that
the note file offers, so it is enclosed if that text is balanced and not a sequence of groups.

**Proof sketch.** If a balanced text has a parenthesis at each end, the first one is closed behind a
balanced part (`Note.Balanced.exists_closed`), in one place only (`Note.Balanced.eq_of_closed`). If that
is the end of the text, the text is enclosed, and otherwise it is a sequence. The fragments that a leaf
builds on have no say in its note (`note_of_profile`). -/
theorem notes_enclosed (text : String) (choices : List Nat) (session : Session) :
    (Note.parenthesized (Note.parenthesized text) = Note.parenthesized text ∧
      ∃ inner, (Note.parenthesized text).toList = '(' :: (inner ++ [')']) ∧
        (inner = Text.trim text.toList ∨ Text.trim text.toList = '(' :: (inner ++ [')']))) ∧
    (Note.Balanced text.toList →
      (¬Note.IsSequence (Text.trim text.toList) → Note.IsEnclosed (Note.parenthesized text).toList ∧
        ∀ inner rest, (Note.parenthesized text).toList = '(' :: (inner ++ ')' :: rest) →
          Note.Balanced inner → rest = []) ∧
      (Note.IsSequence (Text.trim text.toList) →
        (Note.parenthesized text).toList = Text.trim text.toList ∧
          ¬Note.IsEnclosed (Note.parenthesized text).toList)) ∧
    ∀ artifact after, (compiled choices).runIn session = (.ok artifact, after) →
      ∀ car ∈ artifact.cars, ∀ note, car.note = some note →
        ∃ source, NoteSource session.config session.tree car.source source ∧
          note = Note.parenthesized source ∧
          (Note.Balanced source.toList → ¬Note.IsSequence (Text.trim source.toList) →
            Note.IsEnclosed note.toList) := by
  refine ⟨⟨Note.parenthesized_parenthesized text, Note.exists_parenthesized text⟩,
    fun hbalanced => ?_, fun artifact after h car hcar note hnote => ?_⟩
  · obtain ⟨hiff, hkept⟩ := Note.isEnclosed_parenthesized_iff hbalanced
    refine ⟨fun hsingle => ⟨hiff.2 hsingle, fun inner rest heq hinner => ?_⟩,
      fun hsequence => ⟨hkept hsequence, fun henclosed => hiff.1 henclosed hsequence⟩⟩
    have henclosed := hiff.2 hsingle
    rw [heq] at henclosed
    exact henclosed.closed_at_end hinner
  · obtain ⟨library, -, -, hcompile⟩ := runIn_compiled_eq_ok_iff.1 h
    obtain ⟨keys, -, -, hcars⟩ := compile_eq_ok hcompile
    obtain ⟨source, hsource, rfl⟩ := exists_noteSource (hcars car hcar) hnote
    exact ⟨source, hsource, rfl, fun hbalanced => (Note.isEnclosed_parenthesized_iff hbalanced).1.2⟩

/-! ## A session -/

/-- A session with a fragment that has a note of its own, and one whose note is in the note file. -/
def sampleNotes : Session where
  config := { BuildConfig.default with profilesDir := ⟨"p"⟩, paramsPath := ⟨"l"⟩ }
  library := none
  tree :=
    let fragment := fun fields : List (String × Json) =>
      Entry.file (.text (Json.object (("pids", .array []) :: fields)).toText)
    ⟨[(["l"], .file (.text (Json.object []).toText)), (["p"], .directory),
      (["p", "a.json"], fragment [("note", .text " (2019 (late)) ")]),
      (["p", "b.json"], fragment [("car_model", .text "B")]),
      (["p", "note.md"], .file (.text "- B: from (about) 2020\n"))], []⟩

/-- What the session compiles to. -/
def notedArtifact : Artifact where
  cars := [⟨"", none, [], [], some "(2019 (late))", true, ⟨"a.json"⟩⟩,
    ⟨"B", none, [], [], some "(from (about) 2020)", true, ⟨"b.json"⟩⟩]

/-- The session compiles to its artifact. -/
lemma runIn_compiled_sampleNotes :
    (compiled []).runIn sampleNotes = (.ok notedArtifact, sampleNotes.keep ⟨[]⟩) := by
  refine runIn_compiled_eq_ok_iff.2 ⟨⟨[]⟩, by decide +kernel, rfl, ?_⟩
  have hwalk : sampleNotes.tree.walk sampleNotes.config.folder.base =
      .ok (["a.json", "b.json", "note.md"].map fun name =>
        ([name], Path.join ⟨"p"⟩ ⟨name⟩)) := by decide +kernel
  have hall : FanOut.all sampleNotes.config.maxConcurrency
      (compileOrSkip sampleNotes.config sampleNotes.tree ⟨[]⟩) [] [⟨"a.json"⟩, ⟨"b.json"⟩] =
        .ok (notedArtifact.cars.map some) := by decide +kernel
  exact compile_of_pairwise hwalk (by decide +kernel) hall (by decide +kernel)

/-- The fragment's own note is enclosed, and the other one is offered by the note file. -/
theorem notes_enclosed_sampleNotes :
    (compiled []).runIn sampleNotes = (.ok notedArtifact, sampleNotes.keep ⟨[]⟩) ∧
      Note.Balanced " (2019 (late)) ".toList ∧
      ¬Note.IsSequence (Text.trim " (2019 (late)) ".toList) ∧
      Note.IsEnclosed (Note.parenthesized " (2019 (late)) ").toList ∧
      Note.IsEnclosed "(2019 (late))".toList ∧
      ∃ source, NoteSource sampleNotes.config sampleNotes.tree ⟨"b.json"⟩ source ∧
        "(from (about) 2020)" = Note.parenthesized source := by
  have hbalanced : Note.Balanced " (2019 (late)) ".toList := by decide +kernel
  have hinside : Note.Balanced "2019 (late)".toList := by decide +kernel
  have hsingle : ¬Note.IsSequence (Text.trim " (2019 (late)) ".toList) := fun h =>
    h.not_isEnclosed ⟨"2019 (late)".toList, by decide +kernel, hinside⟩
  obtain ⟨-, hgroup, hnotes⟩ := notes_enclosed " (2019 (late)) " [] sampleNotes
  have hall := hnotes _ _ runIn_compiled_sampleNotes
  refine ⟨runIn_compiled_sampleNotes, hbalanced, hsingle, ((hgroup hbalanced).1 hsingle).1, ?_, ?_⟩
  · have hown : (sampleNotes.config.folder.source sampleNotes.tree ⟨"a.json"⟩).toOption.bind
        Fragment.note = some " (2019 (late)) " := by decide +kernel
    obtain ⟨source, hsource, -, henclosed⟩ := hall _ List.mem_cons_self _ rfl
    cases hsource with
    | own loads given filled =>
      rw [loads] at hown
      obtain rfl := Option.some.inj (given.symm.trans hown)
      exact henclosed hbalanced hsingle
    | offered loads missing read offers =>
      rw [loads] at hown
      exact absurd (missing _ hown) (by decide +kernel)
  · obtain ⟨source, hsource, hsame, -⟩ := hall _ (.tail _ (.head _)) _ rfl
    exact ⟨source, hsource, hsame⟩

/-- A text of two groups is balanced, but what is put around it is nothing, and it is not enclosed. -/
theorem two_groups_not_enclosed :
    Note.Balanced "(a) (b)".toList ∧ Note.parenthesized "(a) (b)" = "(a) (b)" ∧
      ¬Note.IsEnclosed (Note.parenthesized "(a) (b)").toList := by
  have hsame : Note.parenthesized "(a) (b)" = "(a) (b)" := by decide +kernel
  refine ⟨by decide +kernel, hsame, ?_⟩
  rw [hsame]
  exact Note.IsSequence.not_isEnclosed
    ⟨"a".toList, " (b)".toList, by decide +kernel, by decide +kernel, by decide +kernel⟩

end LayeredProfiles.Build
