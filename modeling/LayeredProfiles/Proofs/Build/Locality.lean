import LayeredProfiles.Proofs.Build.Inputs
import LayeredProfiles.Proofs.Chain.Lookups

set_option autoImplicit false

/-!
# What a single fragment depends on

Compiling a fragment reads the fragment, what its references lead to, and the note file beside it.
Two trees in which these files are read alike give the same profile or the same failure. So once a
fragment compiles, it does not matter what happens to the fragments outside its chain or to the note
files of other folders.

## Main definitions

* `Build.references`, `Build.reads` — where a fragment's references lead, and which files are read.
* `FileTree.Keeps` — a tree has kept its directories and what is at the end of some paths.

## Main results

* `Build.compileFragment_congr` — only what is read matters.
* `Build.reads_eq` — once a chain is collected, its files and the note file are read.
* `FileTree.Keeps.readText` — what is kept is read as before.
* `Build.compileFragment_local` — all of it, up to the entry of the artifact.
-/

namespace LayeredProfiles

namespace Build

/-- The keys that the references of a fragment lead to, as far as fragments load. -/
def references (config : BuildConfig) (tree : FileTree) (key : Path) : List Path :=
  match config.folder.source tree key with
  | .ok leaf =>
    Chain.lookups (config.folder.source tree) config.maxDepth [key.normalized] leaf.parent
  | .error _ => []

/-- The files that compiling a fragment tries to read: the fragment's own, those that its references
lead to, and the note file beside it. -/
def reads (config : BuildConfig) (tree : FileTree) (key : Path) : List Path :=
  config.folder.pathOf key :: (references config tree key).map config.folder.pathOf ++
    [config.noteFiles.pathFor key]

/-! ## Two trees that are read alike -/

section Congr

variable {config : BuildConfig} {before after : FileTree} {library : ParameterLibrary} {key : Path}

/-- The references of a fragment that loads are followed. -/
lemma references_of_source {leaf : Fragment} (h : config.folder.source before key = .ok leaf) :
    references config before key =
      Chain.lookups (config.folder.source before) config.maxDepth [key.normalized] leaf.parent := by
  unfold references
  rw [h]

/-- A fragment resolves to the same if its source agrees with the other one where it is asked. -/
lemma resolve_congr {source other : FragmentSource} {maxDepth : Nat} {leaf : Fragment}
    (h : ∀ k ∈ Chain.lookups source maxDepth [key.normalized] leaf.parent, other k = source k) :
    leaf.resolve other maxDepth key = leaf.resolve source maxDepth key := by
  unfold Fragment.resolve
  rw [Chain.collect_congr maxDepth key leaf h]

/-- A vehicle has the same note if the note file is read alike. -/
lemma noteOf_congr (h : after.readText (config.noteFiles.pathFor key) =
    before.readText (config.noteFiles.pathFor key)) (profile : ResolvedProfile) :
    noteOf config after key profile = noteOf config before key profile := by
  unfold noteOf NoteFiles.noteFor FileTree.readIfThere
  rw [h]

/-- **Only what is read matters**: a fragment compiles to the same profile, or fails in the same way,
in every tree in which the files that it tries to read are read alike. -/
lemma compileFragment_congr
    (h : ∀ path ∈ reads config before key, after.readText path = before.readText path) :
    compileFragment config after library key = compileFragment config before library key := by
  have hleaf : config.folder.source after key = config.folder.source before key :=
    ProfileFolder.source_congr (h _ (by simp [reads]))
  have hnote := noteOf_congr (h (config.noteFiles.pathFor key) (by simp [reads]))
  unfold compileFragment
  dsimp only
  rw [hleaf]
  cases hload : config.folder.source before key with
  | error failure => simp only [bind, Except.bind]
  | ok leaf =>
    have hreferences : ∀ k ∈ Chain.lookups (config.folder.source before) config.maxDepth
        [key.normalized] leaf.parent,
        config.folder.source after k = config.folder.source before k := by
      intro k hk
      refine ProfileFolder.source_congr (h _ ?_)
      rw [← references_of_source hload] at hk
      simp only [reads, List.cons_append, List.mem_cons, List.mem_append, List.mem_map]
      exact .inr (.inl ⟨k, hk, rfl⟩)
    dsimp only [bind, Except.bind]
    rw [resolve_congr hreferences]
    simp only [hnote]

/-- Once a fragment is resolved, the files that are read are those of its chain and the note file. -/
lemma reads_eq {leaf : Fragment} {resolution : Resolution}
    (hleaf : config.folder.source before key = .ok leaf)
    (hresolve : leaf.resolve (config.folder.source before) config.maxDepth key = .ok resolution) :
    reads config before key =
      resolution.chain.map config.folder.pathOf ++ [config.noteFiles.pathFor key] := by
  obtain ⟨chain, hcollect, hfound⟩ := Fragment.resolve_eq_ok_iff.1 hresolve
  obtain ⟨merged, -, rfl⟩ := Option.map_eq_some_iff.1 hfound
  obtain ⟨ancestors, rfl, hkeys, -⟩ := Chain.exists_lookups_of_collect hcollect
  have hnames : ∀ name ∈ key.names, Path.IsName name := Path.isName_of_mem_names
  have hagain : key.normalized.normalized = key.normalized := Path.normalized_ofNames hnames
  have hself := config.folder.pathOf_normalized hagain
  have hreferences : references config before key = Chain.keys ancestors := by
    rw [references_of_source hleaf, hkeys]
  rw [reads, hreferences, ← hself]
  rfl

end Congr

end Build

/-! ## A tree that has kept some places -/

/-- The second tree has kept all directories of the first one, and what was at the end of the given
paths. Elsewhere files may have been added, edited or deleted, and directories added. -/
structure FileTree.Keeps (before after : FileTree) (paths : List Path) : Prop where
  /-- Paths are resolved from the same place. -/
  current : after.current = before.current
  /-- Directories are kept. -/
  directory : ∀ l, before.at? l = some .directory → after.at? l = some .directory
  /-- What is at the end of the paths is kept, also if nothing is there. -/
  place : ∀ path ∈ paths, ∀ l, before.resolve path = .ok l → after.at? l = before.at? l

namespace FileTree

variable {before after : FileTree} {paths : List Path}

/-- A path that leads somewhere is read as before, if that place is kept. -/
lemma Keeps.readText (h : before.Keeps after paths) {path : Path} (hpath : path ∈ paths)
    {location : Location} (hresolve : before.resolve path = .ok location) :
    after.readText path = before.readText path := by
  exact readText_congr hresolve (resolve_mono h.current h.directory hresolve)
    (h.place path hpath location hresolve)

/-- Directories are kept if those among the entries are. -/
lemma directory_kept
    (h : ∀ entry ∈ before.entries, entry.2 = .directory → after.at? entry.1 = some .directory) :
    ∀ l, before.at? l = some .directory → after.at? l = some .directory := by
  intro l hl
  cases l with
  | nil => rfl
  | cons name rest => exact h _ (OrderedMap.mem_of_get? hl) rfl

end FileTree

namespace ProfileFolder

variable {folder : ProfileFolder} {tree before after : FileTree} {paths : List Path}
  {names : List String}

/-- A fragment that can be read is a file under its names below the directory. -/
lemma exists_file_of_readText (hnames : ∀ name ∈ names, Path.IsName name) {text : String}
    (h : tree.readText (folder.pathOf (.ofNames names)) = .ok text) :
    ∃ base content, tree.reach folder.base = .ok base ∧ tree.at? base = some .directory ∧
      tree.resolve (folder.pathOf (.ofNames names)) = .ok (base ++ names) ∧
      tree.at? (base ++ names) = some (.file content) := by
  obtain ⟨location, hresolve, hread⟩ := FileTree.readText_eq_ok_iff.1 h
  have hjoin : tree.resolve (folder.base.join (.ofNames names)) = .ok location := by
    rwa [pathOf, Path.normalized_ofNames hnames] at hresolve
  obtain ⟨base, hreach, hdirectory, rfl⟩ := FileTree.exists_below_of_resolve hnames hjoin
  exact ⟨base, .text text, hreach, hdirectory, hresolve, hread⟩

/-- What a walk through a directory finds. -/
lemma walk_of_directory {base : Location} {files : List (Location × Path)}
    (hreach : tree.reach folder.base = .ok base) (hdirectory : tree.at? base = some .directory)
    (hwalk : tree.walk folder.base = .ok files) :
    tree.resolve folder.base = .ok base ∧ files = (tree.filesBelow base).map fun file =>
      (file.1, folder.base.join (.ofNames file.1)) := by
  cases hresolve : tree.resolve folder.base with
  | error fault =>
    unfold FileTree.walk at hwalk
    rw [hresolve] at hwalk
    cases hwalk
  | ok found =>
    obtain rfl := Except.ok.inj (hreach.symm.trans (FileTree.reach_of_resolve hresolve))
    have hfiles := FileTree.walk_of_resolve hresolve hdirectory
    exact ⟨rfl, Except.ok.inj (hwalk.symm.trans hfiles)⟩

/-- A fragment that is listed, and can be read, stays listed if its file is kept. -/
lemma mem_keys_of_keeps (h : before.Keeps after paths) (hnames : ∀ name ∈ names, Path.IsName name)
    (hpath : folder.pathOf (.ofNames names) ∈ paths) {text : String}
    (hread : before.readText (folder.pathOf (.ofNames names)) = .ok text) {keys listed : List Path}
    (hkeys : folder.keys before = .ok keys) (hkey : .ofNames names ∈ keys)
    (hlisted : folder.keys after = .ok listed) : .ofNames names ∈ listed := by
  obtain ⟨base, content, hreach, hdirectory, hresolve, hfile⟩ := exists_file_of_readText hnames hread
  obtain ⟨files, hwalk, rfl⟩ := keys_eq_ok_iff.1 hkeys
  obtain ⟨hbase, rfl⟩ := walk_of_directory hreach hdirectory hwalk
  obtain ⟨found, hfound, hsame⟩ := List.mem_map.1 ((List.mergeSort_perm _ _).subset hkey)
  obtain ⟨hmem, hextension⟩ := List.mem_filter.1 hfound
  obtain ⟨other, -, rfl⟩ := List.mem_map.1 hmem
  dsimp only at hsame hextension
  rw [hsame] at hextension
  -- the file is where it was, so a walk through the other tree finds it under the same names
  have hkept : after.at? (base ++ names) = some (.file content) :=
    (h.place _ hpath _ hresolve).trans hfile
  have hentry : (base ++ names, Entry.file content) ∈ after.entries := by
    refine OrderedMap.mem_of_get? ?_
    rwa [← FileTree.at?_eq_get?]
    intro hroot
    rw [hroot] at hfile
    cases hfile
  obtain ⟨files, hwalk, rfl⟩ := keys_eq_ok_iff.1 hlisted
  have hafter := FileTree.resolve_mono h.current h.directory hbase
  obtain rfl := Except.ok.inj
    (hwalk.symm.trans (FileTree.walk_of_resolve hafter (h.directory base hdirectory)))
  refine (List.mergeSort_perm _ _).symm.subset (List.mem_map.2 ⟨_, List.mem_filter.2
    ⟨List.mem_map.2 ⟨_, FileTree.mem_filesBelow_iff.2 hentry, rfl⟩, hextension⟩, rfl⟩)

end ProfileFolder

namespace Build

variable {config : BuildConfig} {before after : FileTree} {library : ParameterLibrary}
  {names : List String}

/-- Every file that compiling a fragment tries to read has a place, if the fragment is resolved: the
note file need not be there, but it would be beside the fragment. -/
lemma exists_resolve_of_mem_reads (hnote : Path.IsName config.noteFile)
    (hnames : ∀ name ∈ names, Path.IsName name) {leaf : Fragment} {resolution : Resolution}
    (hleaf : config.folder.source before (.ofNames names) = .ok leaf)
    (hresolve : leaf.resolve (config.folder.source before) config.maxDepth (.ofNames names) =
      .ok resolution) {path : Path} (hpath : path ∈ reads config before (.ofNames names)) :
    ∃ l, before.resolve path = .ok l := by
  have hread : ∀ {key f}, config.folder.source before key = .ok f →
      ∃ l, before.resolve (config.folder.pathOf key) = .ok l := by
    intro key f hf
    obtain ⟨text, htext, -⟩ := ProfileFolder.exists_parse_of_source hf
    obtain ⟨l, hl, -⟩ := Steps.bind_eq_ok_iff.1 (ProfileFolder.readText_eq_ok_iff.1 htext)
    exact ⟨l, hl⟩
  unfold reads at hpath
  rcases List.mem_append.1 hpath with hfragment | hlast
  · rcases List.mem_cons.1 hfragment with hself | hreference
    · exact hself ▸ hread hleaf
    · obtain ⟨chain, hcollect, -⟩ := Fragment.resolve_eq_ok_iff.1 hresolve
      obtain ⟨ancestors, -, hkeys, hsources⟩ := Chain.exists_lookups_of_collect hcollect
      rw [references_of_source hleaf, ← hkeys] at hreference
      obtain ⟨key, hkey, rfl⟩ := List.mem_map.1 hreference
      obtain ⟨link, hlink, rfl⟩ := List.mem_map.1 hkey
      exact hread (hsources link hlink)
  · obtain rfl := List.mem_singleton.1 hlast
    obtain ⟨l, hl⟩ := hread hleaf
    rw [ProfileFolder.pathOf, Path.normalized_ofNames hnames] at hl
    obtain ⟨above, hspot⟩ := FileTree.exists_spot_beside hnames hnote hl
    refine ⟨above ++ [config.noteFile], ?_⟩
    rw [BuildConfig.noteFiles, NoteFiles.pathFor_ofNames hnote hnames]
    exact hspot.resolve

/-- **A fragment depends on its chain and its note file only.** In every tree in which the files are
read alike that compiling a fragment tries to read, the fragment compiles to the same profile or
fails in the same way. Let a fragment below the directory of the fragments compile. Then the files
that are read are those of its chain and the note file beside it, and it compiles to the same
profile whatever happens elsewhere: as long as all directories stay, and these files do, files may
be added, edited or deleted, be it fragments outside the chain or note files of other folders. If
the fragment is listed, its profile is still in every artifact, and no other one has its key.

**Proof sketch.** Collecting a chain asks for the references only (`Chain.collect_congr`), and these
are the ancestors in the chain if it is collected (`reads_eq`). A path that leads somewhere still
leads there if directories are kept (`FileTree.Keeps.readText`); that of the note file does, as it
is beside a file that was read (`exists_resolve_of_mem_reads`). -/
theorem compileFragment_local (config : BuildConfig) (library : ParameterLibrary)
    (before : FileTree) :
    (∀ key after, (∀ path ∈ reads config before key, after.readText path = before.readText path) →
      compileFragment config after library key = compileFragment config before library key) ∧
    (∀ names car, (∀ name ∈ names, Path.IsName name) → Path.IsName config.noteFile →
      compileFragment config before library (.ofNames names) = .ok car →
      ∃ leaf resolution, config.folder.source before (.ofNames names) = .ok leaf ∧
        leaf.resolve (config.folder.source before) config.maxDepth (.ofNames names) =
          .ok resolution ∧
        reads config before (.ofNames names) = resolution.chain.map config.folder.pathOf ++
          [config.noteFiles.pathFor (.ofNames names)] ∧
        ∀ after, before.Keeps after (reads config before (.ofNames names)) →
          compileFragment config after library (.ofNames names) = .ok car ∧
          ∀ keys, config.folder.keys before = .ok keys → .ofNames names ∈ keys →
            ∀ choices artifact, compile config choices after library = .ok artifact →
              car ∈ artifact.cars ∧ ∀ other ∈ artifact.cars, other.source = .ofNames names →
                other = car) := by
  refine ⟨fun key after => compileFragment_congr, fun names car hnames hnote hcar => ?_⟩
  obtain ⟨leaf, resolution, -, -, hleaf, hresolve, -⟩ := compileFragment_eq_ok_iff.1 hcar
  obtain ⟨text, htext, -⟩ := ProfileFolder.exists_parse_of_source hleaf
  refine ⟨leaf, resolution, hleaf, hresolve, reads_eq hleaf hresolve, fun after hkeeps => ?_⟩
  have hsame : compileFragment config after library (.ofNames names) = .ok car := by
    rw [← hcar]
    refine compileFragment_congr fun path hpath => ?_
    obtain ⟨l, hl⟩ := exists_resolve_of_mem_reads hnote hnames hleaf hresolve hpath
    exact hkeeps.readText hpath hl
  refine ⟨hsame, fun keys hkeys hkey choices artifact hcompile => ?_⟩
  obtain ⟨listed, hlisted, hperm, hcars⟩ := compile_eq_ok hcompile
  have hunique : ∀ other ∈ artifact.cars, other.source = .ofNames names → other = car := by
    intro other hother hsource
    have hcompiled := hcars other hother
    rw [hsource, hsame] at hcompiled
    exact (Except.ok.inj hcompiled).symm
  refine ⟨?_, hunique⟩
  have hmem := ProfileFolder.mem_keys_of_keeps hkeeps hnames (by simp [reads])
    (ProfileFolder.readText_eq_ok_iff.1 htext) hkeys hkey hlisted
  have hcovered : .ofNames names ∈ artifact.cars.map ResolvedProfile.source :=
    hperm.symm.subset (List.mem_filter.2 ⟨hmem, by simp [(leavesOut_of_ok hsame).1]⟩)
  obtain ⟨other, hother, hsource⟩ := List.mem_map.1 hcovered
  exact hunique other hother hsource ▸ hother

/-- The tree of the sample session after something has happened to it: the list is gone, the fragment
that says nothing is no document any more, and there is a new folder with a note file. -/
def sampleElsewhere : FileTree :=
  let edited := (sampleSession.tree.remove ["p", "list.json"]).put ["p", "none.json"]
    (.file (.text "?"))
  (edited.put ["p", "more"] .directory).put ["p", "more", "note.md"] (.file (.text "- : x"))

/-- The profile of the leaf of the session, which builds on the base. -/
def sampleLeafProfile : ResolvedProfile where
  carModel := ""
  init := none
  pids := [⟨"A", none, [⟨"X", "1", [("unit", .text "V")]⟩], []⟩]
  extra := []
  note := none
  listedInDocs := true
  source := ⟨"leaf.json"⟩

/-- The leaf still compiles to its profile. -/
theorem compileFragment_local_sampleElsewhere :
    reads sampleSession.config sampleSession.tree (.ofNames ["leaf.json"]) =
        [⟨"p/leaf.json"⟩, ⟨"p/base.json"⟩, ⟨"p/note.md"⟩] ∧
      compileFragment sampleSession.config sampleElsewhere sampleLibrary (.ofNames ["leaf.json"]) =
        .ok sampleLeafProfile := by
  have hreads : reads sampleSession.config sampleSession.tree (.ofNames ["leaf.json"]) =
      [⟨"p/leaf.json"⟩, ⟨"p/base.json"⟩, ⟨"p/note.md"⟩] := by decide +kernel
  have hplaces : ∀ path ∈ [⟨"p/leaf.json"⟩, ⟨"p/base.json"⟩, Path.mk "p/note.md"],
      (sampleSession.tree.resolve path).toOption.all fun l =>
        sampleElsewhere.at? l = sampleSession.tree.at? l := by decide +kernel
  have hkeeps : sampleSession.tree.Keeps sampleElsewhere
      (reads sampleSession.config sampleSession.tree (.ofNames ["leaf.json"])) := by
    refine ⟨rfl, FileTree.directory_kept (by decide +kernel), fun path hpath l hl => ?_⟩
    have hplace := hplaces path (hreads ▸ hpath)
    rw [hl] at hplace
    exact of_decide_eq_true hplace
  obtain ⟨_, _, -, -, -, hafter⟩ := (compileFragment_local sampleSession.config sampleLibrary
    sampleSession.tree).2 ["leaf.json"] sampleLeafProfile (by decide) (by decide) (by decide +kernel)
  exact ⟨hreads, (hafter _ hkeeps).1⟩

end Build

end LayeredProfiles
