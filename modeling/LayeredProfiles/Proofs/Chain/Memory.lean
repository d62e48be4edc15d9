import LayeredProfiles.Json.Writer
import LayeredProfiles.Proofs.FileTree.Resolution
import LayeredProfiles.Proofs.Fragment.Folder
import LayeredProfiles.Proofs.Fragment.Reading
import LayeredProfiles.Proofs.Layers.Resolution
import LayeredProfiles.Proofs.OrderedMap

set_option autoImplicit false

/-!
# Folders and fragments in memory

A folder finds the file under a key by going down the directories. A source in memory finds what was
put under the normalized key. If every file below a directory is a fragment, both find the same
fragments, however a key is written, and where one finds nothing the other one does not either. So
both make the same chains and resolve every leaf alike, but for what they say about a file that is
not there.

## Main definitions

* `FileTree.fragmentsBelow` — the fragments in all files below a location.
* `Failure.Agree` — outcomes that are the same but for the reason why a file cannot be read.

## Main results

* `Chain.agree_climb`, `Fragment.agree_resolve` — sources that agree make the same chains.
* `ProfileFolder.readText_eq_ok_iff_mem` — a folder finds the texts of the files below it.
* `ProfileFolder.agree_ofFragments` — a folder agrees with its fragments in memory.
* `ProfileFolder.resolve_in_memory` — leaves are resolved alike.
-/

namespace LayeredProfiles

/-- The fragments in all files below a location, under the paths that lead to the files. -/
def FileTree.fragmentsBelow (tree : FileTree) (base : Location) :
    Except Failure (List (Path × Fragment)) :=
  (tree.filesBelow base).mapM fun file =>
    match file.2 with
    | .text text =>
      (Fragment.parse (.ofNames file.1) text).map fun fragment => (.ofNames file.1, fragment)
    | .binary _ => .error (.file (.ofNames file.1) .notText)

/-! ## Sources that agree -/

/-- Two outcomes are the same, or both are that a file cannot be read. -/
def Failure.Agree {α : Type} (a b : Except Failure α) : Prop :=
  a = b ∨ ∃ path fault other reason,
    a = .error (.file path fault) ∧ b = .error (.file other reason)

namespace Failure.Agree

variable {α β : Type} {a b : Except Failure α}

/-- What follows on outcomes that agree agrees if it does for every value. -/
lemma bind (h : Agree a b) {next other : α → Except Failure β}
    (hnext : ∀ value, Agree (next value) (other value)) : Agree (a >>= next) (b >>= other) := by
  rcases h with rfl | ⟨path, fault, place, reason, rfl, rfl⟩
  · cases a with
    | error failure => exact .inl rfl
    | ok value => exact hnext value
  · exact .inr ⟨path, fault, place, reason, rfl, rfl⟩

/-- What outcomes mean for a leaf agrees if they do. -/
lemma mapError (h : Agree a b) (leaf key : Path) :
    Agree (a.mapError (Failure.ofAncestor leaf key)) (b.mapError (Failure.ofAncestor leaf key)) := by
  rcases h with rfl | ⟨path, fault, place, reason, rfl, rfl⟩
  · exact .inl rfl
  · exact .inr ⟨path, fault, place, reason, rfl, rfl⟩

end Failure.Agree

section Agree

variable {source other : FragmentSource} (h : ∀ key, Failure.Agree (source key) (other key))

include h

/-- With sources that agree a climb ends alike. -/
lemma Chain.agree_climb (leaf : Path) (left : Nat) (chain : Chain) (parent : Option String) :
    Failure.Agree (climb source leaf left chain parent) (climb other leaf left chain parent) := by
  induction left generalizing chain parent with
  | zero =>
    cases parent with
    | none => exact .inl rfl
    | some reference => exact .inl rfl
  | succ left ih =>
    cases parent with
    | none => exact .inl rfl
    | some reference =>
      unfold climb
      dsimp only
      split
      · exact .inl rfl
      · -- the next fragment is looked for in both sources, and then the climb goes on
        refine Failure.Agree.bind ((h _).mapError leaf _) fun f => ?_
        exact ih (chain ++ [((Path.mk reference).normalized, f)]) f.parent

/-- With sources that agree a leaf is resolved alike. -/
lemma Fragment.agree_resolve (maxDepth : Nat) (key : Path) (leaf : Fragment) :
    Failure.Agree (leaf.resolve source maxDepth key) (leaf.resolve other maxDepth key) :=
  (Chain.agree_climb h key.normalized maxDepth [(key.normalized, leaf)] leaf.parent).bind
    fun _ => .inl rfl

end Agree

/-! ## What both sources find -/

/-- A text is a fragment whatever its file is called. -/
lemma Fragment.parse_of_parse {path : Path} {text : String} {f : Fragment}
    (h : parse path text = .ok f) (other : Path) : parse other text = .ok f := by
  obtain ⟨document, hdocument, hfragment⟩ := parse_eq_ok_iff.1 h
  exact parse_eq_ok_iff.2 ⟨document, hdocument, hfragment⟩

namespace ProfileFolder

variable {folder : ProfileFolder} {tree : FileTree} {base : Location} {key : Path}

section Directory

variable (hgrounded : tree.Grounded) (hreach : tree.reach folder.base = .ok base)
  (hdirectory : tree.at? base = some .directory)

include hgrounded hreach hdirectory

/-- **A folder finds the texts of the files below it**, each under every key whose normalized form
consists of the names that lead there, and nothing else. -/
lemma readText_eq_ok_iff_mem {text : String} :
    folder.readText tree key = .ok text ↔ (key.names, .text text) ∈ tree.filesBelow base := by
  rw [readText_eq_ok_iff, hgrounded.mem_filesBelow_iff]
  have hnames : ∀ name ∈ key.names, Path.IsName name := Path.isName_of_mem_names
  unfold FileTree.readText pathOf Path.normalized
  constructor
  · intro h
    obtain ⟨location, hresolve, hcontent⟩ := Steps.bind_eq_ok_iff.1 h
    obtain ⟨above, habove, -, hlocation⟩ := FileTree.exists_below_of_resolve hnames hresolve
    obtain rfl : base = above := Except.ok.inj (hreach.symm.trans habove)
    rw [hlocation] at hcontent
    split at hcontent
    · cases hcontent
    · cases hcontent
    · next found hfound => rw [hfound, Except.ok.inj hcontent]
    · cases hcontent
  · intro hfile
    have hresolve := FileTree.resolve_join_of_file hgrounded hnames hreach hdirectory hfile
    refine Steps.bind_eq_ok_iff.2 ⟨_, hresolve, ?_⟩
    rw [hfile]

end Directory

/-- A source in memory reports what it does not find as a file that cannot be read. -/
lemma ofFragments_eq_error {kept : List (Path × Fragment)} {failure : Failure}
    (h : FragmentSource.ofFragments kept key = .error failure) :
    failure = .file key .noFragment := by
  unfold FragmentSource.ofFragments FragmentSource.find at h
  split at h
  · cases h
  · exact (Except.error.inj h).symm

section Memory

variable {entries kept : List (Path × Fragment)} (hgrounded : tree.Grounded)
  (hentries : tree.fragmentsBelow base = .ok entries) (hkept : kept.Perm entries)

include hentries

include hkept in
/-- The fragments in memory are those that the files hold, under the paths that lead there. -/
lemma mem_kept_iff {path : Path} {f : Fragment} : (path, f) ∈ kept ↔
    ∃ names text, (names, .text text) ∈ tree.filesBelow base ∧ path = .ofNames names ∧
      Fragment.parse path text = .ok f := by
  have hfiles := Steps.mapM_eq_ok_iff.1 hentries
  rw [hkept.mem_iff]
  constructor
  · intro hmem
    obtain ⟨⟨names, content⟩, hfile, hparse⟩ := Steps.exists_of_mem_values hfiles hmem
    cases content with
    | binary bytes => cases hparse
    | text text =>
      dsimp only at hparse
      obtain ⟨found, hfound, hsame⟩ := Steps.map_eq_ok_iff.1 hparse
      cases hsame
      exact ⟨names, text, hfile, rfl, hfound⟩
  · rintro ⟨names, text, hfile, rfl, hparse⟩
    obtain ⟨entry, hentry, hyields⟩ := Steps.exists_value_of_mem hfiles hfile
    dsimp only at hyields
    rw [hparse] at hyields
    cases hyields
    exact hentry

/-- Every file is a text that is a fragment. -/
lemma exists_text_of_mem {names : Location} {content : Content}
    (h : (names, content) ∈ tree.filesBelow base) :
    ∃ text f, content = .text text ∧ Fragment.parse (.ofNames names) text = .ok f := by
  obtain ⟨entry, -, hyields⟩ :=
    Steps.exists_value_of_mem (Steps.mapM_eq_ok_iff.1 hentries) h
  cases content with
  | binary bytes => cases hyields
  | text text =>
    dsimp only at hyields
    obtain ⟨f, hf, -⟩ := Steps.map_eq_ok_iff.1 hyields
    exact ⟨text, f, rfl, hf⟩

include hkept hgrounded in
/-- A source in memory finds what the file under the names of the normalized key holds. -/
lemma ofFragments_eq_ok_iff {f : Fragment} : FragmentSource.ofFragments kept key = .ok f ↔
    ∃ text, (key.names, .text text) ∈ tree.filesBelow base ∧ Fragment.parse key text = .ok f := by
  have hnames : ∀ name ∈ key.names, Path.IsName name := Path.isName_of_mem_names
  have hfinds : ∀ {found}, OrderedMap.get? (FragmentSource.tabulate kept) key.normalized =
      some found → ∃ text, (key.names, .text text) ∈ tree.filesBelow base ∧
        Fragment.parse key text = .ok found := by
    intro found hget
    have hentry := (OrderedMap.mem_of_mem_extend (OrderedMap.mem_of_get? hget)).resolve_left
      List.not_mem_nil
    obtain ⟨⟨path, kind⟩, hmem, hsame⟩ := List.mem_map.1 hentry
    obtain ⟨hpath, rfl⟩ := Prod.mk.inj hsame
    obtain ⟨names, text, hfile, rfl, hparse⟩ := (mem_kept_iff hentries hkept).1 hmem
    have hfound := FileTree.isName_filesBelow hgrounded.toWellNamed hfile
    -- a path has only one list of names
    dsimp only at hpath
    rw [Path.normalized_ofNames hfound] at hpath
    obtain rfl : names = key.names := Path.ofNames_inj hfound hnames hpath
    exact ⟨text, hfile, Fragment.parse_of_parse hparse key⟩
  unfold FragmentSource.ofFragments FragmentSource.find
  constructor
  · intro h
    split at h
    · next found hget => exact Except.ok.inj h ▸ hfinds hget
    · cases h
  · rintro ⟨text, hfile, hparse⟩
    have hmem : (key.normalized, f) ∈ kept :=
      (mem_kept_iff hentries hkept).2 ⟨key.names, text, hfile, rfl, Fragment.parse_of_parse hparse _⟩
    have hkey : key.normalized ∈ OrderedMap.keys (FragmentSource.tabulate kept) := by
      unfold FragmentSource.tabulate
      rw [OrderedMap.keys_ofList, List.mem_eraseDups, List.map_map]
      exact List.mem_map.2 ⟨_, hmem, Path.normalized_ofNames hnames⟩
    obtain ⟨found, hget⟩ := Option.isSome_iff_exists.1 ((OrderedMap.get?_isSome_iff _ _).2 hkey)
    obtain ⟨other, hother, hparsed⟩ := hfinds hget
    -- one file holds one text
    rw [hgrounded.mem_filesBelow_iff] at hfile hother
    rw [hother] at hfile
    cases hfile
    rw [hget, ← Except.ok.inj (hparsed.symm.trans hparse)]

include hkept in
/-- **A folder agrees with its fragments in memory** about every key. -/
lemma agree_ofFragments (hgrounded : tree.Grounded) (hreach : tree.reach folder.base = .ok base)
    (hdirectory : tree.at? base = some .directory) (key : Path) :
    Failure.Agree (folder.source tree key) (FragmentSource.ofFragments kept key) := by
  have hread : ∀ {text}, folder.readText tree key = .ok text ↔
      (key.names, .text text) ∈ tree.filesBelow base :=
    readText_eq_ok_iff_mem hgrounded hreach hdirectory
  have hsame : ∀ {f}, folder.source tree key = .ok f ↔
      FragmentSource.ofFragments kept key = .ok f := by
    intro f
    rw [ofFragments_eq_ok_iff hgrounded hentries hkept, source, Steps.bind_eq_ok_iff]
    simp only [hread]
  cases hsource : folder.source tree key with
  | ok f => exact .inl (hsame.1 hsource).symm
  | error failure =>
    cases hmemory : FragmentSource.ofFragments kept key with
    | ok f => cases hsource.symm.trans (hsame.2 hmemory)
    | error other =>
      obtain rfl := ofFragments_eq_error hmemory
      unfold source at hsource
      rcases Steps.bind_eq_error_iff.1 hsource with hmissing | ⟨text, htext, hfails⟩
      · unfold readText FileTree.read at hmissing
        obtain ⟨fault, -, rfl⟩ := Steps.mapError_eq_error_iff.1 hmissing
        exact .inr ⟨_, _, _, _, rfl, rfl⟩
      · -- what is read is a fragment, since every file is
        obtain ⟨_, f, hcontent, hparse⟩ := exists_text_of_mem hentries (hread.1 htext)
        cases hcontent
        cases (Fragment.parse_of_parse hparse key).symm.trans hfails

end Memory

/-- **Fragments in memory stand for their folder.** Take a directory of a tree that stands for real
files, and let every file below it be a fragment. Put these fragments into memory in any order, each
under the path that leads to it from the directory. Then every file's fragment is found in both
places. Under any key, however it is written, both places hold the same fragment, or both report a
file that cannot be read. And any leaf under any key with any bound on its ancestors has the same
resolution in both places, with the same chain and the same origins, or fails in both places for the
same reason, unless in both a file cannot be read.

**Proof sketch.** The path of a key goes down from the directory along the names of the normalized
key (`readText_eq_ok_iff_mem`), and in memory the fragment of a file stands under the path made of
just these names (`ofFragments_eq_ok_iff`), so both places find a fragment under the same keys. Where
they find none, both report a file: a file that is there is a fragment. By induction on the bound,
sources that agree make the same chain (`Chain.agree_climb`). -/
theorem resolve_in_memory (folder : ProfileFolder) (tree : FileTree) (base : Location)
    (entries kept : List (Path × Fragment)) (hgrounded : tree.Grounded)
    (hreach : tree.reach folder.base = .ok base) (hdirectory : tree.at? base = some .directory)
    (hentries : tree.fragmentsBelow base = .ok entries) (hkept : kept.Perm entries) :
    (∀ file ∈ tree.filesBelow base, ∃ f, folder.source tree (.ofNames file.1) = .ok f ∧
      FragmentSource.ofFragments kept (.ofNames file.1) = .ok f) ∧
    (∀ key, Failure.Agree (folder.source tree key) (FragmentSource.ofFragments kept key)) ∧
    (∀ key leaf maxDepth, Failure.Agree (Fragment.resolve (folder.source tree) maxDepth key leaf)
      (Fragment.resolve (FragmentSource.ofFragments kept) maxDepth key leaf)) := by
  have hagree := agree_ofFragments hentries hkept hgrounded hreach hdirectory
  refine ⟨?_, hagree, fun key leaf maxDepth => Fragment.agree_resolve hagree maxDepth key leaf⟩
  rintro ⟨names, content⟩ hfile
  have hself : (Path.ofNames names).names = names :=
    Path.names_ofNames (FileTree.isName_filesBelow hgrounded.toWellNamed hfile)
  obtain ⟨text, f, rfl, hparse⟩ := exists_text_of_mem hentries hfile
  rw [← hself] at hfile
  refine ⟨f, Steps.bind_eq_ok_iff.2 ⟨text, ?_, hparse⟩, ?_⟩
  · exact (readText_eq_ok_iff_mem hgrounded hreach hdirectory).2 hfile
  · exact (ofFragments_eq_ok_iff hgrounded hentries hkept).2 ⟨text, hfile, hparse⟩

/-- A folder with a base, a fragment in a directory that builds on it, and two more that build on
this fragment and on the directory. -/
def sampleShelf : FileTree :=
  let file := fun document : Json => Entry.file (.text document.toText)
  ⟨[(["p"], .directory), (["p", "d"], .directory),
    (["p", "base.json"], file (.object [("pids", .object [("A", .object
      [("parameters", .object [("X", .text "1")])])])])),
    (["p", "d", "mid.json"], file (.object [("extends", .text "/.././base.json")])),
    (["p", "leaf.json"], file (.object [("extends", .text "d//../d/mid.json")])),
    (["p", "lost.json"], file (.object [("extends", .text "./d/")]))], []⟩

/-- The fragments of the folder. -/
def shelved : List (Path × Fragment) :=
  [(⟨"base.json"⟩, { Fragment.empty with pids := some [.ofExpressions "A" [("X", "1")]] }),
    (⟨"d/mid.json"⟩, { Fragment.empty with parent := some "/.././base.json" }),
    (⟨"leaf.json"⟩, { Fragment.empty with parent := some "d//../d/mid.json" }),
    (⟨"lost.json"⟩, { Fragment.empty with parent := some "./d/" })]

/-- The leaf of three fragments is resolved in memory as in the folder, and what builds on a directory
is resolved in neither. -/
theorem resolve_in_memory_sampleShelf :
    sampleShelf.Grounded ∧ sampleShelf.reach ⟨"p"⟩ = .ok ["p"] ∧
      sampleShelf.at? ["p"] = some .directory ∧
      sampleShelf.fragmentsBelow ["p"] = .ok shelved ∧ shelved.reverse.Perm shelved ∧
      Fragment.resolve (FragmentSource.ofFragments shelved.reverse) 2 ⟨"./leaf.json"⟩
          { Fragment.empty with parent := some "d//../d/mid.json" } =
        Fragment.resolve (ProfileFolder.source ⟨⟨"p"⟩⟩ sampleShelf) 2 ⟨"./leaf.json"⟩
          { Fragment.empty with parent := some "d//../d/mid.json" } ∧
      ∃ path fault, Fragment.resolve (FragmentSource.ofFragments shelved.reverse) 2 ⟨"lost.json"⟩
        { Fragment.empty with parent := some "./d/" } = .error (.file path fault) := by
  have hgrounded : sampleShelf.Grounded := by decide +kernel
  have hreach : sampleShelf.reach ⟨"p"⟩ = .ok ["p"] := by decide +kernel
  have hdirectory : sampleShelf.at? ["p"] = some .directory := by decide
  have hentries : sampleShelf.fragmentsBelow ["p"] = .ok shelved := by decide +kernel
  have hkept : shelved.reverse.Perm shelved := List.reverse_perm shelved
  obtain ⟨-, -, hresolve⟩ := resolve_in_memory ⟨⟨"p"⟩⟩ sampleShelf ["p"] shelved shelved.reverse
    hgrounded hreach hdirectory hentries hkept
  have hleaf : (Fragment.resolve (ProfileFolder.source ⟨⟨"p"⟩⟩ sampleShelf) 2 ⟨"./leaf.json"⟩
      { Fragment.empty with parent := some "d//../d/mid.json" }).isOk = true := by decide +kernel
  have hlost : Fragment.resolve (ProfileFolder.source ⟨⟨"p"⟩⟩ sampleShelf) 2 ⟨"lost.json"⟩
      { Fragment.empty with parent := some "./d/" } = .error (.file ⟨"p/d"⟩ .isADirectory) := by
    decide +kernel
  refine ⟨hgrounded, hreach, hdirectory, hentries, hkept, ?_, ?_⟩
  · rcases hresolve ⟨"./leaf.json"⟩ _ 2 with hsame | ⟨path, fault, other, reason, hfails, -⟩
    · exact hsame.symm
    · rw [hfails] at hleaf
      cases hleaf
  · rcases hresolve ⟨"lost.json"⟩ _ 2 with hsame | ⟨path, fault, other, reason, -, hfails⟩
    · exact ⟨_, _, hsame.symm.trans hlost⟩
    · exact ⟨other, reason, hfails⟩

end ProfileFolder

end LayeredProfiles
