import Mathlib.Data.List.Nodup
import LayeredProfiles.Document.Target
import LayeredProfiles.Proofs.FileTree.Resolution
import LayeredProfiles.Proofs.Pattern.Naming

set_option autoImplicit false

/-!
# Which files generated documents replace

The candidates for a document are the files whose names a pattern describes. In a tree of real files
none of them turns up twice, so there is exactly one candidate if all files that are described are
the same one.

## Main results

* `Document.candidates_eq_singleton_iff`, `Document.candidates_eq_nil_iff` — when there is one
  candidate, and when there is none.
* `Document.locate_eq_ok_iff`, `Document.locateParameters_eq_ok_iff` — where documents go.
-/

namespace LayeredProfiles.Document

variable {tree : FileTree} {root : Path} {base : Location} {text : String} {pattern : Pattern}

/-- A directory below which a pattern looks for documents, in a tree of real files. -/
structure Searched (tree : FileTree) (root : Path) (base : Location) (text : String)
    (pattern : Pattern) : Prop where
  /-- The tree stands for real files. -/
  grounded : tree.Grounded
  /-- Where the directory is. -/
  resolve : tree.resolve root = .ok base
  /-- The directory is there. -/
  directory : tree.at? base = some .directory
  /-- The text describes the pattern. -/
  parse : Pattern.parse text = .ok pattern

/-- Whether a pattern is found in the path of names. -/
def describes (pattern : Pattern) (names : List String) : Bool :=
  pattern.isFoundIn (Text.joinWith '/' (names.map String.toList))

/-- The candidates are the files that the pattern describes, in order. -/
lemma Searched.candidates_eq (h : Searched tree root base text pattern) :
    candidates tree root text = .ok (Path.sort
      (((tree.filesBelow base).filter fun file => describes pattern file.1).map fun file =>
        root.join (.ofNames file.1))) := by
  have hdirectory : tree.isDirectory root = true := by
    simp [FileTree.isDirectory, FileTree.lookup?, h.resolve, h.directory]
  have hwalk : tree.walk root = .ok ((tree.filesBelow base).map fun file =>
      (file.1, root.join (.ofNames file.1))) := by
    unfold FileTree.walk
    rw [h.resolve]
    dsimp only
    rw [h.directory]
  unfold candidates
  rw [h.parse]
  dsimp only [bind, Except.bind]
  rw [if_pos hdirectory, hwalk]
  dsimp only
  rw [List.filter_map, List.map_map]
  rfl

/-- A list without repetitions that holds one thing only is a singleton. -/
lemma eq_singleton_of_nodup {α : Type} {items : List α} {item : α} (hnodup : items.Nodup)
    (hmem : item ∈ items) (honly : ∀ other ∈ items, other = item) : items = [item] :=
  List.perm_singleton.1 ((List.perm_ext_iff_of_nodup hnodup (List.nodup_singleton item)).2 fun other =>
    ⟨fun hother => List.mem_singleton.2 (honly other hother),
      fun hother => List.mem_singleton.1 hother ▸ hmem⟩)

/-- There is one candidate if all files that the pattern describes are the same one. -/
lemma Searched.candidates_eq_singleton_iff (h : Searched tree root base text pattern) {path : Path} :
    candidates tree root text = .ok [path] ↔
      ∃ names content, path = root.join (.ofNames names) ∧ describes pattern names = true ∧
        tree.at? (base ++ names) = some (.file content) ∧
        ∀ others more, tree.at? (base ++ others) = some (.file more) →
          describes pattern others = true → others = names := by
  have hfile : ∀ file, file ∈ (tree.filesBelow base).filter (fun file => describes pattern file.1) ↔
      tree.at? (base ++ file.1) = some (.file file.2) ∧ describes pattern file.1 = true := by
    intro file
    rw [List.mem_filter, h.grounded.mem_filesBelow_iff]
  rw [h.candidates_eq, Except.ok.injEq, Path.sort]
  constructor
  · intro hsort
    have hperm := List.mergeSort_perm (((tree.filesBelow base).filter fun file =>
      describes pattern file.1).map fun file => root.join (.ofNames file.1)) Path.le
    rw [hsort] at hperm
    obtain ⟨file, hone, hpath⟩ := List.map_eq_singleton_iff.1 (List.perm_singleton.1 hperm.symm)
    rw [hone] at hfile
    obtain ⟨hthere, hdescribed⟩ := (hfile file).1 (List.mem_singleton_self file)
    refine ⟨file.1, file.2, hpath.symm, hdescribed, hthere, fun others more hother hdescribes => ?_⟩
    have hmem := (hfile (others, more)).2 ⟨hother, hdescribes⟩
    exact congrArg Prod.fst (List.mem_singleton.1 hmem)
  · rintro ⟨names, content, rfl, hdescribed, hthere, honly⟩
    -- a tree holds no file twice, so one name means one candidate
    have hnodup : ((tree.filesBelow base).filter fun file => describes pattern file.1).Nodup :=
      (List.Nodup.of_map _ (FileTree.nodup_filesBelow h.grounded.toWellNamed base)).filter _
    have hone := eq_singleton_of_nodup hnodup ((hfile (names, content)).2 ⟨hthere, hdescribed⟩)
      fun other hother => by
        obtain ⟨hat, hdescribes⟩ := (hfile other).1 hother
        obtain rfl := honly _ _ hat hdescribes
        rw [hthere] at hat
        exact Prod.ext rfl (Entry.file.inj (Option.some.inj hat)).symm
    rw [hone]
    exact List.mergeSort_singleton _

/-- There is no candidate if the pattern describes no file. -/
lemma Searched.candidates_eq_nil_iff (h : Searched tree root base text pattern) :
    candidates tree root text = .ok [] ↔
      ∀ names content, tree.at? (base ++ names) = some (.file content) →
        describes pattern names = false := by
  rw [h.candidates_eq, Except.ok.injEq, Path.sort, ← List.length_eq_zero_iff,
    (List.mergeSort_perm _ _).length_eq, List.length_map, List.length_eq_zero_iff,
    List.filter_eq_nil_iff]
  constructor
  · intro hnone names content hthere
    simpa using hnone (names, content) (h.grounded.mem_filesBelow_iff.2 hthere)
  · intro hnone file hfile
    simpa using hnone file.1 file.2 (h.grounded.mem_filesBelow_iff.1 hfile)

/-- A document goes where the one candidate is. -/
lemma locate_eq_ok_iff {path : Path} :
    locate tree root text = .ok path ↔ candidates tree root text = .ok [path] := by
  unfold locate
  cases candidates tree root text with
  | error failure => simp [bind, Except.bind]
  | ok found =>
    dsimp only [bind, Except.bind]
    split <;> simp_all

/-- The document of supported parameters goes where the one candidate is, or beside the document of
supported vehicles if there is no candidate. -/
lemma locateParameters_eq_ok_iff {docs : DocsConfig} {vehicles path : Path} :
    locateParameters tree docs vehicles = .ok path ↔
      candidates tree docs.root docs.parametersPattern = .ok [path] ∨
        candidates tree docs.root docs.parametersPattern = .ok [] ∧
          path = vehicles.withFileName docs.parametersFallback := by
  unfold locateParameters
  cases candidates tree docs.root docs.parametersPattern with
  | error failure => simp [bind, Except.bind]
  | ok found =>
    dsimp only [bind, Except.bind]
    split <;> simp_all [eq_comm]

/-- If a document can be located, its pattern can be read and the directory that is searched for it
is there. -/
lemma searched_of_locate (hgrounded : tree.Grounded) {path : Path}
    (h : locate tree root text = .ok path) :
    ∃ base pattern, Searched tree root base text pattern := by
  rw [locate_eq_ok_iff] at h
  obtain ⟨pattern, hparse, hfound⟩ := Steps.bind_eq_ok_iff.1 h
  split at hfound
  · next hdirectory =>
    unfold FileTree.isDirectory FileTree.lookup? at hdirectory
    split at hdirectory
    · next base hresolve =>
      exact ⟨base, pattern, hgrounded, hresolve, by simpa using hdirectory, hparse⟩
    · simp at hdirectory
  · simp at hfound

end LayeredProfiles.Document
