import LayeredProfiles.Proofs.Chain.Memory
import LayeredProfiles.Proofs.Fragment.Confinement

set_option autoImplicit false

/-!
# Listing a folder

The fragments of a folder are the files below its directory whose names have something in front of
`.json`. They are listed by their keys, one after the other, and the key of each leads back to the
file. So every fragment is loaded, and none is loaded twice.

## Main definitions

* `FileTree.HoldsFragment` — a file that is a fragment by its name.

## Main results

* `FileTree.holdsFragment_iff` — which of the files that a walk finds are fragments.
* `ProfileFolder.keys_correspond` — the keys stand for the fragments, one for one.
-/

namespace LayeredProfiles

/-- A file is under these names below a location, and something is in front of `.json` in the last
of them. -/
def FileTree.HoldsFragment (tree : FileTree) (base names : Location) : Prop :=
  ∃ front stem content, names = front ++ [stem ++ ".json"] ∧ stem ≠ "" ∧
    tree.at? (base ++ names) = some (.file content)

namespace FileTree

variable {tree : FileTree} {base : Location}

variable (hgrounded : tree.Grounded) (hdirectory : tree.at? base = some .directory)

include hgrounded in
/-- The names that lead to a fragment are names. -/
lemma isName_of_holdsFragment {names : Location} (h : tree.HoldsFragment base names) :
    ∀ name ∈ names, Path.IsName name := by
  obtain ⟨-, -, content, -, -, hfile⟩ := h
  exact isName_filesBelow hgrounded.toWellNamed (hgrounded.mem_filesBelow_iff.2 hfile)

include hgrounded hdirectory in
/-- The fragments below a directory are the files whose paths have the extension. -/
lemma holdsFragment_iff (dir : Path) {names : Location} :
    tree.HoldsFragment base names ↔ ∃ content, (names, content) ∈ tree.filesBelow base ∧
      (dir.join (.ofNames names)).extension? = some "json" := by
  constructor
  · intro h
    have hnames := isName_of_holdsFragment hgrounded h
    obtain ⟨front, stem, content, rfl, hstem, hfile⟩ := h
    refine ⟨content, hgrounded.mem_filesBelow_iff.2 hfile, ?_⟩
    refine (Path.extension?_eq_some_iff (by decide)).2 ⟨stem, hstem, ?_⟩
    rw [Path.fileName?_join_ofNames hnames, String.append_assoc]
    rfl
  · rintro ⟨content, hfile, hextension⟩
    have hnames := isName_filesBelow hgrounded.toWellNamed hfile
    rw [hgrounded.mem_filesBelow_iff] at hfile
    -- the directory itself is no file, so there is a last name
    rcases List.eq_nil_or_concat names with rfl | ⟨front, last, rfl⟩
    · rw [List.append_nil, hdirectory] at hfile
      cases hfile
    · rw [List.concat_eq_append] at hfile hextension hnames ⊢
      obtain ⟨stem, hstem, hname⟩ := (Path.extension?_eq_some_iff (by decide)).1 hextension
      rw [Path.fileName?_join_ofNames hnames, Option.some.injEq, String.append_assoc] at hname
      exact ⟨front, stem, content, by rw [hname]; rfl, hstem, hfile⟩

end FileTree

namespace ProfileFolder

variable {folder : ProfileFolder} {tree : FileTree} {base : Location}

section Directory

variable (hgrounded : tree.Grounded) (hbase : tree.resolve folder.base = .ok base)
  (hdirectory : tree.at? base = some .directory)

include hgrounded hbase hdirectory

/-- The path of the key of a fragment leads to the fragment. -/
lemma resolve_pathOf_ofNames {names : Location} (h : tree.HoldsFragment base names) :
    tree.resolve (folder.pathOf (.ofNames names)) = .ok (base ++ names) := by
  have hnames := FileTree.isName_of_holdsFragment hgrounded h
  obtain ⟨-, -, content, -, -, hfile⟩ := h
  rw [pathOf, Path.normalized_ofNames hnames]
  exact FileTree.resolve_join_of_file hgrounded hnames (FileTree.reach_of_resolve hbase) hdirectory
    hfile

/-- The keys of a folder are made of the names that lead to its fragments. -/
lemma mem_keys_iff_holdsFragment {keys : List Path} (hkeys : folder.keys tree = .ok keys)
    (key : Path) :
    key ∈ keys ↔ ∃ names, tree.HoldsFragment base names ∧ key = .ofNames names := by
  obtain ⟨files, hwalk, rfl⟩ := keys_eq_ok_iff.1 hkeys
  obtain rfl := Except.ok.inj ((FileTree.walk_of_resolve hbase hdirectory).symm.trans hwalk)
  rw [Path.sort, (List.mergeSort_perm _ _).mem_iff, List.mem_map]
  constructor
  · rintro ⟨file, hfile, rfl⟩
    obtain ⟨hmem, hextension⟩ := List.mem_filter.1 hfile
    obtain ⟨found, hfound, rfl⟩ := List.mem_map.1 hmem
    refine ⟨found.1, (FileTree.holdsFragment_iff hgrounded hdirectory folder.base).2 ?_, rfl⟩
    exact ⟨found.2, hfound, beq_iff_eq.1 hextension⟩
  · rintro ⟨names, hholds, rfl⟩
    obtain ⟨content, hfound, hextension⟩ :=
      (FileTree.holdsFragment_iff hgrounded hdirectory folder.base).1 hholds
    refine ⟨_, List.mem_filter.2 ⟨List.mem_map.2 ⟨_, hfound, rfl⟩, ?_⟩, rfl⟩
    exact beq_iff_eq.2 hextension

end Directory

/-- **Keys stand for fragments, one for one.** Let a folder have its directory in a tree that stands
for real files, however the path of the directory is written. Then its keys can be listed. They are
those of the files that a walk finds and that have the extension, and the path of the key of a file
is the path of the file. The keys come one before the other in the order of their components. A key
is listed exactly if it is made of names that lead to a file below the directory, the last of which
has something in front of `.json`. So every such file is at the path of one listed key and no other
one, and if it is a text, it is read under that key.

**Proof sketch.** Names that are seen from a directory are left when the directory is taken away
(`keyOf_join_ofNames`), and normalizing keeps them (`Path.normalized_ofNames`). Which names have the
extension is a matter of their last dot (`Path.extension?_eq_some_iff`). A path made of names has
only one list of names, and different names lead to other locations (`resolve_pathOf_ofNames`). -/
theorem keys_correspond (folder : ProfileFolder) (tree : FileTree) (base : Location)
    (hgrounded : tree.Grounded) (hbase : tree.resolve folder.base = .ok base)
    (hdirectory : tree.at? base = some .directory) :
    ∃ files keys, tree.walk folder.base = .ok files ∧ folder.keys tree = .ok keys ∧
      keys = Path.sort ((files.filter fun file => file.2.extension? == some "json").map
        fun file => folder.keyOf file.2) ∧
      (∀ file ∈ files, folder.pathOf (folder.keyOf file.2) = file.2) ∧
      keys.Pairwise (fun a b => Path.compare a b = .lt) ∧
      (∀ key, key ∈ keys ↔ ∃ names, tree.HoldsFragment base names ∧ key = .ofNames names) ∧
      ∀ names, tree.HoldsFragment base names →
        (∃! key, key ∈ keys ∧ tree.resolve (folder.pathOf key) = .ok (base ++ names)) ∧
        ∀ text, tree.at? (base ++ names) = some (.file (.text text)) →
          folder.readText tree (.ofNames names) = .ok text := by
  have hwalk := FileTree.walk_of_resolve hbase hdirectory
  have hnames : ∀ file ∈ tree.filesBelow base, ∀ name ∈ file.1, Path.IsName name :=
    fun file hfile => FileTree.isName_filesBelow hgrounded.toWellNamed hfile
  have hkeys := keys_eq_ok_iff.2 ⟨_, hwalk, rfl⟩
  have hlisted := mem_keys_iff_holdsFragment hgrounded hbase hdirectory hkeys
  refine ⟨_, _, hwalk, hkeys, ?_, ?_, pairwise_keys hgrounded.toWellNamed hkeys,
    hlisted, fun names hholds => ⟨⟨.ofNames names, ⟨?_, ?_⟩, ?_⟩, ?_⟩⟩
  · refine congrArg Path.sort (List.map_congr_left fun file hfile => ?_)
    obtain ⟨found, hfound, rfl⟩ := List.mem_map.1 (List.mem_of_mem_filter hfile)
    exact (keyOf_join_ofNames (hnames found hfound)).symm
  · intro file hfile
    obtain ⟨found, hfound, rfl⟩ := List.mem_map.1 hfile
    have hown := hnames found hfound
    rw [keyOf_join_ofNames hown, pathOf, Path.normalized_ofNames hown]
  · exact (hlisted _).2 ⟨names, hholds, rfl⟩
  · exact resolve_pathOf_ofNames hgrounded hbase hdirectory hholds
  · rintro key ⟨hkey, hleads⟩
    obtain ⟨others, hothers, rfl⟩ := (hlisted key).1 hkey
    rw [resolve_pathOf_ofNames hgrounded hbase hdirectory hothers, Except.ok.injEq] at hleads
    rw [List.append_cancel_left hleads]
  · intro text htext
    have hown := FileTree.isName_of_holdsFragment hgrounded hholds
    rw [readText_eq_ok_iff_mem hgrounded (FileTree.reach_of_resolve hbase) hdirectory,
      Path.names_ofNames hown]
    exact hgrounded.mem_filesBelow_iff.2 htext

/-- A folder of fragments with names that are odd: dots only, a directory that looks like a file,
more than one extension. -/
def sampleDrawer : FileTree :=
  let file := fun document : Json => Entry.file (.text document.toText)
  ⟨[(["p"], .directory), (["p", "b.txt.json"], file (.object [])),
    (["p", ".json"], file (.object [])), (["p", "b.json"], .directory),
    (["p", "b.json", "..json"], file (.object [("note", .text "n")])),
    (["p", "b.json", "c.json.bak"], file (.object [])), (["p", "json"], file (.object [])),
    (["q.json"], file (.object []))], ["p", "b.json"]⟩

/-- Two files of the folder are fragments, and the one in the directory comes first. -/
theorem keys_correspond_sampleDrawer :
    sampleDrawer.Grounded ∧ sampleDrawer.resolve ⟨".././/../p/"⟩ = .ok ["p"] ∧
      sampleDrawer.at? ["p"] = some .directory ∧
      ProfileFolder.keys ⟨⟨".././/../p/"⟩⟩ sampleDrawer = .ok [⟨"b.json/..json"⟩, ⟨"b.txt.json"⟩] ∧
      ¬ sampleDrawer.HoldsFragment ["p"] [".json"] ∧
      ProfileFolder.readText ⟨⟨".././/../p/"⟩⟩ sampleDrawer ⟨"b.json/..json"⟩ =
        .ok (Json.object [("note", .text "n")]).toText := by
  have hgrounded : sampleDrawer.Grounded := by decide +kernel
  have hbase : sampleDrawer.resolve ⟨".././/../p/"⟩ = .ok ["p"] := by decide +kernel
  have hdirectory : sampleDrawer.at? ["p"] = some .directory := by decide
  obtain ⟨files, keys, -, hkeys, -, -, -, hlisted, hloads⟩ :=
    keys_correspond ⟨⟨".././/../p/"⟩⟩ sampleDrawer ["p"] hgrounded hbase hdirectory
  have hfound : ProfileFolder.keys ⟨⟨".././/../p/"⟩⟩ sampleDrawer =
      .ok [⟨"b.json/..json"⟩, ⟨"b.txt.json"⟩] := by
    refine keys_eq_ok_iff.2 ⟨[["b.txt.json"], [".json"], ["b.json", "..json"],
      ["b.json", "c.json.bak"], ["json"]].map fun names =>
        (names, Path.join ⟨".././/../p/"⟩ (.ofNames names)), by decide +kernel, ?_⟩
    exact (mergeSort_eq_of_perm Path.compare (by decide +kernel) (by decide +kernel)).symm
  obtain rfl := Except.ok.inj (hfound.symm.trans hkeys)
  refine ⟨hgrounded, hbase, hdirectory, hfound, fun hholds => ?_, ?_⟩
  · exact absurd ((hlisted _).2 ⟨_, hholds, rfl⟩) (by decide +kernel)
  · refine (hloads ["b.json", "..json"] ?_).2 _ (by decide +kernel)
    exact ⟨["b.json"], ".", _, rfl, by decide, rfl⟩

end ProfileFolder

end LayeredProfiles
