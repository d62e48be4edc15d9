import LayeredProfiles.Json.Writer
import LayeredProfiles.Layers.Chain
import LayeredProfiles.Proofs.FileTree.Rewritten
import LayeredProfiles.Proofs.Fragment.Folder

set_option autoImplicit false

/-!
# References stay in their folder

A reference may be written with dots, repeated slashes, two dots or a slash in front. What is looked
for is its normalized form seen from the directory of the folder, whose components stand behind
those of the directory. So a reference leads to a location below the directory or nowhere, nothing
outside has any influence on what is found, and two references to one file have one key, which a
chain cannot have twice.

## Main results

* `ProfileFolder.keyOf_pathOf` — the key of the file of a key is its normalized form.
* `FileTree.readText_join_congr` — what is read below a directory depends on what is there.
* `Chain.keys_of_collect` — the keys of a chain are distinct and normalized.
* `ProfileFolder.references_stay_below` — all of it, for any directory and any reference.
-/

namespace LayeredProfiles

/-! ## Two trees that are alike below a location -/

namespace FileTree

variable {before after : FileTree} {base : Location} {names : List String}

/-- Names lead to the same place in trees that are alike below the place where one starts. -/
lemma foldlM_step_congr (hnames : ∀ name ∈ names, Path.IsName name)
    (hsame : ∀ l, after.at? (base ++ l) = before.at? (base ++ l)) :
    (names.map String.toList).foldlM after.step base =
      (names.map String.toList).foldlM before.step base := by
  induction names generalizing base with
  | nil => rfl
  | cons name rest ih =>
    have hbase := hsame []
    rw [List.append_nil] at hbase
    have hstep : after.step base name.toList = before.step base name.toList := by
      rw [step, step, hbase]
    rw [List.map_cons, List.foldlM_cons, List.foldlM_cons, hstep]
    cases hnext : before.step base name.toList with
    | error fault => rfl
    | ok next =>
      -- a name leads one level down, where the trees are alike as well
      rw [step_of_isName (hnames name List.mem_cons_self) (directory_of_step hnext)] at hnext
      obtain rfl := Except.ok.inj hnext
      refine ih (fun name hname => hnames name (List.mem_cons_of_mem _ hname)) fun l => ?_
      rw [List.append_assoc]
      exact hsame ([name] ++ l)

/-- A path of names below a directory leads to the same place in trees that are alike below the
directory. -/
lemma resolve_join_congr {dir : Path} (hnames : ∀ name ∈ names, Path.IsName name)
    (hbefore : before.reach dir = .ok base) (hafter : after.reach dir = .ok base)
    (hsame : ∀ l, after.at? (base ++ l) = before.at? (base ++ l)) :
    after.resolve (dir.join (.ofNames names)) = before.resolve (dir.join (.ofNames names)) := by
  by_cases hempty : (dir.join (.ofNames names)).text = ""
  · rw [resolve, resolve, if_pos hempty, if_pos hempty]
  · have hrelative := Path.isAbsolute_ofNames hnames
    rw [resolve_join hrelative hempty, resolve_join hrelative hempty, hbefore, hafter]
    change (Path.ofNames names).split.foldlM after.step base =
      (Path.ofNames names).split.foldlM before.step base
    by_cases hne : names = []
    · have hbase := hsame []
      rw [List.append_nil] at hbase
      have hstep : after.step base [] = before.step base [] := by rw [step, step, hbase]
      subst hne
      change [[]].foldlM after.step base = [[]].foldlM before.step base
      rw [List.foldlM_cons, List.foldlM_cons, hstep]
      rfl
    · rw [Path.split_ofNames hne hnames]
      exact foldlM_step_congr hnames hsame

/-- **What is read below a directory depends on what is there**, and on nothing else in the tree. -/
lemma readText_join_congr {dir : Path} (hnames : ∀ name ∈ names, Path.IsName name)
    (hbefore : before.reach dir = .ok base) (hafter : after.reach dir = .ok base)
    (hsame : ∀ l, after.at? (base ++ l) = before.at? (base ++ l)) :
    after.readText (dir.join (.ofNames names)) = before.readText (dir.join (.ofNames names)) := by
  have hresolve := resolve_join_congr hnames hbefore hafter hsame
  cases hfound : before.resolve (dir.join (.ofNames names)) with
  | error fault =>
    unfold readText
    rw [hresolve, hfound]
    rfl
  | ok location =>
    obtain ⟨above, habove, -, rfl⟩ := exists_below_of_resolve hnames hfound
    obtain rfl := Except.ok.inj (hbefore.symm.trans habove)
    exact readText_congr hfound (hresolve.trans hfound) (hsame names)

end FileTree

/-! ## The keys of a chain -/

namespace Chain

variable {source : FragmentSource}

/-- A climb keeps the keys of a chain distinct and normalized. -/
lemma keys_of_climb {leaf : Path} {left : Nat} {chain result : Chain} {parent : Option String}
    (h : climb source leaf left chain parent = .ok result) (hnodup : chain.keys.Nodup)
    (hnormal : ∀ key ∈ chain.keys, key.normalized = key) :
    result.keys.Nodup ∧ ∀ key ∈ result.keys, key.normalized = key := by
  fun_induction climb source leaf left chain parent with
  | case1 left chain => exact Except.ok.inj h ▸ ⟨hnodup, hnormal⟩
  | case2 => cases h
  | case3 => cases h
  | case4 chain reference key hnew left ih =>
    obtain ⟨f, -, hrest⟩ := Steps.bind_eq_ok_iff.1 h
    have hkeys : keys (chain ++ [(key, f)]) = chain.keys ++ [key] := List.map_append
    refine ih f hrest ?_ ?_
    · rw [hkeys, List.nodup_append]
      refine ⟨hnodup, List.nodup_singleton key, fun k hk other hother hsame => hnew ?_⟩
      rw [← List.mem_singleton.1 hother, ← hsame]
      exact hk
    · rw [hkeys]
      intro k hk
      rcases List.mem_append.1 hk with hpassed | hlast
      · exact hnormal k hpassed
      · rw [List.mem_singleton.1 hlast]
        exact Path.normalized_normalized _

/-- The keys of a chain are distinct and normalized. -/
lemma keys_of_collect {maxDepth : Nat} {key : Path} {leaf : Fragment} {chain : Chain}
    (h : collect source maxDepth key leaf = .ok chain) :
    chain.keys.Nodup ∧ ∀ k ∈ chain.keys, k.normalized = k := by
  refine keys_of_climb h (List.nodup_singleton _) fun k hk => ?_
  obtain rfl : k = key.normalized := List.mem_singleton.1 hk
  exact Path.normalized_normalized key

end Chain

/-! ## Folders -/

namespace ProfileFolder

variable {folder : ProfileFolder} {tree : FileTree} {names : List String}

/-- The key of a file below the folder's directory consists of the names that lead there. -/
lemma keyOf_join_ofNames (h : ∀ name ∈ names, Path.IsName name) :
    folder.keyOf (folder.base.join (.ofNames names)) = .ofNames names := by
  unfold keyOf
  rw [Path.relativeTo?_join_ofNames h, Option.getD_some, Path.namesOf, Path.foldNames_map_name,
    List.append_nil, List.reverse_reverse]

/-- The key of the file of a key is its normalized form. -/
lemma keyOf_pathOf (p : Path) : folder.keyOf (folder.pathOf p) = p.normalized :=
  keyOf_join_ofNames Path.isName_of_mem_names

/-- Wherever the path of a key leads to is under the names that are left of the key, below the
directory. -/
lemma location_of_resolve {p : Path} {location : Location}
    (h : tree.resolve (folder.pathOf p) = .ok location) :
    ∃ base, tree.reach folder.base = .ok base ∧ location = base ++ p.names := by
  obtain ⟨base, hreach, -, hlocation⟩ :=
    FileTree.exists_below_of_resolve Path.isName_of_mem_names h
  exact ⟨base, hreach, hlocation⟩

/-- Fragments depend on what is below the directory of the folder. -/
lemma source_congr_below {after : FileTree} {base : Location}
    (hbefore : tree.reach folder.base = .ok base) (hafter : after.reach folder.base = .ok base)
    (hsame : ∀ l, after.at? (base ++ l) = tree.at? (base ++ l)) :
    folder.source after = folder.source tree := by
  funext key
  exact source_congr
    (FileTree.readText_join_congr Path.isName_of_mem_names hbefore hafter hsame)

/-- **References stay in their folder.** A normalized path is relative, consists of names, and is
its own normalized form. A directory can be normalized before a relative path is seen from it. For
any directory of a folder, the path of a reference has the components of the directory followed by
those of the normalized reference, and the key of that path is the normalized reference again; so
two references have one key exactly if their paths consist of the same components.

Wherever the path of a reference leads to is therefore below the location of the directory. Two
trees with the directory at the same location that are alike below it have the same fragments under
all keys, so nothing outside is ever read. And a chain that is collected has distinct normalized
keys: no two of its fragments are at the same location, whichever way they were referred to.

**Proof sketch.** What is left of a path are names (`Path.isName_of_mem_names`), and names lead down
only (`FileTree.exists_below_of_resolve`, `FileTree.foldlM_step_congr`). A climb keeps the keys of a
chain distinct and normalized (`Chain.keys_of_climb`), and distinct normalized keys have distinct
names. -/
theorem references_stay_below (folder : ProfileFolder) :
    (∀ p : Path, p.normalized.isAbsolute = false ∧
      (∀ c ∈ p.normalized.components, ∃ name, c = .name name) ∧
      p.normalized.normalized = p.normalized) ∧
    (∀ a b : Path, b.isAbsolute = false →
      (a.join b).normalized = (a.normalized.join b).normalized) ∧
    (∀ p, (folder.pathOf p).components = folder.base.components ++ p.normalized.components ∧
      folder.keyOf (folder.pathOf p) = p.normalized) ∧
    (∀ a b, (folder.pathOf a).components = (folder.pathOf b).components ↔
      a.normalized = b.normalized) ∧
    (∀ (tree : FileTree) p location, tree.resolve (folder.pathOf p) = .ok location →
      ∃ base, tree.reach folder.base = .ok base ∧ base <+: location) ∧
    (∀ (before after : FileTree) base, before.reach folder.base = .ok base →
      after.reach folder.base = .ok base →
      (∀ l, after.at? (base ++ l) = before.at? (base ++ l)) →
      folder.source after = folder.source before) ∧
    (∀ (source : FragmentSource) maxDepth key leaf chain,
      Chain.collect source maxDepth key leaf = .ok chain →
      chain.keys.Pairwise fun a b => a.normalized ≠ b.normalized ∧
        ∀ (tree : FileTree) location, tree.resolve (folder.pathOf a) = .ok location →
          tree.resolve (folder.pathOf b) ≠ .ok location) := by
  refine ⟨fun p => ⟨?_, ?_, p.normalized_normalized⟩, fun a b => Path.normalized_join,
    fun p => ⟨components_pathOf p, keyOf_pathOf p⟩, ?_, ?_, fun _ _ _ => source_congr_below, ?_⟩
  · exact Path.isAbsolute_ofNames Path.isName_of_mem_names
  · intro c hc
    rw [Path.components_normalized] at hc
    obtain ⟨name, -, rfl⟩ := List.mem_map.1 hc
    exact ⟨name, rfl⟩
  · intro a b
    rw [components_pathOf, components_pathOf, List.append_right_inj, Path.components_normalized,
      Path.components_normalized, Path.normalized_eq_iff]
    exact (List.map_injective_iff.2 fun _ _ => Component.name.inj).eq_iff
  · intro tree p location hresolve
    obtain ⟨base, hreach, rfl⟩ := location_of_resolve hresolve
    exact ⟨base, hreach, List.prefix_append base p.names⟩
  · intro source maxDepth key leaf chain hcollect
    obtain ⟨hnodup, hnormal⟩ := Chain.keys_of_collect hcollect
    refine hnodup.imp_of_mem fun ha hb hne => ?_
    have hkeys := hne
    rw [← hnormal _ ha, ← hnormal _ hb] at hkeys
    refine ⟨hkeys, fun tree location hleads hagain => hkeys ?_⟩
    obtain ⟨base, hreach, rfl⟩ := location_of_resolve hleads
    obtain ⟨again, hsame, hlocation⟩ := location_of_resolve hagain
    obtain rfl := Except.ok.inj (hreach.symm.trans hsame)
    exact Path.normalized_eq_iff.2 (List.append_cancel_left hlocation)

/-- A folder with a fragment that builds on one of the folder, by a reference that seems to lead
out. Beside the folder there is another file of that name, with the given text. -/
def sampleYard (outside : String) : FileTree :=
  let file := fun document : Json => Entry.file (.text document.toText)
  ⟨[(["base.json"], .file (.text outside)), (["d"], .directory), (["d", "p"], .directory),
    (["d", "p", "base.json"], file (.object [("note", .text "inside")])),
    (["d", "p", "leaf.json"], file (.object [("extends", .text "/../x/./..//base.json")]))], ["d"]⟩

/-- The leaf builds on the file in the folder, which is odd to begin with, and what the file beside
the folder says does not matter. -/
theorem references_stay_below_sampleYard :
    let folder : ProfileFolder := ⟨⟨"..//d/./p/"⟩⟩
    (∃ p : Path, p = ⟨"/../x/./..//base.json"⟩ ∧ p.normalized = ⟨"base.json"⟩ ∧
      folder.keyOf (folder.pathOf p) = ⟨"base.json"⟩ ∧
      (folder.pathOf p).components =
        [.parent, .name "d", .name "p", .name "base.json"]) ∧
    ((⟨"a/..//.."⟩ : Path).join ⟨"../b"⟩).normalized = ⟨"b"⟩ ∧
    (sampleYard "x").resolve (folder.pathOf ⟨"../../base.json"⟩) = .ok ["d", "p", "base.json"] ∧
    ["d", "p"] <+: ["d", "p", "base.json"] ∧
    folder.source (sampleYard "x") = folder.source (sampleYard "y") ∧
    ∃ leaf chain, folder.source (sampleYard "x") ⟨"leaf.json"⟩ = .ok leaf ∧
      Chain.collect (folder.source (sampleYard "x")) 1 ⟨"leaf.json"⟩ leaf = .ok chain ∧
      chain.keys = [⟨"leaf.json"⟩, ⟨"base.json"⟩] ∧
      chain.keys.Pairwise fun a b => a.normalized ≠ b.normalized ∧
        ∀ (tree : FileTree) location, tree.resolve (folder.pathOf a) = .ok location →
          tree.resolve (folder.pathOf b) ≠ .ok location := by
  intro folder
  obtain ⟨-, hjoin, hpath, -, hbelow, hsource, hchain⟩ := references_stay_below folder
  have hnormal : (⟨"/../x/./..//base.json"⟩ : Path).normalized = ⟨"base.json"⟩ := by decide +kernel
  have hplace : (sampleYard "x").resolve (folder.pathOf ⟨"../../base.json"⟩) =
      .ok ["d", "p", "base.json"] := by decide +kernel
  have hreach : (sampleYard "x").reach folder.base = .ok ["d", "p"] := by decide +kernel
  have hother : (sampleYard "y").reach folder.base = .ok ["d", "p"] := by decide +kernel
  obtain ⟨base, hbase, hprefix⟩ := hbelow _ _ _ hplace
  obtain rfl := Except.ok.inj (hreach.symm.trans hbase)
  refine ⟨⟨_, rfl, hnormal, (hpath _).2.trans hnormal, ?_⟩, ?_, hplace, hprefix, ?_, ?_⟩
  · rw [(hpath _).1, hnormal]
    decide +kernel
  · rw [hjoin _ _ (by decide)]
    decide +kernel
  · exact hsource _ _ _ hother hreach fun l => rfl
  · have hleaf : folder.source (sampleYard "x") ⟨"leaf.json"⟩ =
        .ok { Fragment.empty with parent := some "/../x/./..//base.json" } := by decide +kernel
    have hcollect : Chain.collect (folder.source (sampleYard "x")) 1 ⟨"leaf.json"⟩
        { Fragment.empty with parent := some "/../x/./..//base.json" } =
        .ok [(⟨"leaf.json"⟩, { Fragment.empty with parent := some "/../x/./..//base.json" }),
          (⟨"base.json"⟩, { Fragment.empty with note := some "inside" })] := by decide +kernel
    exact ⟨_, _, hleaf, hcollect, rfl, hchain _ _ _ _ _ hcollect⟩

end ProfileFolder

end LayeredProfiles
