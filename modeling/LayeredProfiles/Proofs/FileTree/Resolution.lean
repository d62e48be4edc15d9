import LayeredProfiles.FileTree.Operation
import LayeredProfiles.Proofs.FileTree.WellNamed
import LayeredProfiles.Proofs.Path.Joining
import LayeredProfiles.Proofs.Steps

set_option autoImplicit false

/-!
# Where paths lead

In a tree of real files, whatever is somewhere is inside a directory. What is seen from a directory
is then found by going on from there, and a path that ends in a name leads to a place under that
name in a directory, which is there or can be made there.

## Main definitions

* `FileTree.Grounded` — what holds of a tree that stands for real files.
* `FileTree.reach` — the location from which one goes on to what is seen from a directory.
* `FileTree.Spot` — a path that leads to a name in a directory.

## Main results

* `FileTree.resolve_join`, `FileTree.reach_join` — going on from a directory.
* `FileTree.Grounded.exists_spot` — files are at spots.
* `FileTree.Spot.resolve` — the location of a spot.
* `FileTree.Spot.beside` — a path with another name in the place of the last one leads beside it.
* `FileTree.spot_join`, `FileTree.exists_spot_beside` — names below a directory, and beside what is
  there.
* `FileTree.resolve_join_of_file` — the names of a file lead to it.
-/

namespace LayeredProfiles.FileTree

/-- Nothing is at two entries, every location is made of names, and whatever is somewhere is inside
a directory. -/
structure Grounded (tree : FileTree) : Prop extends WellNamed tree where
  /-- There is a directory above every entry. -/
  rooted : ∀ location ∈ OrderedMap.keys tree.entries,
    location ≠ [] ∧ tree.at? location.dropLast = some .directory

instance (tree : FileTree) : Decidable tree.Grounded :=
  decidable_of_iff (tree.WellNamed ∧ ∀ location ∈ OrderedMap.keys tree.entries,
      location ≠ [] ∧ tree.at? location.dropLast = some .directory)
    ⟨fun h => ⟨h.1, h.2⟩, fun h => ⟨h.toWellNamed, h.rooted⟩⟩

/-- The location from which one goes on to what is seen from a directory. -/
def reach (tree : FileTree) (dir : Path) : Except FileFault Location :=
  tree.follow dir dir.lead

/-- A path leads to a name in a directory. -/
structure Spot (tree : FileTree) (path : Path) (base : Location) (name : String) : Prop where
  /-- The last piece is a name. -/
  isName : Path.IsName name
  /-- The directory is there. -/
  directory : tree.at? base = some .directory
  /-- The pieces before the name lead to the directory. -/
  leads : ∃ before, path.split = before ++ [name.toList] ∧ tree.follow path before = .ok base

variable {tree : FileTree} {base : Location} {names : List String}

/-! ## What is inside what -/

/-- Below the root, what is at a location is what its entry says. -/
lemma at?_eq_get? {location : Location} (h : location ≠ []) :
    tree.at? location = OrderedMap.get? tree.entries location := by
  cases location with
  | nil => exact absurd rfl h
  | cons name rest => rfl

/-- What is at a location below the root has an entry. -/
lemma mem_keys_of_at? {location : Location} (h : location ≠ []) {entry : Entry}
    (hentry : tree.at? location = some entry) : location ∈ OrderedMap.keys tree.entries :=
  OrderedMap.mem_keys_of_get? (at?_eq_get? h ▸ hentry)

/-- Whatever is below a location shows that there is a directory. -/
lemma Grounded.directory_above (h : tree.Grounded) (hne : names ≠ []) {entry : Entry}
    (hentry : tree.at? (base ++ names) = some entry) : tree.at? base = some .directory := by
  induction names using List.reverseRecOn generalizing entry with
  | nil => exact absurd rfl hne
  | append_singleton names name ih =>
    have hkey := mem_keys_of_at? (by simp [hne]) hentry
    have habove := (h.rooted _ hkey).2
    rw [← List.append_assoc, List.dropLast_concat] at habove
    cases names with
    | nil => simpa using habove
    | cons first rest => exact ih (List.cons_ne_nil first rest) habove

/-- The files below a location, in terms of what is there. -/
lemma Grounded.mem_filesBelow_iff (h : tree.Grounded) {content : Content} :
    (names, content) ∈ tree.filesBelow base ↔
      tree.at? (base ++ names) = some (.file content) := by
  rw [FileTree.mem_filesBelow_iff, ← OrderedMap.get?_eq_some_iff h.unique]
  cases hloc : base ++ names with
  | nil =>
    simp only [at?, Option.some.injEq, reduceCtorEq, iff_false]
    intro hfile
    exact (h.rooted _ (OrderedMap.mem_keys_of_get? hfile)).1 rfl
  | cons first rest => exact Iff.rfl

/-! ## Going on piece by piece -/

/-- Going on is possible from a directory only. -/
lemma directory_of_step {piece : List Char} {location : Location}
    (h : tree.step base piece = .ok location) : tree.at? base = some .directory := by
  unfold step at h
  split at h
  · cases h
  · cases h
  · next hdirectory => exact hdirectory

/-- What means nothing leads nowhere else. -/
lemma step_of_isVoid {piece : List Char} (hvoid : Path.isVoid piece = true)
    (h : tree.at? base = some .directory) : tree.step base piece = .ok base := by
  simp [step, h, hvoid]

/-- A name leads to what is under it. -/
lemma step_of_isName {name : String} (hname : Path.IsName name)
    (h : tree.at? base = some .directory) : tree.step base name.toList = .ok (base ++ [name]) := by
  have hdots := (Path.isName_iff.1 hname).2.2.2
  simp [step, h, hname.isVoid_eq_false, hdots]

/-- Pieces that mean nothing lead nowhere else. -/
lemma foldlM_step_of_isVoid {pieces : List (List Char)}
    (hvoid : ∀ piece ∈ pieces, Path.isVoid piece = true) {location : Location}
    (h : pieces.foldlM tree.step base = .ok location) : location = base := by
  induction pieces with
  | nil => exact (Except.ok.inj h).symm
  | cons piece rest ih =>
    rw [List.foldlM_cons, Steps.bind_eq_ok_iff] at h
    obtain ⟨next, hstep, hrest⟩ := h
    have hsame := step_of_isVoid (hvoid piece List.mem_cons_self) (directory_of_step hstep)
    rw [hsame] at hstep
    cases hstep
    exact ih (fun piece hpiece => hvoid piece (List.mem_cons_of_mem _ hpiece)) hrest

/-- Names lead to what is under them, one below the other, and the last one is inside a
directory. -/
lemma foldlM_step_eq_ok (hnames : ∀ name ∈ names, Path.IsName name) {location : Location}
    (h : (names.map String.toList).foldlM tree.step base = .ok location) :
    location = base ++ names ∧
      (names ≠ [] → tree.at? (base ++ names.dropLast) = some .directory) := by
  induction names generalizing base with
  | nil => exact ⟨by simpa using (Except.ok.inj h).symm, fun hne => absurd rfl hne⟩
  | cons name rest ih =>
    rw [List.map_cons, List.foldlM_cons, Steps.bind_eq_ok_iff] at h
    obtain ⟨next, hstep, hrest⟩ := h
    have hbase := directory_of_step hstep
    rw [step_of_isName (hnames name List.mem_cons_self) hbase] at hstep
    cases hstep
    obtain ⟨rfl, hlast⟩ := ih (fun name hname => hnames name (List.mem_cons_of_mem _ hname)) hrest
    refine ⟨by simp, fun _ => ?_⟩
    cases rest with
    | nil => simpa using hbase
    | cons second more => simpa using hlast (List.cons_ne_nil second more)

/-- Names lead to a directory that is under them. -/
lemma foldlM_step_of_directory (hgrounded : tree.Grounded)
    (hnames : ∀ name ∈ names, Path.IsName name)
    (h : tree.at? (base ++ names) = some .directory) :
    (names.map String.toList).foldlM tree.step base = .ok (base ++ names) := by
  induction names generalizing base with
  | nil => simp [List.foldlM_nil, pure, Except.pure]
  | cons name rest ih =>
    have hbase := hgrounded.directory_above (List.cons_ne_nil name rest) h
    rw [List.append_cons] at h
    have hrest := ih (fun name hname => hnames name (List.mem_cons_of_mem _ hname)) h
    rw [List.append_assoc, List.singleton_append] at hrest
    rw [List.map_cons, List.foldlM_cons, step_of_isName (hnames name List.mem_cons_self) hbase]
    exact hrest

/-! ## Directories -/

/-- Relative paths start where the directory starts from which they are seen. -/
lemma start_join {dir p : Path} (h : p.isAbsolute = false) :
    tree.start (dir.join p) = tree.start dir := by
  rw [start, start, Path.isAbsolute_join h]

/-- Pieces that are seen from a directory go on from there. -/
lemma follow_join {dir p : Path} (h : p.isAbsolute = false) (pieces : List (List Char)) :
    tree.follow (dir.join p) (dir.lead ++ pieces) =
      tree.reach dir >>= fun location => pieces.foldlM tree.step location := by
  rw [follow, start_join h, List.foldlM_append]
  rfl

/-- What is seen from a directory is found by going on from there. -/
lemma resolve_join {dir p : Path} (h : p.isAbsolute = false) (hne : (dir.join p).text ≠ "") :
    tree.resolve (dir.join p) =
      tree.reach dir >>= fun location => p.split.foldlM tree.step location := by
  rw [resolve, if_neg hne, ← follow_join h, ← Path.split_join h]
  rfl

/-- A path that leads somewhere is followed piece by piece. -/
lemma follow_of_resolve {path : Path} {location : Location} (h : tree.resolve path = .ok location) :
    tree.follow path path.split = .ok location := by
  unfold resolve at h
  split at h
  · cases h
  · exact h

/-- What is seen from a path that is seen from a directory goes on from both. -/
lemma reach_join {dir p : Path} (h : p.isAbsolute = false) :
    tree.reach (dir.join p) =
      tree.reach dir >>= fun location => p.lead.foldlM tree.step location := by
  rw [← follow_join h, ← Path.lead_join h]
  rfl

/-- What is seen from a directory is looked for where the directory is. -/
lemma reach_of_resolve {dir : Path} {location : Location} (h : tree.resolve dir = .ok location) :
    tree.reach dir = .ok location := by
  unfold resolve at h
  split at h
  · cases h
  · next hne =>
    rcases Path.split_eq_lead_or hne with hsplit | hsplit
    · rw [reach, ← hsplit]
      exact h
    · change tree.follow dir dir.split = .ok location at h
      rw [hsplit, follow, List.foldlM_append, Steps.bind_eq_ok_iff] at h
      obtain ⟨before, hreach, hlast⟩ := h
      rw [foldlM_step_of_isVoid (by simp [Path.isVoid]) hlast]
      exact hreach

/-- What is found below a directory is found by going on from it. -/
lemma exists_of_resolve_join {dir p : Path} (hrelative : p.isAbsolute = false) {location : Location}
    (h : tree.resolve (dir.join p) = .ok location) :
    ∃ base, tree.reach dir = .ok base ∧ tree.at? base = some .directory ∧
      p.split.foldlM tree.step base = .ok location := by
  have hsome : (dir.join p).text ≠ "" := by
    intro hempty
    rw [resolve, if_pos hempty] at h
    cases h
  rw [resolve_join hrelative hsome, Steps.bind_eq_ok_iff] at h
  obtain ⟨base, hreach, hfold⟩ := h
  refine ⟨base, hreach, ?_, hfold⟩
  cases hsplit : p.split with
  | nil => exact absurd hsplit (Text.splitAt_ne_nil '/' p.text.toList)
  | cons piece rest =>
    rw [hsplit, List.foldlM_cons, Steps.bind_eq_ok_iff] at hfold
    obtain ⟨next, hstep, -⟩ := hfold
    exact directory_of_step hstep

/-- Names below a directory lead to what is under them, and the last one is inside a directory. -/
lemma resolve_join_ofNames {dir : Path} (hne : names ≠ []) (hnames : ∀ n ∈ names, Path.IsName n)
    {location : Location} (h : tree.resolve (dir.join (.ofNames names)) = .ok location) :
    ∃ base, tree.reach dir = .ok base ∧ location = base ++ names ∧
      tree.at? (base ++ names.dropLast) = some .directory := by
  obtain ⟨base, hreach, -, hfold⟩ := exists_of_resolve_join (Path.isAbsolute_ofNames hnames) h
  rw [Path.split_ofNames hne hnames] at hfold
  obtain ⟨rfl, hdirectory⟩ := foldlM_step_eq_ok hnames hfold
  exact ⟨base, hreach, rfl, hdirectory hne⟩

/-- Names below a directory lead to what is under them there, and without names to the directory
itself. -/
lemma exists_below_of_resolve {dir : Path} (hnames : ∀ n ∈ names, Path.IsName n)
    {location : Location} (h : tree.resolve (dir.join (.ofNames names)) = .ok location) :
    ∃ base, tree.reach dir = .ok base ∧ tree.at? base = some .directory ∧
      location = base ++ names := by
  obtain ⟨base, hreach, hdirectory, hfold⟩ :=
    exists_of_resolve_join (Path.isAbsolute_ofNames hnames) h
  refine ⟨base, hreach, hdirectory, ?_⟩
  by_cases hne : names = []
  · subst hne
    have hvoid : ∀ piece ∈ (Path.ofNames []).split, Path.isVoid piece = true := by decide
    rw [List.append_nil]
    exact foldlM_step_of_isVoid hvoid hfold
  · rw [Path.split_ofNames hne hnames] at hfold
    exact (foldlM_step_eq_ok hnames hfold).1

/-- A directory is where what is seen from it is looked for. -/
lemma resolve_of_reach {dir : Path} (hne : dir.text ≠ "") (h : tree.reach dir = .ok base)
    (hdirectory : tree.at? base = some .directory) : tree.resolve dir = .ok base := by
  rw [resolve, if_neg hne]
  change tree.follow dir dir.split = .ok base
  rcases Path.split_eq_lead_or hne with hsplit | hsplit
  · rw [hsplit]
    exact h
  -- a slash at the end asks once more for a directory
  · rw [hsplit, follow, List.foldlM_append]
    change tree.reach dir >>= (fun location => [[]].foldlM tree.step location) = .ok base
    rw [h]
    change tree.step base [] >>= _ = _
    rw [step_of_isVoid rfl hdirectory]
    rfl

/-! ## Trees with the same directories -/

section Mono

variable {after : FileTree}

/-- Going on works in a tree with the same directories. -/
lemma foldlM_step_mono
    (hdirectories : ∀ l, tree.at? l = some .directory → after.at? l = some .directory)
    {pieces : List (List Char)} {location : Location}
    (h : pieces.foldlM tree.step base = .ok location) :
    pieces.foldlM after.step base = .ok location := by
  induction pieces generalizing base with
  | nil => exact h
  | cons piece rest ih =>
    rw [List.foldlM_cons, Steps.bind_eq_ok_iff] at h ⊢
    obtain ⟨next, hstep, hrest⟩ := h
    refine ⟨next, ?_, ih hrest⟩
    have hbase := directory_of_step hstep
    rw [← hstep, step, step, hbase, hdirectories base hbase]

/-- Paths lead to the same locations in a tree with the same directories. -/
lemma follow_mono (hcurrent : after.current = tree.current)
    (hdirectories : ∀ l, tree.at? l = some .directory → after.at? l = some .directory)
    {path : Path} {pieces : List (List Char)} {location : Location}
    (h : tree.follow path pieces = .ok location) : after.follow path pieces = .ok location := by
  unfold follow at *
  rw [start, hcurrent]
  exact foldlM_step_mono hdirectories h

/-- A spot stays one in a tree with the same directories. -/
lemma Spot.mono (hcurrent : after.current = tree.current)
    (hdirectories : ∀ l, tree.at? l = some .directory → after.at? l = some .directory)
    {path : Path} {name : String} (h : tree.Spot path base name) : after.Spot path base name where
  isName := h.isName
  directory := hdirectories base h.directory
  leads := by
    obtain ⟨before, hsplit, hfollow⟩ := h.leads
    exact ⟨before, hsplit, follow_mono hcurrent hdirectories hfollow⟩

/-- Paths resolve to the same locations in a tree with the same directories. -/
lemma resolve_mono (hcurrent : after.current = tree.current)
    (hdirectories : ∀ l, tree.at? l = some .directory → after.at? l = some .directory)
    {path : Path} {location : Location} (h : tree.resolve path = .ok location) :
    after.resolve path = .ok location := by
  unfold resolve at *
  split at h
  · cases h
  · next hne => rw [if_neg hne, follow_mono hcurrent hdirectories h]

end Mono

/-! ## Spots -/

/-- The pieces of a path are its core and the empty ones that slashes at its end make. -/
lemma exists_split_eq_corePieces (path : Path) :
    ∃ slashes, path.split = corePieces path ++ slashes ∧ ∀ piece ∈ slashes, piece = [] :=
  ⟨path.split.rtakeWhile List.isEmpty, List.rdropWhile_append_rtakeWhile.symm,
    fun _ hpiece => List.isEmpty_iff.1 (List.mem_rtakeWhile_imp hpiece)⟩

/-- A path leads to a name in a directory if the name is seen from there. -/
lemma spot_of_reach {dir : Path} {name : String} (hname : Path.IsName name)
    (h : tree.reach dir = .ok base) (hdirectory : tree.at? base = some .directory) :
    tree.Spot (dir.join (.ofNames [name])) base name where
  isName := hname
  directory := hdirectory
  leads := by
    have hall : ∀ n ∈ [name], Path.IsName n := by simpa using hname
    refine ⟨dir.lead, Path.split_join_ofNames (by simp) hall, ?_⟩
    have hstart : tree.follow (dir.join (.ofNames [name])) (dir.lead ++ []) = _ :=
      follow_join (Path.isAbsolute_ofNames hall) []
    rw [List.append_nil, h] at hstart
    exact hstart

/-- Above a directory there is a directory. -/
lemma Grounded.directory_dropLast (h : tree.Grounded) (hbase : tree.at? base = some .directory) :
    tree.at? base.dropLast = some .directory := by
  by_cases hne : base = []
  · rw [hne]
    rfl
  · exact (h.rooted base (mem_keys_of_at? hne hbase)).2

/-- Pieces that lead to a place without a directory lead to a name in one. -/
lemma Grounded.exists_name_of_foldlM (h : tree.Grounded) {pieces : List (List Char)}
    (hslash : ∀ piece ∈ pieces, '/' ∉ piece) (hne : pieces ≠ []) {origin location : Location}
    (hfollow : pieces.foldlM tree.step origin = .ok location)
    (hfree : tree.at? location ≠ some .directory) :
    ∃ before base name, pieces = before ++ [name.toList] ∧
      before.foldlM tree.step origin = .ok base ∧ location = base ++ [name] ∧ Path.IsName name ∧
      tree.at? base = some .directory := by
  obtain ⟨before, last, rfl⟩ := (List.eq_nil_or_concat pieces).resolve_left hne
  rw [List.concat_eq_append] at *
  rw [List.foldlM_append, Steps.bind_eq_ok_iff] at hfollow
  obtain ⟨base, hbefore, hlast⟩ := hfollow
  obtain ⟨next, hstep, hnext⟩ := Steps.bind_eq_ok_iff.1 hlast
  obtain rfl : next = location := Except.ok.inj hnext
  have hbase := directory_of_step hstep
  simp only [step, hbase] at hstep
  -- a last piece that is no name leads to a directory
  split at hstep
  · obtain rfl := Except.ok.inj hstep
    exact absurd hbase hfree
  · next hvoid =>
    split at hstep
    · obtain rfl := Except.ok.inj hstep
      exact absurd (h.directory_dropLast hbase) hfree
    · next hup =>
      have hname : Path.IsName (String.ofList last) := by
        rw [Path.isName_iff, String.toList_ofList]
        refine ⟨hslash last (by simp), ?_, ?_, hup⟩ <;>
        · rintro rfl
          exact hvoid rfl
      exact ⟨before, base, String.ofList last, by rw [String.toList_ofList], hbefore,
        (Except.ok.inj hstep).symm, hname, hbase⟩

/-- A path that leads to a file leads to a name in a directory. -/
lemma Grounded.exists_spot (h : tree.Grounded) {path : Path} {location : Location}
    {content : Content} (hresolve : tree.resolve path = .ok location)
    (hfile : tree.at? location = some (.file content)) :
    ∃ base name, location = base ++ [name] ∧ tree.Spot path base name := by
  obtain ⟨before, base, name, hsplit, hbefore, rfl, hname, hbase⟩ :=
    h.exists_name_of_foldlM (fun _ => Path.slash_not_mem_of_mem_split)
      (Text.splitAt_ne_nil '/' path.text.toList) (follow_of_resolve hresolve) (by simp [hfile])
  exact ⟨base, name, rfl, hname, hbase, before, hsplit, hbefore⟩

/-- Names below a directory lead to the last one in the directory of the others. -/
lemma spot_join (hgrounded : tree.Grounded) {dir : Path} {name : String}
    (hnames : ∀ n ∈ names, Path.IsName n) (hname : Path.IsName name)
    (h : tree.reach dir = .ok base) (hdirectory : tree.at? (base ++ names) = some .directory) :
    tree.Spot (dir.join (.ofNames (names ++ [name]))) (base ++ names) name := by
  rw [← Path.join_ofNames_append (by simp) hnames (by simpa using hname)]
  refine spot_of_reach hname ?_ hdirectory
  rw [reach_join (Path.isAbsolute_ofNames hnames), h, Path.lead_ofNames hnames]
  exact foldlM_step_of_directory hgrounded hnames hdirectory

/-- Beside whatever is found below a directory there is a place for any name. -/
lemma exists_spot_beside {dir : Path} {name : String} (hnames : ∀ n ∈ names, Path.IsName n)
    (hname : Path.IsName name) {location : Location}
    (h : tree.resolve (dir.join (.ofNames names)) = .ok location) :
    ∃ above, tree.Spot (dir.join (.ofNames (names.dropLast ++ [name]))) above name := by
  obtain ⟨base, hreach, hdirectory, hfold⟩ :=
    exists_of_resolve_join (Path.isAbsolute_ofNames hnames) h
  have hall : ∀ n ∈ names.dropLast ++ [name], Path.IsName n := fun n hn =>
    (List.mem_append.1 hn).elim (fun hn => hnames n (List.dropLast_subset names hn))
      fun hn => List.mem_singleton.1 hn ▸ hname
  have habove : ∃ above, (names.dropLast.map String.toList).foldlM tree.step base = .ok above ∧
      tree.at? above = some .directory := by
    rcases List.eq_nil_or_concat names with rfl | ⟨front, last, rfl⟩
    · exact ⟨base, rfl, hdirectory⟩
    · rw [List.concat_eq_append] at hfold hnames ⊢
      rw [Path.split_ofNames (by simp) hnames, List.map_append, List.foldlM_append,
        Steps.bind_eq_ok_iff] at hfold
      obtain ⟨above, hfront, hlast⟩ := hfold
      rw [List.dropLast_concat]
      obtain ⟨_, hstep, -⟩ := Steps.bind_eq_ok_iff.1 hlast
      exact ⟨above, hfront, directory_of_step hstep⟩
  obtain ⟨above, hfront, hdirectory⟩ := habove
  refine ⟨above, hname, hdirectory, dir.lead ++ names.dropLast.map String.toList, ?_, ?_⟩
  · rw [Path.split_join_ofNames (by simp) hall, List.map_append, List.append_assoc]
    rfl
  · rw [follow_join (Path.isAbsolute_ofNames hall), hreach]
    exact hfront

namespace Spot

variable {path : Path} {name : String}

/-- A spot is the location of the name in the directory. -/
lemma resolve (h : tree.Spot path base name) : tree.resolve path = .ok (base ++ [name]) := by
  obtain ⟨before, hsplit, hfollow⟩ := h.leads
  have hne : path.text ≠ "" := by
    intro hempty
    rw [Path.split_eq_singleton_nil_iff.2 hempty, ← List.nil_append [[]]] at hsplit
    exact h.isName.ne_void.1 (by simpa using (List.append_inj_right' hsplit rfl).symm)
  rw [FileTree.resolve, if_neg hne]
  change tree.follow path path.split = _
  rw [hsplit, follow, List.foldlM_append]
  change tree.follow path before >>= _ = _
  rw [hfollow]
  change tree.step base name.toList >>= _ = _
  rw [step_of_isName h.isName h.directory]
  rfl

/-- The name and the directory of a spot are those at the end of the path. -/
lemma exists_parent? (h : tree.Spot path base name) :
    path.fileName? = some name ∧ ∃ dir, path.parent? = some dir ∧ tree.reach dir = .ok base := by
  obtain ⟨before, hsplit, hfollow⟩ := h.leads
  obtain ⟨hfile, dir, voids, hparent, rfl, hvoids, habsolute⟩ :=
    Path.exists_parent? hsplit h.isName (by simp)
  refine ⟨hfile, dir, hparent, ?_⟩
  have hstart : tree.start dir = tree.start path := by rw [start, start, habsolute]
  rw [follow, List.foldlM_append, Steps.bind_eq_ok_iff] at hfollow
  obtain ⟨location, hlead, hrest⟩ := hfollow
  rw [reach, follow, hstart, hlead, foldlM_step_of_isVoid hvoids hrest]

/-- Another name in the place of the last one leads beside it. -/
lemma beside (h : tree.Spot path base name) {other : String} (hother : Path.IsName other) :
    tree.Spot (path.withFileName other) base other := by
  obtain ⟨hfile, dir, hparent, hreach⟩ := h.exists_parent?
  have hself : (⟨other⟩ : Path) = .ofNames [other] := by simp [Path.ofNames, Text.joinWith]
  rw [Path.withFileName, hfile, hparent, hself]
  exact spot_of_reach hother hreach h.directory

/-- The pieces of a spot do not end in an empty one. -/
lemma corePieces_eq (h : tree.Spot path base name) :
    corePieces path = path.split ∧ path.text.toList.getLast? ≠ some '/' := by
  obtain ⟨before, hsplit, -⟩ := h.leads
  have hempty := h.isName.ne_void.1
  constructor
  · change (path.split.reverse.dropWhile List.isEmpty).reverse = path.split
    simp [hsplit, hempty]
  · intro hslash
    rw [Path.split_eq_lead_concat hslash] at hsplit
    exact hempty (by simpa using (List.append_inj_right' hsplit rfl).symm)

end Spot

/-- The names of a file below a directory lead to the file. -/
lemma resolve_join_of_file (hgrounded : tree.Grounded) {dir : Path}
    (hnames : ∀ name ∈ names, Path.IsName name) (h : tree.reach dir = .ok base)
    (hdirectory : tree.at? base = some .directory) {content : Content}
    (hfile : tree.at? (base ++ names) = some (.file content)) :
    tree.resolve (dir.join (.ofNames names)) = .ok (base ++ names) := by
  rcases List.eq_nil_or_concat names with rfl | ⟨front, last, rfl⟩
  · rw [List.append_nil, hdirectory] at hfile
    cases hfile
  · rw [List.concat_eq_append] at hfile hnames ⊢
    have habove := (hgrounded.rooted _ (mem_keys_of_at? (by simp) hfile)).2
    rw [← List.append_assoc, List.dropLast_concat] at habove
    rw [← List.append_assoc]
    exact (spot_join hgrounded (fun name hname => hnames name (List.mem_append_left _ hname))
      (hnames last (by simp)) h habove).resolve

end LayeredProfiles.FileTree
