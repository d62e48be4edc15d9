import LayeredProfiles.Proofs.Document.Target
import LayeredProfiles.Proofs.FileTree.Rewritten

set_option autoImplicit false

/-!
# Where documents stay

Under the conventional patterns a document is the only file that is named in a certain way, or it is
made under such a name when there is none. Either way it is the one file that is found the next
time, as long as no other file of such a name appears.

## Main definitions

* `Document.Place` — where the document with an ending is or will be.

## Main results

* `Document.place_of_candidates`, `Document.Place.fallback` — the place of a document that was found
  and of one that is made.
* `Document.Place.candidates_eq` — a document in its place is found there.
* `Document.Place.rewritten` — a document keeps its place while other files change.
* `Document.candidates_rewritten` — while files elsewhere change, the same candidates are found.
-/

namespace LayeredProfiles.Document

variable {tree after : FileTree} {root : Path} {base dir : Location} {text ending name : String}
  {touched : List Location}

/-- Below a location there is a directory for the document with an ending, and the document is the
only file that is named as such a document, if there is one. -/
structure Place (tree : FileTree) (base : Location) (ending : String) (dir : Location)
    (name : String) : Prop where
  /-- The document is named by convention. -/
  named : Named ending (dir ++ [name])
  /-- It has a place that paths can lead to. -/
  isName : ∀ n ∈ dir ++ [name], Path.IsName n
  /-- Its directory is there. -/
  directory : tree.at? (base ++ dir) = some .directory
  /-- No other file is named like it. -/
  sole : ∀ others content, tree.at? (base ++ others) = some (.file content) → Named ending others →
    others = dir ++ [name]

/-- Beside a document there can be another one, with an ending of its own. -/
lemma Named.beside {other : String} (h : Named other (dir ++ [name])) (part ending : String) :
    Named ending (dir ++ [part ++ ending]) := by
  obtain ⟨a, b, c, hnames⟩ := h
  change _ = [a ++ ".Config", b ++ ".Automate"] ++ [c ++ other] at hnames
  exact ⟨a, b, part, by rw [List.append_inj_left' hnames rfl]; rfl⟩

/-- Another name in the place of that of a document leads beside it. -/
lemma Place.withFileName {other : String} (h : Place tree base ending dir name)
    (hother : Path.IsName other) :
    (root.join (.ofNames (dir ++ [name]))).withFileName other =
      root.join (.ofNames (dir ++ [other])) := by
  have hne : dir ≠ [] := by
    rintro rfl
    obtain ⟨a, b, c, hnames⟩ := h.named
    simp at hnames
  exact Path.withFileName_join_ofNames hne (fun n hn => h.isName n (List.mem_append_left _ hn))
    (h.isName name (by simp)) hother

/-- What is below a location has a place that paths can lead to. -/
lemma isName_of_at? (h : tree.Grounded) {names : List String} {entry : Entry}
    (hentry : tree.at? (base ++ names) = some entry) : ∀ n ∈ names, Path.IsName n := by
  intro n hn
  have hne : base ++ names ≠ [] := List.append_ne_nil_of_right_ne_nil _ (List.ne_nil_of_mem hn)
  exact h.named _ (FileTree.mem_keys_of_at? hne hentry) n (List.mem_append_right base hn)

section Searched

variable (h : Searched tree root base text (Pattern.naming ending)) (hending : '/' ∉ ending.toList)

include h hending

/-- The files that the pattern of an ending describes are those named by convention. -/
lemma Searched.describes_iff {names : List String} {entry : Entry}
    (hentry : tree.at? (base ++ names) = some entry) :
    describes (Pattern.naming ending) names = true ↔ Named ending names :=
  Pattern.isFoundIn_naming_iff hending (isName_of_at? h.grounded hentry)

/-- A document that was found is in its place. -/
lemma place_of_candidates {path : Path} (hfound : candidates tree root text = .ok [path]) :
    ∃ dir name, path = root.join (.ofNames (dir ++ [name])) ∧ Place tree base ending dir name ∧
      ∃ content, tree.at? (base ++ (dir ++ [name])) = some (.file content) := by
  obtain ⟨names, content, rfl, hdescribed, hthere, hsole⟩ := h.candidates_eq_singleton_iff.1 hfound
  have hnamed := (h.describes_iff hending hthere).1 hdescribed
  obtain ⟨dir, name, rfl⟩ : ∃ dir name, names = dir ++ [name] := by
    obtain ⟨a, b, c, rfl⟩ := hnamed
    exact ⟨[a ++ ".Config", b ++ ".Automate"], c ++ ending, rfl⟩
  refine ⟨dir, name, rfl, ⟨hnamed, isName_of_at? h.grounded hthere, ?_, ?_⟩, content, hthere⟩
  · rw [← List.append_assoc] at hthere
    exact h.grounded.directory_above (List.cons_ne_nil name []) hthere
  · intro others more hother hothers
    exact hsole others more hother ((h.describes_iff hending hother).2 hothers)

/-- A document in its place is found there. -/
lemma Place.candidates_eq (hplace : Place tree base ending dir name) {content : Content}
    (hthere : tree.at? (base ++ (dir ++ [name])) = some (.file content)) :
    candidates tree root text = .ok [root.join (.ofNames (dir ++ [name]))] := by
  refine h.candidates_eq_singleton_iff.2 ⟨dir ++ [name], content, rfl,
    (h.describes_iff hending hthere).2 hplace.named, hthere, fun others more hother hothers => ?_⟩
  exact hplace.sole others more hother ((h.describes_iff hending hother).1 hothers)

/-- A document that is made beside another one gets the place of a document with an ending, if there
is none. -/
lemma Place.fallback {other fallback : String} (hplace : Place tree base other dir name)
    (hnone : candidates tree root text = .ok []) (hname : Path.IsName fallback)
    (hfallback : ∃ part, fallback = part ++ ending) : Place tree base ending dir fallback where
  named := by
    obtain ⟨part, rfl⟩ := hfallback
    exact hplace.named.beside part ending
  isName := fun n hn => (List.mem_append.1 hn).elim
    (fun hdir => hplace.isName n (List.mem_append_left _ hdir))
    fun hlast => List.mem_singleton.1 hlast ▸ hname
  directory := hplace.directory
  sole := fun others content hother hothers => by
    have hdescribed := (h.describes_iff hending hother).2 hothers
    rw [h.candidates_eq_nil_iff.1 hnone others content hother] at hdescribed
    cases hdescribed

end Searched

/-- Where documents are looked for stays the same while files change. -/
lemma Searched.rewritten {pattern : Pattern} (h : Searched tree root base text pattern)
    (hchanged : FileTree.Rewritten tree after touched) : Searched after root base text pattern where
  grounded := hchanged.grounded h.grounded
  resolve := hchanged.resolve_iff.2 h.resolve
  directory := (hchanged.directory base).2 h.directory
  parse := h.parse

/-- A document keeps its place while no other file of such a name is touched. -/
lemma Place.rewritten (h : Place tree base ending dir name)
    (hchanged : FileTree.Rewritten tree after touched)
    (htouched : ∀ others, base ++ others ∈ touched → Named ending others → others = dir ++ [name]) :
    Place after base ending dir name where
  named := h.named
  isName := h.isName
  directory := (hchanged.directory _).2 h.directory
  sole := fun others content hother hothers => by
    by_cases hmem : base ++ others ∈ touched
    · exact htouched others hmem hothers
    · exact h.sole others content (hchanged.elsewhere _ hmem ▸ hother) hothers

/-- While files elsewhere change, the same candidates are found, be it none for want of a
directory. -/
lemma candidates_rewritten (hchanged : FileTree.Rewritten tree after touched)
    (hspared : ∀ base, tree.resolve root = .ok base → ∀ l ∈ touched, ¬ base <+: l) (text : String) :
    candidates after root text = candidates tree root text := by
  unfold candidates
  cases hresolve : tree.resolve root with
  | error fault =>
    have hnowhere : ∀ location, after.resolve root ≠ .ok location := by
      intro location hlocation
      rw [hchanged.resolve_iff, hresolve] at hlocation
      cases hlocation
    have hnone : tree.isDirectory root = false := by
      simp [FileTree.isDirectory, FileTree.lookup?, hresolve]
    have hafter : after.isDirectory root = false := by
      unfold FileTree.isDirectory FileTree.lookup?
      split
      · next location hlocation => exact absurd hlocation (hnowhere location)
      · rfl
    rw [hnone, hafter]
    rfl
  | ok base =>
    have hthere : after.isDirectory root = tree.isDirectory root := by
      have hat := hchanged.at?_append (hspared base hresolve) []
      rw [List.append_nil] at hat
      simp only [FileTree.isDirectory, FileTree.lookup?, hresolve, hchanged.resolve_iff.2 hresolve, hat]
    rw [hthere, hchanged.walk hresolve (hspared base hresolve)]

end LayeredProfiles.Document
