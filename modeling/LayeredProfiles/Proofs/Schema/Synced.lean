import LayeredProfiles.Proofs.FileTree.Replacement
import LayeredProfiles.Proofs.Json.Roundtrip
import LayeredProfiles.Proofs.Schema.InPlace

set_option autoImplicit false

/-!
# A schema file that was brought in line

A schema file is read, its enumeration is set, and it is written anew if that changes it. What is
written is read back as the document that it was written from, so that the file is in line from then
on: checking it finds nothing, and bringing it in line again does not touch it.

## Main results

* `Enumeration.faithful_of_put` — putting a faithful value somewhere keeps a document faithful.
* `FileTree.Spot.read_replaced` — a file that was replaced holds the text.
* `SchemaFile.sync_cases` — bringing a schema in line does nothing, or replaces the file.
* `SchemaFile.sync_reads_back` — what becomes of the file.
* `SchemaFile.sync_rounds_large_number` — a number that is not read back.
-/

namespace LayeredProfiles

namespace Enumeration

variable {value document after : Json} {changed : Bool} {path : List String}

/-- What is under a key of a faithful object, or is made there, is faithful. -/
lemma faithful_inside {fields : List (String × Json)} (h : (Json.object fields).Faithful)
    (segment : String) : (inside fields segment).Faithful := by
  unfold inside
  cases hget : OrderedMap.get? fields segment with
  | none => trivial
  | some inner => exact Json.faithfulFields_iff.1 h _ (OrderedMap.mem_of_get? hget)

/-- A list of names has no numbers in it. -/
lemma faithful_ofTexts (names : List String) : (Json.ofTexts names).Faithful := by
  change Json.FaithfulItems (names.map .text)
  induction names with
  | nil => trivial
  | cons name rest ih => exact ⟨trivial, ih⟩

/-- Putting a faithful value somewhere keeps a document faithful. -/
lemma faithful_of_put (hvalue : value.Faithful) (hdocument : document.Faithful)
    (h : put value path document = .ok (changed, after)) : after.Faithful := by
  induction path generalizing document after with
  | nil =>
    cases h
    exact hdocument
  | cons segment rest ih =>
    obtain ⟨fields, inner, rfl, rfl, hinner⟩ := exists_of_put h
    have hwritten : inner.Faithful := by
      rcases hinner with ⟨-, rfl⟩ | ⟨-, hrest⟩
      · exact hvalue
      · exact ih (faithful_inside hdocument segment) hrest
    refine Json.faithfulFields_iff.2 fun field hfield => ?_
    rcases OrderedMap.mem_of_mem_insert hfield with hold | rfl
    · exact Json.faithfulFields_iff.1 hdocument field hold
    · exact hwritten

end Enumeration

/-- A file that was replaced holds the text. -/
lemma FileTree.Spot.read_replaced {tree : FileTree} {path : Path} {base : Location} {name : String}
    (h : tree.Spot path base name) (hscratch : tree.at? (scratch base name) ≠ some .directory)
    (hfile : tree.at? (base ++ [name]) ≠ some .directory) (text : String) :
    (tree.replaced base name text).read path = .ok text := by
  have hspot := (rewritten_replaced h hscratch hfile text).spot h
  refine Steps.mapError_eq_ok_iff.2 (readText_eq_ok_iff.2 ⟨_, hspot.resolve, ?_⟩)
  rw [at?_replaced, if_pos rfl]

namespace SchemaFile

variable {file : SchemaFile} {tree before after : FileTree} {library : ParameterLibrary}
  {document result : Json}

/-- Bringing a schema in line fails with the document, leaves the file as it is, or replaces it. -/
lemma runOn_sync_eq_replace (file : SchemaFile) (library : ParameterLibrary) (tree : FileTree) :
    (file.sync library).runOn tree =
      match file.withNames tree library with
      | .error failure => (.error failure, tree)
      | .ok (false, _) => (.ok false, tree)
      | .ok (true, document) =>
        let replaced := (FileOperation.replace file.path (textOf document)).runOn tree
        (replaced.1.map fun _ => true, replaced.2) := by
  unfold sync
  rw [FileOperation.runOn_bind, FileOperation.runOn_look]
  rcases file.withNames tree library with failure | ⟨changed, document⟩
  · rfl
  · cases changed with
    | false => rfl
    | true =>
      dsimp only
      rw [if_pos rfl, FileOperation.runOn_bind]
      rcases (FileOperation.replace file.path (textOf document)).runOn tree with ⟨_ | _, _⟩ <;> rfl

/-- Where the names are in the document already, nothing changes. -/
lemma withNames_of_document (h : file.document tree = .ok document)
    (hthere : Enumeration.valueAt? (Enumeration.segments file.enumPath) document =
      some (.ofTexts library.names)) :
    file.withNames tree library = .ok (false, document) := by
  have hset : Enumeration.setAt file.enumPath library.names document = .ok (false, document) :=
    Enumeration.put_of_valueAt? hthere
  unfold withNames
  rw [h]
  dsimp only [bind, Except.bind]
  rw [hset]
  rfl

/-- **Bringing a schema in line does nothing, or replaces the file**: a file that can be read is at a
spot, so it is replaced unless there is a directory in the place of the temporary file. -/
lemma sync_cases (hbefore : before.Grounded) :
    (∃ failure, (file.withNames before library = .error failure ∨
        ∃ base name, before.Spot file.path base name ∧
          before.at? (FileTree.scratch base name) = some .directory) ∧
      (file.sync library).runOn before = (.error failure, before)) ∨
    (∃ document, file.withNames before library = .ok (false, document) ∧
      (file.sync library).runOn before = (.ok false, before)) ∨
    ∃ document base name, file.withNames before library = .ok (true, document) ∧
      before.Spot file.path base name ∧
      before.at? (FileTree.scratch base name) ≠ some .directory ∧
      before.at? (base ++ [name]) ≠ some .directory ∧
      (file.sync library).runOn before = (.ok true, before.replaced base name (textOf document)) := by
  have hrun := runOn_sync_eq_replace file library before
  cases hnames : file.withNames before library with
  | error failure =>
    rw [hnames] at hrun
    exact .inl ⟨failure, .inl rfl, hrun⟩
  | ok found =>
    obtain ⟨_ | _, document⟩ := found
    · rw [hnames] at hrun
      exact .inr (.inl ⟨document, rfl, hrun⟩)
    · obtain ⟨text, -, hread, -⟩ := withNames_eq_ok_iff.1 hnames
      obtain ⟨location, hresolve, hfile⟩ :=
        FileTree.readText_eq_ok_iff.1 (Steps.mapError_eq_ok_iff.1 hread)
      obtain ⟨base, name, rfl, hspot⟩ := hbefore.exists_spot hresolve hfile
      have hplace : before.at? (base ++ [name]) ≠ some .directory := by
        rw [hfile]
        simp
      rw [hnames] at hrun
      dsimp only at hrun
      rw [hspot.runOn_replace, if_neg hplace] at hrun
      by_cases hscratch : before.at? (FileTree.scratch base name) = some .directory
      · rw [if_pos hscratch] at hrun
        exact .inl ⟨_, .inr ⟨base, name, hspot, hscratch⟩, hrun⟩
      · rw [if_neg hscratch] at hrun
        exact .inr (.inr ⟨document, base, name, rfl, hspot, hscratch, hplace, hrun⟩)

/-- A file in which the names are found where they belong is in line. -/
lemma isCurrent_of_withNames (h : file.withNames tree library = .ok (false, document)) :
    file.isCurrent tree library = .ok true ∧ (file.sync library).runOn tree = (.ok false, tree) := by
  constructor
  · rw [isCurrent, h]
    rfl
  · rw [runOn_sync_eq_replace, h]

/-- **What becomes of a schema file that is brought in line**, for any library and any path of its
enumeration:

* it fails only if the names cannot be put into what the file holds, or if a directory is in the place
  of the temporary file, and then nothing in the tree is changed;
* if it finds nothing to change, nothing in the tree is changed either;
* if it succeeds, the file held a document, and what it was to hold differs from that at the path only:
  there it has the names of the library, in their order;
* if moreover the double precision numbers in the document are read back, and what the file was to hold
  nests at most as deep as can be read, then it is what is read back from the file. The file is in line
  then, and bringing it in line again changes nothing.

Nothing is asked of whole numbers that fit 64 bits. One that does not is read as a double precision number.

**Proof sketch.** A file that can be read is at a spot, so replacing it makes it hold the text, or fails
without a change (`sync_cases`). A document that was read is legible, and it stays legible and faithful
when the names are put into it (`Enumeration.valueAt?_of_put`, `Enumeration.faithful_of_put`). So its
indented form is read back (`Json.parse_toPrettyText`), and the names are found where they were put. -/
theorem sync_reads_back (file : SchemaFile) (library : ParameterLibrary) {before after : FileTree}
    {outcome : Except Failure Bool} (hbefore : before.Grounded)
    (hrun : (file.sync library).runOn before = (outcome, after)) :
    (∀ failure, outcome = .error failure → after = before ∧
      (file.withNames before library = .error failure ∨
        ∃ base name, before.Spot file.path base name ∧
          before.at? (FileTree.scratch base name) = some .directory)) ∧
    (outcome = .ok false → after = before) ∧
    ∀ changed, outcome = .ok changed →
      ∃ document result, file.document before = .ok document ∧
        file.withNames before library = .ok (changed, result) ∧
        Enumeration.Placed (.ofTexts library.names) (Enumeration.segments file.enumPath)
          document result ∧
        (document.Faithful → result.nesting ≤ Json.maxDepth →
          file.document after = .ok result ∧ file.isCurrent after library = .ok true ∧
            (file.sync library).runOn after = (.ok false, after)) := by
  have hpath := Enumeration.segments_ne_nil file.enumPath
  obtain ⟨failure, hwhy, hfails⟩ | ⟨result, hnames, hkeeps⟩ |
    ⟨result, base, name, hnames, hspot, hscratch, hplace, hreplaces⟩ := sync_cases hbefore
  · cases hfails.symm.trans hrun
    refine ⟨?_, nofun, nofun⟩
    rintro _ ⟨⟩
    exact ⟨rfl, hwhy⟩
  · cases hkeeps.symm.trans hrun
    refine ⟨nofun, fun _ => rfl, ?_⟩
    rintro changed ⟨⟩
    obtain ⟨text, document, hread, hparse, hset⟩ := withNames_eq_ok_iff.1 hnames
    obtain ⟨-, rfl⟩ := (Enumeration.put_eq_ok_false_iff hpath).1 hset
    have hdocument := document_eq_ok_iff.2 ⟨text, hread, hparse⟩
    exact ⟨_, _, hdocument, hnames, Enumeration.placed_of_put hpath hset, fun _ _ =>
      ⟨hdocument, isCurrent_of_withNames hnames⟩⟩
  · cases hreplaces.symm.trans hrun
    refine ⟨nofun, nofun, ?_⟩
    rintro changed ⟨⟩
    obtain ⟨text, document, hread, hparse, hset⟩ := withNames_eq_ok_iff.1 hnames
    refine ⟨document, result, document_eq_ok_iff.2 ⟨text, hread, hparse⟩, hnames,
      Enumeration.placed_of_put hpath hset, fun hfaithful hnesting => ?_⟩
    obtain ⟨hthere, -, hlegible⟩ := Enumeration.valueAt?_of_put hpath hset
    -- what is written now is read back, so the names are found where they were put
    have hback : Json.parse (textOf result) = .ok result :=
      Json.parse_toPrettyText
        (hlegible (Enumeration.legible_ofTexts _) (Json.legible_of_parse hparse))
        (Enumeration.faithful_of_put (Enumeration.faithful_ofTexts _) hfaithful hset) hnesting
    have hafter := document_eq_ok_iff.2
      ⟨_, hspot.read_replaced hscratch hplace (textOf result), hback⟩
    exact ⟨hafter, isCurrent_of_withNames (withNames_of_document hafter hthere)⟩

/-! ## Two schema files -/

/-- A schema file in a directory of its own, and nothing else. -/
def alone (schema : Json) : FileTree :=
  ⟨[(["s"], .directory), (["s", "schema.json"], .file (.text schema.toText))], []⟩

/-- The file in that tree, with its enumeration in an object that may have to be made. -/
def aloneFile : SchemaFile := ⟨⟨"s/schema.json"⟩, "names.enum"⟩

/-- Names with a quote, a line break, another control character and letters beyond ASCII in them. -/
def oddNames : List String := ["SOC", "a\"b", "\n", "\u0007", "Δé"]

/-- A library with a definition for each of them. -/
def oddLibrary : ParameterLibrary :=
  .ofDefinitions (oddNames.map (⟨·, none, []⟩))

/-- The odd names are read back, behind a whole number and three halves. -/
theorem sync_reads_back_oddLibrary :
    let fields : List (String × Json) :=
      [("minimum", .integer (-3)), ("ratio", .double ⟨false, 3 * 2 ^ 51, -52⟩)]
    let tree := alone (.object fields)
    let result : Json := .object (fields ++ [("names", .object [("enum", .ofTexts oddNames)])])
    ∃ after, tree.Grounded ∧ (aloneFile.sync oddLibrary).runOn tree = (.ok true, after) ∧
      aloneFile.document tree = .ok (.object fields) ∧ (Json.object fields).Faithful ∧
      result.nesting ≤ Json.maxDepth ∧ aloneFile.document after = .ok result ∧
      aloneFile.isCurrent after oddLibrary = .ok true ∧
      (aloneFile.sync oddLibrary).runOn after = (.ok false, after) := by
  intro fields tree result
  have hgrounded : tree.Grounded := by decide +kernel
  have hchanged : ((aloneFile.sync oddLibrary).runOn tree).1 = .ok true := by decide +kernel
  have hrun : (aloneFile.sync oddLibrary).runOn tree =
      (.ok true, ((aloneFile.sync oddLibrary).runOn tree).2) := Prod.ext hchanged rfl
  have hdocument : aloneFile.document tree = .ok (.object fields) := by decide +kernel
  have hnames : aloneFile.withNames tree oddLibrary = .ok (true, result) := by decide +kernel
  have hhalves : Json.parse (Json.double ⟨false, 3 * 2 ^ 51, -52⟩).toText =
      .ok (.double ⟨false, 3 * 2 ^ 51, -52⟩) := by decide +kernel
  have hfaithful : (Json.object fields).Faithful := ⟨trivial, hhalves, trivial⟩
  have hnesting : result.nesting ≤ Json.maxDepth := by decide +kernel
  obtain ⟨document, found, hfound, hput, -, hback⟩ :=
    (sync_reads_back aloneFile oddLibrary hgrounded hrun).2.2 true rfl
  obtain rfl : document = .object fields := Except.ok.inj (hfound.symm.trans hdocument)
  obtain rfl : found = result := (Prod.mk.inj (Except.ok.inj (hput.symm.trans hnames))).2
  exact ⟨_, hgrounded, hrun, hdocument, hfaithful, hnesting, hback hfaithful hnesting⟩

/-- A whole number of 68 bits is read as a double precision number, and the digits that this one is
written with are read as another one. -/
theorem sync_rounds_large_number :
    let maximum := fun number : Json => ("maximum", number)
    let tree := alone (.object [maximum (.integer (2 ^ 67))])
    let names : String × Json := ("names", .object [("enum", .ofTexts ["SOC"])])
    let library : ParameterLibrary := .ofDefinitions [⟨"SOC", none, []⟩]
    let result : Json := .object [maximum (.double ⟨false, 2 ^ 52, 15⟩), names]
    ∃ after, tree.Grounded ∧ (aloneFile.sync library).runOn tree = (.ok true, after) ∧
      aloneFile.document tree = .ok (.object [maximum (.double ⟨false, 2 ^ 52, 15⟩)]) ∧
      aloneFile.withNames tree library = .ok (true, result) ∧ result.nesting ≤ Json.maxDepth ∧
      aloneFile.document after = .ok (.object [maximum (.double ⟨false, 2 ^ 53 - 1, 14⟩), names]) ∧
      aloneFile.document after ≠ .ok result := by
  intro maximum tree names library result
  have hchanged : ((aloneFile.sync library).runOn tree).1 = .ok true := by decide +kernel
  have hread : aloneFile.document ((aloneFile.sync library).runOn tree).2 =
      .ok (.object [maximum (.double ⟨false, 2 ^ 53 - 1, 14⟩), names]) := by decide +kernel
  refine ⟨_, by decide +kernel, Prod.ext hchanged rfl, by decide +kernel, by decide +kernel,
    by decide +kernel, hread, ?_⟩
  rw [hread]
  decide +kernel

end SchemaFile

end LayeredProfiles
