import LayeredProfiles.Config.Basic
import LayeredProfiles.Pattern.Reader
import LayeredProfiles.Proofs.Path.Names
import LayeredProfiles.Proofs.Pattern.Language

set_option autoImplicit false

/-!
# The conventional names of documents

By convention a generated document lies two directories below that of the documents, in an
automation section of a configuration section. The patterns of the conventional layout describe
exactly the paths of such files.

## Main definitions

* `Document.vehiclesEnding`, `Document.parametersEnding` — how the names of the two documents end.
* `Pattern.literal`, `Pattern.segment`, `Pattern.naming` — the conventional patterns, put together.
* `Document.Named` — the names that lead to a document by convention.

## Main results

* `Pattern.read?_vehiclesPattern`, `Pattern.read?_parametersPattern` — what the patterns of the
  conventional layout are.
* `Pattern.isFoundIn_naming_iff` — they are found in the paths of conventional names only.
-/

namespace LayeredProfiles

namespace Document

/-- The ending of the document of supported vehicles. -/
def vehiclesEnding : String := ".Supported_Vehicles.md"

/-- The ending of the document of supported parameters. -/
def parametersEnding : String := ".Supported_Parameters.md"

end Document

namespace Pattern

/-- Some characters one after the other, and then another pattern. -/
def literal (characters : List Char) (next : Pattern) : Pattern :=
  characters.foldr (fun c more => .seq (.one (.single c)) more) next

/-- Any characters but slashes. -/
def segment : Pattern :=
  .star (.one ⟨true, [('/', '/')]⟩)

/-- The pattern of the documents with a certain ending. -/
def naming (ending : String) : Pattern :=
  .seq .atStart (.seq segment (literal ".Config/".toList (.seq segment
    (literal ".Automate/".toList (.seq segment (literal ending.toList .atEnd))))))

/-- The conventional pattern of the document of supported vehicles. -/
lemma read?_vehiclesPattern :
    read? DocsConfig.default.vehiclesPattern = some (naming Document.vehiclesEnding) := by
  decide +kernel

/-- The conventional pattern of the document of supported parameters. -/
lemma read?_parametersPattern :
    read? DocsConfig.default.parametersPattern = some (naming Document.parametersEnding) := by
  decide +kernel

/-! ## What remains behind the parts -/

variable {total : Nat} {text rest : List Char}

/-- At the start nothing is taken away. -/
lemma leaves_atStart_iff :
    Leaves total .atStart text rest ↔ text.length = total ∧ text = rest := by
  constructor
  · rintro ⟨⟩
    exact ⟨‹_›, rfl⟩
  · rintro ⟨hlength, rfl⟩
    exact .atStart hlength

/-- At the end nothing is left to be taken away. -/
lemma leaves_atEnd_iff : Leaves total .atEnd text rest ↔ text = [] ∧ rest = [] := by
  constructor
  · rintro ⟨⟩
    exact ⟨rfl, rfl⟩
  · rintro ⟨rfl, rfl⟩
    exact .atEnd

/-- What one pattern leaves is what the next one starts from. -/
lemma leaves_seq_iff {first second : Pattern} :
    Leaves total (.seq first second) text rest ↔
      ∃ middle, Leaves total first text middle ∧ Leaves total second middle rest := by
  constructor
  · rintro ⟨⟩
    exact ⟨_, ‹_›, ‹_›⟩
  · rintro ⟨middle, hfirst, hsecond⟩
    exact .seq hfirst hsecond

/-- A character of a set is taken away. -/
lemma leaves_one_iff {letters : Letters} :
    Leaves total (.one letters) text rest ↔ ∃ c, letters.has c = true ∧ text = c :: rest := by
  constructor
  · rintro ⟨⟩
    exact ⟨_, ‹_›, rfl⟩
  · rintro ⟨c, hc, rfl⟩
    exact .one rest hc

/-- A single character is only itself. -/
lemma has_single_iff {c d : Char} : (Letters.single c).has d = true ↔ d = c := by
  simp only [Letters.has, Letters.single, List.any_cons, List.any_nil, Bool.or_false, bne_iff_ne,
    ne_eq, Bool.not_eq_false, Bool.and_eq_true, decide_eq_true_eq]
  exact ⟨fun h => Char.le_antisymm h.2 h.1, fun h => h ▸ ⟨Char.le_refl d, Char.le_refl d⟩⟩

/-- Characters are taken away as they stand. -/
lemma leaves_literal_iff {characters : List Char} {next : Pattern} :
    Leaves total (literal characters next) text rest ↔
      ∃ middle, text = characters ++ middle ∧ Leaves total next middle rest := by
  induction characters generalizing text with
  | nil => simp [literal]
  | cons c more ih =>
    have hcons : literal (c :: more) next = .seq (.one (.single c)) (literal more next) := rfl
    simp only [hcons, leaves_seq_iff, leaves_one_iff, has_single_iff, ih]
    constructor
    · rintro ⟨_, ⟨_, rfl, rfl⟩, middle, rfl, hnext⟩
      exact ⟨middle, rfl, hnext⟩
    · rintro ⟨middle, rfl, hnext⟩
      exact ⟨_, ⟨c, rfl, rfl⟩, middle, rfl, hnext⟩

/-- Characters that are no slashes are taken away, as many as there are or fewer. -/
lemma leaves_segment_iff :
    Leaves total segment text rest ↔ ∃ part, '/' ∉ part ∧ text = part ++ rest := by
  have hslash : ∀ c : Char, (⟨true, [('/', '/')]⟩ : Letters).has c = true ↔ c ≠ '/' := by
    intro c
    simp only [Letters.has, List.any_cons, List.any_nil, Bool.or_false, bne_iff_ne, ne_eq,
      Bool.not_eq_true, Bool.and_eq_false_iff, decide_eq_false_iff_not]
    constructor
    · rintro hc rfl
      rcases hc with hc | hc <;> exact hc (Char.le_refl _)
    · intro hc
      by_contra hboth
      rw [not_or, not_not, not_not] at hboth
      exact hc (Char.le_antisymm hboth.2 hboth.1)
  rw [segment, leaves_star_iff]
  constructor
  · intro hpath
    induction hpath using Relation.ReflTransGen.head_induction_on with
    | refl => exact ⟨[], List.not_mem_nil, rfl⟩
    | head honce _ ih =>
      obtain ⟨c, hc, rfl⟩ := leaves_one_iff.1 honce
      obtain ⟨part, hpart, rfl⟩ := ih
      exact ⟨c :: part, by simp [Ne.symm ((hslash c).1 hc), hpart], rfl⟩
  · rintro ⟨part, hpart, rfl⟩
    induction part with
    | nil => exact .refl
    | cons c part ih =>
      obtain ⟨hc, hrest⟩ : '/' ≠ c ∧ '/' ∉ part := by simpa using hpart
      exact .head (.one _ ((hslash c).2 (Ne.symm hc))) (ih hrest)

/-- The pattern of the documents with an ending is found in the texts of this form. -/
lemma isFoundIn_naming_iff_exists {ending : String} :
    (naming ending).isFoundIn text = true ↔
      ∃ a b c : List Char, '/' ∉ a ∧ '/' ∉ b ∧ '/' ∉ c ∧
        text = a ++ (".Config/".toList ++ (b ++ (".Automate/".toList ++ (c ++ ending.toList)))) := by
  simp only [isFoundIn_iff, naming, leaves_seq_iff, leaves_literal_iff, leaves_segment_iff,
    leaves_atStart_iff, leaves_atEnd_iff]
  constructor
  · rintro ⟨start, rest, hstart, _, ⟨hlength, rfl⟩, _, ⟨a, ha, rfl⟩, _, rfl, _, ⟨b, hb, rfl⟩, _, rfl,
      _, ⟨c, hc, rfl⟩, _, rfl, rfl, rfl⟩
    refine ⟨a, b, c, ha, hb, hc, ?_⟩
    rw [← hstart.eq_of_length hlength, List.append_nil]
  · rintro ⟨a, b, c, ha, hb, hc, rfl⟩
    exact ⟨_, [], List.suffix_rfl, _, ⟨rfl, rfl⟩, _, ⟨a, ha, rfl⟩, _, rfl, _, ⟨b, hb, rfl⟩, _, rfl,
      _, ⟨c, hc, rfl⟩, [], by simp, rfl, rfl⟩

end Pattern

namespace Document

/-- By convention, names lead to the document with an ending. -/
def Named (ending : String) (names : List String) : Prop :=
  ∃ a b c : String, names = [a ++ ".Config", b ++ ".Automate", c ++ ending]

/-- Texts whose ends do not fit each other are different. -/
lemma append_ne_append {a b ending other : String} (h : ¬ ending.toList <:+ other.toList)
    (hother : ¬ other.toList <:+ ending.toList) : a ++ ending ≠ b ++ other := by
  intro hsame
  have hlist : a.toList ++ ending.toList = b.toList ++ other.toList := by
    rw [← String.toList_append, hsame, String.toList_append]
  rcases List.suffix_or_suffix_of_suffix (List.suffix_append a.toList ending.toList)
    (hlist ▸ List.suffix_append b.toList other.toList) with hfirst | hsecond
  · exact h hfirst
  · exact hother hsecond

/-- Names that lead to a document with one ending do not lead to one with another. -/
lemma Named.ne {ending other : String} {names others : List String} (h : Named ending names)
    (hothers : Named other others) (hends : ¬ ending.toList <:+ other.toList)
    (hother : ¬ other.toList <:+ ending.toList) : names ≠ others := by
  obtain ⟨a, b, c, rfl⟩ := h
  obtain ⟨a', b', c', rfl⟩ := hothers
  intro hsame
  exact append_ne_append hends hother (by simpa using (List.cons.inj (List.cons.inj
    (List.cons.inj hsame).2).2).1)

end Document

namespace Pattern

/-- **The conventional patterns** are found in the paths of files that are named by convention, and
in no others. -/
theorem isFoundIn_naming_iff {ending : String} (hending : '/' ∉ ending.toList) {names : List String}
    (hnames : ∀ name ∈ names, Path.IsName name) :
    (naming ending).isFoundIn (Text.joinWith '/' (names.map String.toList)) = true ↔
      Document.Named ending names := by
  rw [isFoundIn_naming_iff_exists]
  constructor
  · rintro ⟨a, b, c, ha, hb, hc, htext⟩
    have hjoined : Text.joinWith '/' (names.map String.toList) =
        Text.joinWith '/' [a ++ ".Config".toList, b ++ ".Automate".toList, c ++ ending.toList] := by
      simpa [Text.joinWith] using htext
    have hslash : ∀ piece ∈ [a ++ ".Config".toList, b ++ ".Automate".toList, c ++ ending.toList],
        '/' ∉ piece := by
      simp [ha, hb, hc, hending]
    have hne : names ≠ [] := by
      rintro rfl
      simp [Text.joinWith] at htext
    have hsep : ∀ piece ∈ names.map String.toList, '/' ∉ piece := by
      intro piece hpiece
      obtain ⟨name, hname, rfl⟩ := List.mem_map.1 hpiece
      exact (hnames name hname).1
    -- neither the names nor the three parts hold a slash, so splitting the text gives both
    have hsplit := Text.splitAt_joinWith (by simpa using hne) hsep
    rw [hjoined, Text.splitAt_joinWith (by simp) hslash] at hsplit
    refine ⟨String.ofList a, String.ofList b, String.ofList c, ?_⟩
    have hback := congrArg (List.map String.ofList) hsplit
    simp only [List.map_map, Function.comp_def, String.ofList_toList, List.map_id'] at hback
    rw [← hback]
    simp [String.ofList_append]
  · rintro ⟨a, b, c, rfl⟩
    have hpart : ∀ {part suffix : String}, Path.IsName (part ++ suffix) → '/' ∉ part.toList := by
      intro part suffix hname
      have hslash := hname.1
      rw [String.toList_append, List.mem_append, not_or] at hslash
      exact hslash.1
    refine ⟨a.toList, b.toList, c.toList, hpart (hnames (a ++ ".Config") (by simp)),
      hpart (hnames (b ++ ".Automate") (by simp)), hpart (hnames (c ++ ending) (by simp)), ?_⟩
    simp [Text.joinWith]

end Pattern

end LayeredProfiles
