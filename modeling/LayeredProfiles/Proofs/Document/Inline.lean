import Mathlib.Tactic.IntervalCases
import LayeredProfiles.Proofs.Json.Rereading

set_option autoImplicit false

/-!
# Lines and bars

A row of a document is meant to be one line, and a row of a table is divided into cells by bars. A text
that is put into a row can end the line, by a line feed or a carriage return, and it can end the cell, by
a bar without a backslash in front. A document that is written in compact form never ends the line, but
every bar in a string or a key of it ends the cell, as in JSON no backslash is put in front of a bar.

## Main definitions

* `Document.OneLine`, `Document.FitsLine` — texts that do not end a line, and texts that end it with the
  line feed behind them only.
* `Document.linesOf` — the lines of a text.
* `Document.bars` — how many bars of a text end a cell.
* `Json.bars` — how many bars there are in the strings and keys of a document.

## Main results

* `Document.linesOf_flatMap_eq_iff` — when rows that are put one behind the other are the lines of a text.
* `Document.bars_append_cons` — bars are counted one text after the other.
* `Json.inline_compact` — what a compact document ends.
-/

namespace LayeredProfiles

namespace Document

/-- A text that does not end a line. -/
def OneLine (text : List Char) : Prop :=
  '\n' ∉ text ∧ '\r' ∉ text

instance (text : List Char) : Decidable (OneLine text) :=
  inferInstanceAs (Decidable ('\n' ∉ text ∧ '\r' ∉ text))

/-- A text that does not end a line before the line feed that is put behind it. If there is a carriage
return at its end, both end the line together. -/
def FitsLine (text : List Char) : Prop :=
  '\n' ∉ text ∧ '\r' ∉ text.dropLast

instance (text : List Char) : Decidable (FitsLine text) :=
  inferInstanceAs (Decidable ('\n' ∉ text ∧ '\r' ∉ text.dropLast))

/-- The lines of a text, each with what ends it: a line feed, a carriage return or both. -/
def linesOf : List Char → List (List Char)
  | [] => []
  | '\r' :: '\n' :: rest => ['\r', '\n'] :: linesOf rest
  | c :: rest =>
    if c = '\n' ∨ c = '\r' then [c] :: linesOf rest
    else
      match linesOf rest with
      | [] => [[c]]
      | line :: more => (c :: line) :: more

/-- A line: it goes on to what ends it. -/
def IsLine (line : List Char) : Prop :=
  ∃ body ending, line = body ++ ending ∧ OneLine body ∧
    ending ∈ [[], ['\n'], ['\r'], ['\r', '\n']]

/-- How many bars of a text end a cell. The character behind a backslash stands for itself, be it a bar
or another backslash. -/
def bars : List Char → Nat
  | [] => 0
  | '\\' :: _ :: rest => bars rest
  | c :: rest => if c = '|' then bars rest + 1 else bars rest

variable {text body rest : List Char} {c : Char}

/-! ## Lines -/

@[simp] lemma oneLine_nil : OneLine [] := ⟨List.not_mem_nil, List.not_mem_nil⟩

@[simp] lemma oneLine_cons : OneLine (c :: text) ↔ (c ≠ '\n' ∧ c ≠ '\r') ∧ OneLine text := by
  simp only [OneLine, List.mem_cons, not_or, @eq_comm _ _ c]
  tauto

@[simp] lemma oneLine_append {more : List Char} :
    OneLine (text ++ more) ↔ OneLine text ∧ OneLine more := by
  simp only [OneLine, List.mem_append, not_or]
  tauto

/-- A text of printable characters does not end a line. -/
lemma oneLine_of_printable (h : ∀ c ∈ text, 32 ≤ c.toNat) : OneLine text :=
  ⟨fun hmem => absurd (h _ hmem) (by decide), fun hmem => absurd (h _ hmem) (by decide)⟩

/-- What stands in front of a text that is not empty must not end the line at all. -/
lemma fitsLine_append_cons : FitsLine (text ++ c :: rest) ↔ OneLine text ∧ FitsLine (c :: rest) := by
  simp only [FitsLine, OneLine, List.dropLast_append_cons, List.mem_append, not_or]
  tauto

/-- A character that does not end a line makes no difference. -/
@[simp] lemma fitsLine_cons (hfeed : c ≠ '\n') (hreturn : c ≠ '\r') :
    FitsLine (c :: text) ↔ FitsLine text := by
  have hc : OneLine [c] := by simp [hfeed, hreturn]
  cases text with
  | nil => simp [FitsLine, hfeed.symm]
  | cons d text =>
    have hsplit : FitsLine ([c] ++ d :: text) ↔ OneLine [c] ∧ FitsLine (d :: text) :=
      fitsLine_append_cons
    exact hsplit.trans (and_iff_right hc)

/-- A line goes on behind a character that does not end it. -/
lemma linesOf_cons (hfeed : c ≠ '\n') (hreturn : c ≠ '\r') {line : List Char}
    {more : List (List Char)} (h : linesOf rest = line :: more) :
    linesOf (c :: rest) = (c :: line) :: more := by
  rw [linesOf.eq_def]
  split
  · next heq => cases heq
  · next heq => exact absurd (List.cons.inj heq).1 hreturn
  · next heq =>
    obtain ⟨rfl, rfl⟩ := List.cons.inj heq
    rw [if_neg (by simp [hfeed, hreturn]), h]

/-- The first line of a text ends at its first line feed. -/
lemma linesOf_append (h : FitsLine body) (rest : List Char) :
    linesOf (body ++ '\n' :: rest) = (body ++ ['\n']) :: linesOf rest := by
  induction body with
  | nil => rfl
  | cons c body ih =>
    have hfeed : c ≠ '\n' := fun heq => h.1 (heq ▸ List.mem_cons_self)
    by_cases hreturn : c = '\r'
    · -- only the last character of the body can be one, and it ends the line with the line feed
      subst hreturn
      cases body with
      | nil => rfl
      | cons d body => exact absurd List.mem_cons_self h.2
    · exact linesOf_cons hfeed hreturn (ih ((fitsLine_cons hfeed hreturn).1 h))

/-- A line does not end before its end. -/
lemma isLine_of_mem_linesOf {line : List Char} (h : line ∈ linesOf text) : IsLine line := by
  fun_induction linesOf text generalizing line with
  | case1 => cases h
  | case2 rest ih =>
    rcases List.mem_cons.1 h with rfl | hrest
    · exact ⟨[], ['\r', '\n'], rfl, oneLine_nil, by simp⟩
    · exact ih hrest
  | case3 c rest _ hends ih =>
    rcases List.mem_cons.1 h with rfl | hrest
    · exact ⟨[], [c], rfl, oneLine_nil, by simp [hends]⟩
    · exact ih hrest
  | case4 c rest _ hends =>
    obtain rfl := List.mem_singleton.1 h
    exact ⟨[c], [], rfl, by simpa [not_or] using hends, by simp⟩
  | case5 c rest _ hends first more hsome ih =>
    rw [hsome] at ih
    rcases List.mem_cons.1 h with rfl | hmore
    · obtain ⟨body, ending, rfl, hbody, hending⟩ := ih List.mem_cons_self
      exact ⟨c :: body, ending, rfl, oneLine_cons.2 ⟨not_or.1 hends, hbody⟩, hending⟩
    · exact ih (List.mem_cons_of_mem _ hmore)

/-- What ends with a line feed is a line only if what stands in front of it fits. -/
lemma IsLine.fitsLine (h : IsLine (body ++ ['\n'])) : FitsLine body := by
  obtain ⟨inner, ending, heq, hinner, hending⟩ := h
  have hlast := congrArg List.getLast? heq
  rw [List.getLast?_concat] at hlast
  simp only [List.mem_cons, List.not_mem_nil, or_false] at hending
  rcases hending with rfl | rfl | rfl | rfl
  · rw [List.append_nil] at heq
    rw [← heq] at hinner
    simp at hinner
  · rw [List.append_cancel_right heq]
    exact ⟨hinner.1, fun hmem => hinner.2 (List.dropLast_subset _ hmem)⟩
  · rw [List.getLast?_concat] at hlast
    cases hlast
  · obtain rfl : body = inner ++ ['\r'] :=
      List.append_cancel_right (heq.trans (List.append_assoc inner ['\r'] ['\n']).symm)
    exact fitsLine_append_cons.2 ⟨hinner, by decide⟩

/-- **When rows are the lines of a text**: if they are put one behind the other, exactly if each of them
fits into a line. -/
lemma linesOf_flatMap_eq_iff {α : Type} {items : List α} {row bodyOf : α → List Char}
    (hrow : ∀ item, row item = bodyOf item ++ ['\n']) :
    linesOf (items.flatMap row) = items.map row ↔ ∀ item ∈ items, FitsLine (bodyOf item) := by
  constructor
  · intro h item hitem
    have hline : row item ∈ linesOf (items.flatMap row) := h ▸ List.mem_map_of_mem hitem
    exact (hrow item ▸ isLine_of_mem_linesOf hline).fitsLine
  · intro h
    induction items with
    | nil => rfl
    | cons item items ih =>
      obtain ⟨hbody, hitems⟩ := List.forall_mem_cons.1 h
      rw [List.flatMap_cons, List.map_cons, hrow item, List.append_assoc, List.singleton_append,
        linesOf_append hbody, ih hitems]

/-! ## Bars -/

@[simp] lemma bars_nil : bars [] = 0 := rfl

@[simp] lemma bars_bar (rest : List Char) : bars ('|' :: rest) = bars rest + 1 := rfl

@[simp] lemma bars_escaped (c : Char) (rest : List Char) : bars ('\\' :: c :: rest) = bars rest := rfl

/-- A character that is neither a bar nor a backslash does not matter. -/
lemma bars_cons (hbar : c ≠ '|') (hslash : c ≠ '\\') (rest : List Char) :
    bars (c :: rest) = bars rest := by
  rw [bars.eq_def]
  split
  · next heq => cases heq
  · next heq => exact absurd (List.cons.inj heq).1 hslash
  · next heq =>
    obtain ⟨rfl, rfl⟩ := List.cons.inj heq
    exact if_neg hbar

/-- Neither do many of them. -/
lemma bars_append (h : ∀ c ∈ text, c ≠ '|' ∧ c ≠ '\\') (rest : List Char) :
    bars (text ++ rest) = bars rest := by
  induction text with
  | nil => rfl
  | cons c text ih =>
    obtain ⟨⟨hbar, hslash⟩, htext⟩ := List.forall_mem_cons.1 h
    rw [List.cons_append, bars_cons hbar hslash, ih htext]

/-- **Bars are counted one text after the other**, if a character stands in between that a backslash at
the end of the first text does not change. -/
lemma bars_append_cons (hbar : c ≠ '|') (hslash : c ≠ '\\') (text rest : List Char) :
    bars (text ++ c :: rest) = bars text + bars rest := by
  fun_induction bars text with
  | case1 => rw [List.nil_append, bars_cons hbar hslash, Nat.zero_add]
  | case2 d text ih => exact ih
  | case3 text _ ih =>
    rw [List.cons_append, bars_bar, ih, Nat.add_right_comm]
  | case4 d text hnot hd ih =>
    by_cases hescapes : d = '\\'
    · subst hescapes
      cases text with
      | nil => exact (Nat.zero_add _).symm
      | cons e text => exact absurd rfl (hnot e text rfl)
    · rw [List.cons_append, bars_cons hd hescapes, ih]

/-! ## Texts without backslashes at their ends -/

/-- A text that does not end a line and ends a number of cells, whatever follows. -/
structure Inline (text : List Char) (n : Nat) : Prop where
  /-- It does not end a line. -/
  oneLine : OneLine text
  /-- It ends so many cells. -/
  bars_append : ∀ rest, bars (text ++ rest) = n + bars rest

/-- What is put behind such a text ends the cells that it ends by itself. -/
lemma Inline.append {more : List Char} {n m : Nat} (h : Inline text n) (hmore : Inline more m) :
    Inline (text ++ more) (n + m) where
  oneLine := oneLine_append.2 ⟨h.oneLine, hmore.oneLine⟩
  bars_append rest := by rw [List.append_assoc, h.bars_append, hmore.bars_append, Nat.add_assoc]

/-- Such a text ends as many cells as it has bars. -/
lemma Inline.bars_eq {n : Nat} (h : Inline text n) : bars text = n := by
  have hbars := h.bars_append []
  rwa [List.append_nil] at hbars

/-- A character that ends neither a line nor a cell and is no backslash. -/
def Plain (c : Char) : Prop :=
  32 ≤ c.toNat ∧ c ≠ '|' ∧ c ≠ '\\'

instance (c : Char) : Decidable (Plain c) :=
  inferInstanceAs (Decidable (32 ≤ c.toNat ∧ c ≠ '|' ∧ c ≠ '\\'))

/-- A text of such characters ends no cell. -/
lemma inline_of_plain (h : ∀ c ∈ text, Plain c) : Inline text 0 where
  oneLine := oneLine_of_printable fun c hc => (h c hc).1
  bars_append rest := (bars_append (fun c hc => (h c hc).2) rest).trans (Nat.zero_add _).symm

/-- Neither does a word that can be checked letter by letter. -/
lemma inline_word (h : text.all Plain = true) : Inline text 0 :=
  inline_of_plain fun c hc => of_decide_eq_true (List.all_eq_true.1 h c hc)

/-- Such a character in front of a text ends no cell. -/
lemma Inline.cons {n : Nat} (h : Inline text n) (hc : Plain c) : Inline (c :: text) n where
  oneLine :=
    have hfirst := oneLine_of_printable fun d hd => List.mem_singleton.1 hd ▸ hc.1
    oneLine_append.2 ⟨hfirst, h.oneLine⟩
  bars_append rest := by rw [List.cons_append, bars_cons hc.2.1 hc.2.2, h.bars_append]

/-- A digit is such a character. -/
lemma plain_of_isDigit (h : Json.isDigit c = true) : Plain c := by
  simp only [Json.isDigit, Bool.and_eq_true, decide_eq_true_eq, Char.le_def] at h
  refine ⟨le_trans (by decide) h.1, ?_, ?_⟩ <;>
  · rintro rfl
    exact absurd h.2 (by decide)

end Document

namespace Json

open Document (Inline Plain inline_of_plain inline_word plain_of_isDigit)

mutual

/-- How many bars there are in the strings and keys of a document. -/
def bars : Json → Nat
  | .text s => s.toList.count '|'
  | .array items => barsOfItems items
  | .object fields => barsOfFields fields
  | .null | .bool _ | .integer _ | .double _ => 0

/-- How many there are in a list of documents. -/
def barsOfItems : List Json → Nat
  | [] => 0
  | item :: rest => bars item + barsOfItems rest

/-- How many there are in a list of fields. -/
def barsOfFields : List (String × Json) → Nat
  | [] => 0
  | (key, value) :: rest => key.toList.count '|' + bars value + barsOfFields rest

end

/-! ## Compact documents -/

/-- A whole number ends no cell. -/
lemma inline_integerText (i : Int) : Inline (integerText i) 0 := by
  have hdigits : ∀ c ∈ Nat.toDigits 10 i.natAbs, Plain c := fun c hc =>
    plain_of_isDigit (isDigit_of_mem_toDigits hc)
  refine inline_of_plain ?_
  unfold integerText
  split
  · exact List.forall_mem_cons.2 ⟨by decide, hdigits⟩
  · exact hdigits

/-- A double precision number ends no cell. -/
lemma inline_double (x : Binary64) : Inline x.text 0 := by
  obtain ⟨body, ⟨whole, fraction, power, rfl, -, hwhole, hfraction, hpower, -⟩, htext⟩ :=
    decimals_text x
  have hplain : ∀ c ∈ fraction, Plain c := by
    rcases hfraction with rfl | ⟨digits, hdigits, rfl⟩
    · exact fun c hc => nomatch hc
    · exact List.forall_mem_cons.2 ⟨by decide, fun c hc => plain_of_isDigit (hdigits c hc)⟩
  have hscale : ∀ c ∈ power, Plain c := by
    rcases hpower with rfl | ⟨sign, digits, hsign, -, hdigits, rfl⟩
    · exact fun c hc => nomatch hc
    · refine List.forall_mem_cons.2 ⟨by decide, List.forall_mem_cons.2 ⟨?_, fun c hc =>
        plain_of_isDigit (hdigits c hc)⟩⟩
      rcases hsign with rfl | rfl <;> decide
  have hbody : Inline (whole ++ (fraction ++ power)) 0 :=
    (inline_of_plain fun c hc => plain_of_isDigit (hwhole c hc)).append
      ((inline_of_plain hplain).append (inline_of_plain hscale))
  rcases htext with htext | htext
  · rwa [htext]
  · rw [htext]
    exact hbody.cons (by decide)

set_option maxRecDepth 1000 in
/-- The escape of a control character ends neither a line nor a cell. -/
lemma inline_control {n : Nat} (h : n < 32) : Inline (escape (Char.ofNat n)) 0 := by
  interval_cases n <;> exact ⟨by decide, fun rest => (Nat.zero_add _).symm⟩

/-- A character of a string ends a cell if it is a bar, and it never ends a line. -/
lemma inline_escape (c : Char) : Inline (escape c) ([c].count '|') := by
  by_cases hquote : c = '"'
  · subst hquote
    exact ⟨by decide, fun rest => (Nat.zero_add _).symm⟩
  by_cases hslash : c = '\\'
  · subst hslash
    exact ⟨by decide, fun rest => (Nat.zero_add _).symm⟩
  by_cases hbar : c = '|'
  · subst hbar
    exact ⟨by decide, fun rest => Nat.add_comm _ _⟩
  have hcount : [c].count '|' = 0 := by simp [hbar]
  rw [hcount]
  by_cases hcontrol : c.toNat < 32
  · rw [← Char.ofNat_toNat c]
    exact inline_control hcontrol
  · have hself : escape c = [c] := by simp [escape, hquote, hslash, hcontrol]
    rw [hself]
    refine inline_of_plain fun d hd => ?_
    rw [List.mem_singleton.1 hd]
    exact ⟨by omega, hbar, hslash⟩

/-- A string in its quotes ends a cell with each of its bars, and it never ends a line. -/
lemma inline_quote (s : String) : Inline (quote s) (s.toList.count '|') := by
  have hcharacters : Inline (s.toList.flatMap escape) (s.toList.count '|') := by
    induction s.toList with
    | nil => exact inline_of_plain fun c hc => nomatch hc
    | cons c rest ih =>
      rw [List.flatMap_cons, ← List.singleton_append, List.count_append]
      exact (inline_escape c).append ih
  exact (hcharacters.cons (by decide)).append (inline_word rfl)

mutual

/-- **A compact document ends no line**, and it ends as many cells as there are bars in its strings and
keys. -/
lemma inline_compact : (document : Json) → Inline document.compact document.bars
  | .null | .bool true | .bool false => inline_word rfl
  | .integer i => inline_integerText i
  | .double x => inline_double x
  | .text s => inline_quote s
  | .array [] => inline_word rfl
  | .array (item :: rest) =>
    ((inline_compact item).cons (by decide)).append (inline_compactItems rest)
  | .object [] => inline_word rfl
  | .object ((key, value) :: rest) =>
    (((inline_quote key).cons (by decide)).append ((inline_compact value).cons (by decide))).append
      (inline_compactFields rest)

/-- What stands behind the first item of a list ends no line, and cells with its bars only. -/
lemma inline_compactItems : (items : List Json) → Inline (compactItems items) (barsOfItems items)
  | [] => inline_word rfl
  | item :: rest => ((inline_compact item).cons (by decide)).append (inline_compactItems rest)

/-- What stands behind the first field of an object ends no line, and cells with its bars only. -/
lemma inline_compactFields :
    (fields : List (String × Json)) → Inline (compactFields fields) (barsOfFields fields)
  | [] => inline_word rfl
  | (key, value) :: rest =>
    (((inline_quote key).cons (by decide)).append ((inline_compact value).cons (by decide))).append
      (inline_compactFields rest)

end

end Json

end LayeredProfiles
