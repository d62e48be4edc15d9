import Mathlib.Tactic.Lemma
import LayeredProfiles.Json.Reader
import LayeredProfiles.Json.Writer

set_option autoImplicit false

/-!
# Numbers are read back

A whole number is written by its digits, and as long as it fits 64 bits these are read back as the
number. A double precision number is written with a point or an exponent. Whatever is read back from
that is a double precision number again, and all characters of the number are read.

## Main definitions

* `Json.Ended` — what may follow a number.
* `Json.Decimals` — what a double precision number looks like.

## Main results

* `Json.readNumber_toDigits` — the digits of a whole number are read back.
* `Json.decimals_decimalText` — double precision numbers are written as they have to look.
* `Json.yieldsDouble_readNumber` — what is read back from that, whatever follows it.
-/

namespace LayeredProfiles.Json

/-- A number ends where nothing follows that could belong to it. -/
def Ended (rest : List Char) : Prop :=
  ∀ c ∈ rest.head?, isDigit c = false ∧ c ≠ '.' ∧ c ≠ 'e' ∧ c ≠ 'E'

/-- A character follows that cannot belong to a number. -/
lemma ended_cons {c : Char} (h : isDigit c = false ∧ c ≠ '.' ∧ c ≠ 'e' ∧ c ≠ 'E')
    (rest : List Char) : Ended (c :: rest) := by
  simpa [Ended] using h

/-! ## Whole numbers -/

/-- A digit in base ten is a digit. -/
lemma isDigit_of_mem_toDigits {n : Nat} {c : Char} (h : c ∈ Nat.toDigits 10 n) :
    isDigit c = true := by
  have hdigit := Char.isDigit_iff_toNat.1 (Nat.isDigit_of_mem_toDigits (by decide) (by decide) h)
  simp only [isDigit, Bool.and_eq_true, decide_eq_true_eq, Char.le_def]
  exact hdigit

/-- Only zero starts with a zero. -/
lemma eq_zero_of_toDigits {n : Nat} {more : List Char} (h : Nat.toDigits 10 n = '0' :: more) :
    n = 0 := by
  induction n using Nat.strongRecOn generalizing more with
  | ind n ih =>
    rw [Nat.toDigits_eq_if (by decide)] at h
    split at h
    · next hlt =>
      have hdigit : ∀ n < 10, n.digitChar = '0' → n = 0 := by decide
      exact hdigit n hlt (List.cons.inj h).1
    · next hge =>
      cases hfirst : Nat.toDigits 10 (n / 10) with
      | nil => exact absurd hfirst Nat.toDigits_ne_nil
      | cons c rest =>
        rw [hfirst] at h
        have hc : c = '0' := (List.cons.inj h).1
        have hzero := ih (n / 10) (by omega) (hc ▸ hfirst)
        omega

/-- Digits do not make a number smaller. -/
lemma le_ofDigitChars (digits : List Char) (n : Nat) : n ≤ Nat.ofDigitChars 10 digits n := by
  induction digits generalizing n with
  | nil => simp
  | cons c rest ih =>
    rw [Nat.ofDigitChars_cons]
    exact Nat.le_trans (by omega) (ih _)

/-- All digits of a number that fits are taken. -/
lemma takeDigits_append {digits rest : List Char} (hdigits : ∀ c ∈ digits, isDigit c = true)
    (hrest : ∀ c ∈ rest.head?, isDigit c = false) {number : Nat}
    (hfits : Nat.ofDigitChars 10 digits number ≤ maxWord) (taken : Nat) :
    takeDigits number taken (digits ++ rest) =
      (Nat.ofDigitChars 10 digits number, taken + digits.length, rest) := by
  induction digits generalizing number taken with
  | nil =>
    cases rest with
    | nil => simp [takeDigits]
    | cons c rest =>
      have hc := hrest c rfl
      simp [takeDigits, hc]
  | cons c more ih =>
    rw [Nat.ofDigitChars_cons, Nat.mul_comm] at hfits ⊢
    have hnext : number * 10 + digitValue c ≤ maxWord :=
      Nat.le_trans (le_ofDigitChars more _) hfits
    have hc := hdigits c List.mem_cons_self
    rw [List.cons_append, takeDigits, if_pos (by simp [hc, hnext])]
    have hmore := ih (fun d hd => hdigits d (List.mem_cons_of_mem _ hd)) hfits (taken + 1)
    rw [List.length_cons, Nat.add_comm more.length, ← Nat.add_assoc]
    exact hmore

/-- Behind digits that are not followed by a point or an exponent, the number is complete. -/
lemma readAfterWhole_of_ended {rest : List Char} (h : Ended rest) (negative : Bool) (digits : Nat) :
    readAfterWhole negative digits rest = wholeNumber negative digits rest := by
  cases rest with
  | nil => rfl
  | cons c rest =>
    obtain ⟨hdigit, hpoint, hlower, hupper⟩ := h c rfl
    simp [readAfterWhole, hdigit, hpoint, hlower, hupper]

/-- The digits of a whole number that fits 64 bits are read back. -/
lemma readNumber_toDigits {n : Nat} (hfits : n ≤ maxWord) {rest : List Char} (hrest : Ended rest)
    (negative : Bool) :
    readNumber negative (Nat.toDigits 10 n ++ rest) = wholeNumber negative n rest := by
  have hend : ∀ c ∈ rest.head?, isDigit c = false := fun c hc => (hrest c hc).1
  have hsmall : Nat.ofDigitChars 10 (Nat.toDigits 10 n) 0 ≤ maxWord := by
    rwa [Nat.ofDigitChars_ten_toDigits]
  have htaken := takeDigits_append (fun c => isDigit_of_mem_toDigits (n := n)) hend hsmall 0
  rw [Nat.ofDigitChars_ten_toDigits] at htaken
  cases hdigits : Nat.toDigits 10 n with
  | nil => exact absurd hdigits Nat.toDigits_ne_nil
  | cons c more =>
    rw [hdigits, List.cons_append] at htaken
    have hc : isDigit c = true := isDigit_of_mem_toDigits (n := n) (by simp [hdigits])
    rw [List.cons_append, readNumber.eq_def]
    dsimp only
    by_cases hzero : c = '0'
    · subst hzero
      obtain rfl := eq_zero_of_toDigits hdigits
      obtain rfl : more = [] := by simpa using hdigits.symm
      rw [if_pos rfl, List.nil_append, ← readAfterWhole_of_ended hrest]
      cases rest with
      | nil => rfl
      | cons d rest => simp [hend d rfl]
    · rw [if_neg hzero, if_pos hc, htaken]
      exact readAfterWhole_of_ended hrest negative n

/-! ## Double precision numbers -/

/-- Whatever ends the number, the same double precision number is read and all of that remains, or
reading fails. -/
def YieldsDouble (read : List Char → Except Fault (Json × List Char)) : Prop :=
  (∃ x, ∀ rest, Ended rest → read rest = .ok (.double x, rest)) ∨
    ∀ rest, Ended rest → ∃ fault, read rest = .error fault

/-- A point and the digits behind it, or nothing. -/
def Fraction (text : List Char) : Prop :=
  text = [] ∨ ∃ digits, (∀ c ∈ digits, isDigit c = true) ∧ text = '.' :: digits

/-- An exponent with its sign, or nothing. -/
def Power (text : List Char) : Prop :=
  text = [] ∨ ∃ sign digits, (sign = '+' ∨ sign = '-') ∧ digits ≠ [] ∧
    (∀ c ∈ digits, isDigit c = true) ∧ text = 'e' :: sign :: digits

/-- What a double precision number looks like: digits with a point or an exponent behind them. -/
def Decimals (text : List Char) : Prop :=
  ∃ whole fraction power, text = whole ++ (fraction ++ power) ∧ whole ≠ [] ∧
    (∀ c ∈ whole, isDigit c = true) ∧ Fraction fraction ∧ Power power ∧ fraction ++ power ≠ []

section

variable {read other : List Char → Except Fault (Json × List Char)}

/-- Reading always fails. -/
lemma yieldsDouble_of_error (h : ∀ rest, Ended rest → ∃ fault, read rest = .error fault) :
    YieldsDouble read :=
  .inr h

/-- Only what may end a number has to be looked at. -/
lemma YieldsDouble.congr (h : YieldsDouble other) (heq : ∀ rest, Ended rest → read rest = other rest) :
    YieldsDouble read := by
  obtain ⟨x, hread⟩ | hfault := h
  · exact .inl ⟨x, fun rest hrest => (heq rest hrest).trans (hread rest hrest)⟩
  · exact .inr fun rest hrest => heq rest hrest ▸ hfault rest hrest

end

/-- A number whose digits and exponent are known is a double precision number. -/
lemma yieldsDouble_finishDouble (negative : Bool) (digits : Nat) (exponent : Int) :
    YieldsDouble (finishDouble negative digits exponent) := by
  unfold finishDouble
  cases Binary64.ofDecimal? negative digits exponent with
  | some x => exact .inl ⟨x, fun rest _ => rfl⟩
  | none => exact yieldsDouble_of_error fun rest _ => ⟨_, rfl⟩

/-- Digits are passed over up to what ends the number. -/
lemma dropWhile_digits {digits rest : List Char} (hdigits : ∀ c ∈ digits, isDigit c = true)
    (hrest : ∀ c ∈ rest.head?, isDigit c = false) :
    (digits ++ rest).dropWhile isDigit = rest := by
  rw [List.dropWhile_append_of_pos hdigits]
  cases rest with
  | nil => rfl
  | cons c rest => simp [hrest c rfl]

/-- Digits are taken up to what ends the number. -/
lemma takeWhile_digits {digits rest : List Char} (hdigits : ∀ c ∈ digits, isDigit c = true)
    (hrest : ∀ c ∈ rest.head?, isDigit c = false) :
    (digits ++ rest).takeWhile isDigit = digits := by
  rw [List.takeWhile_append_of_pos hdigits]
  cases rest with
  | nil => simp
  | cons c rest => simp [hrest c rfl]

/-- An exponent ends where the number does. -/
lemma readExponentDigits_of_ended (negative : Bool) (digits : Nat) (before : Int) (minus : Bool)
    (exponent : Nat) {rest : List Char} (hrest : Ended rest) :
    readExponentDigits negative digits before minus exponent rest =
      finishDouble negative digits (before + signed minus exponent) rest := by
  cases rest with
  | nil => rfl
  | cons c rest => rw [readExponentDigits, if_neg (by simp [(hrest c rfl).1])]

/-- Where the number ends there is no exponent. -/
lemma readScale_of_ended (negative : Bool) (digits : Nat) (exponent : Int) {rest : List Char}
    (hrest : Ended rest) :
    readScale negative digits exponent rest = finishDouble negative digits exponent rest := by
  cases rest with
  | nil => rfl
  | cons c rest =>
    obtain ⟨-, -, hlower, hupper⟩ := hrest c rfl
    rw [readScale, if_neg (by simp [hlower, hupper])]

/-- The digits of an exponent are read to their end. -/
lemma yieldsDouble_readExponentDigits (negative : Bool) (digits : Nat) (before : Int) (minus : Bool)
    (exponent : Nat) {more : List Char} (hmore : ∀ c ∈ more, isDigit c = true) :
    YieldsDouble fun rest =>
      readExponentDigits negative digits before minus exponent (more ++ rest) := by
  induction more generalizing exponent with
  | nil =>
    exact (yieldsDouble_finishDouble _ _ _).congr fun rest hrest =>
      readExponentDigits_of_ended negative digits before minus exponent hrest
  | cons c more ih =>
    have htail : ∀ d ∈ more, isDigit d = true := fun d hd => hmore d (List.mem_cons_of_mem _ hd)
    simp only [List.cons_append, readExponentDigits, if_pos (hmore c List.mem_cons_self)]
    split
    · exact ih _ htail
    · split
      · exact yieldsDouble_of_error fun rest _ => ⟨_, rfl⟩
      · refine .inl ⟨Binary64.zero negative, fun rest hrest => ?_⟩
        dsimp only
        rw [dropWhile_digits htail fun d hd => (hrest d hd).1]

/-- An exponent is read to its end. -/
lemma yieldsDouble_readScale (negative : Bool) (digits : Nat) (exponent : Int)
    {power : List Char} (hpower : Power power) :
    YieldsDouble fun rest => readScale negative digits exponent (power ++ rest) := by
  obtain rfl | ⟨sign, more, hsign, hne, hmore, rfl⟩ := hpower
  · exact (yieldsDouble_finishDouble _ _ _).congr fun rest hrest =>
      readScale_of_ended negative digits exponent hrest
  · obtain ⟨d, tail, rfl⟩ := List.exists_cons_of_ne_nil hne
    have hd := hmore d List.mem_cons_self
    have htail := yieldsDouble_readExponentDigits negative digits exponent (sign == '-')
      (digitValue d) fun c hc => hmore c (List.mem_cons_of_mem _ hc)
    rcases hsign with rfl | rfl <;> simpa [readScale, readExponent, hd] using htail

/-- What follows digits is no digit. -/
lemma head_power {power rest : List Char} (hpower : Power power) (hrest : Ended rest) :
    ∀ c ∈ (power ++ rest).head?, isDigit c = false := by
  rcases hpower with rfl | ⟨sign, digits, -, -, -, rfl⟩
  · exact fun c hc => (hrest c hc).1
  · simp [isDigit]

/-- What follows the digits before a point is no digit. -/
lemma head_fraction {fraction power rest : List Char} (hfraction : Fraction fraction)
    (hpower : Power power) (hrest : Ended rest) :
    ∀ c ∈ (fraction ++ (power ++ rest)).head?, isDigit c = false := by
  rcases hfraction with rfl | ⟨digits, -, rfl⟩
  · have hhead := head_power hpower hrest
    exact hhead
  · simp [isDigit]

/-- Taking digits leaves some of them, and what follows. -/
lemma exists_takeDigits {digits : List Char} (hdigits : ∀ c ∈ digits, isDigit c = true)
    (number taken : Nat) :
    ∃ n t left, (∀ c ∈ left, isDigit c = true) ∧
      ∀ rest : List Char, (∀ c ∈ rest.head?, isDigit c = false) →
        takeDigits number taken (digits ++ rest) = (n, t, left ++ rest) := by
  induction digits generalizing number taken with
  | nil =>
    refine ⟨number, taken, [], by simp, fun rest hrest => ?_⟩
    cases rest with
    | nil => rfl
    | cons c rest => simp [takeDigits, hrest c rfl]
  | cons c more ih =>
    simp only [List.cons_append, takeDigits]
    split
    · exact ih (fun d hd => hdigits d (List.mem_cons_of_mem _ hd)) _ _
    · exact ⟨number, taken, c :: more, hdigits, fun rest _ => rfl⟩

/-- There has to be a digit behind a point. -/
lemma readFraction_eq_error (negative : Bool) {digits n : Nat} (before : Int)
    {input rest : List Char} (htake : takeDigits digits 0 input = (n, 0, rest))
    (hrest : ∀ c ∈ rest.head?, isDigit c = false) :
    ∃ fault, readFraction negative digits before input = .error fault := by
  cases rest with
  | nil => simp [readFraction, htake, fail]
  | cons c rest => simp [readFraction, htake, hrest c rfl, failAtNext]

/-- Behind a point, digits that do not fit are skipped. -/
lemma readFraction_skip (negative : Bool) {digits n t : Nat} (before : Int)
    {input skipped rest : List Char} (htake : takeDigits digits 0 input = (n, t, skipped ++ rest))
    (hskipped : ∀ c ∈ skipped, isDigit c = true) (hrest : ∀ c ∈ rest.head?, isDigit c = false)
    (hsome : t = 0 → skipped ≠ []) :
    readFraction negative digits before input = readScale negative n (before - t) rest := by
  simp only [readFraction, htake]
  cases skipped with
  | nil =>
    have ht : t ≠ 0 := fun h => hsome h rfl
    cases rest with
    | nil => simp [ht]
    | cons c rest => simp [ht, hrest c rfl]
  | cons c skipped =>
    simp only [List.cons_append, if_pos (hskipped c List.mem_cons_self)]
    rw [← List.cons_append, dropWhile_digits hskipped hrest]

/-- The digits after a point are read to their end, with what follows them. -/
lemma yieldsDouble_readFraction (negative : Bool) (digits : Nat) (before : Int)
    {more power : List Char} (hmore : ∀ c ∈ more, isDigit c = true) (hpower : Power power) :
    YieldsDouble fun rest => readFraction negative digits before (more ++ (power ++ rest)) := by
  obtain ⟨n, t, skipped, hskipped, htake⟩ := exists_takeDigits hmore digits 0
  by_cases hnone : t = 0 ∧ skipped = []
  · obtain ⟨rfl, rfl⟩ := hnone
    refine yieldsDouble_of_error fun rest hrest => ?_
    have hhead := head_power hpower hrest
    exact readFraction_eq_error negative before (htake _ hhead) hhead
  · refine (yieldsDouble_readScale negative n (before - t) hpower).congr fun rest hrest => ?_
    have hhead := head_power hpower hrest
    exact readFraction_skip negative before (htake _ hhead) hskipped hhead fun h h' => hnone ⟨h, h'⟩

/-- Digits that do not fit are skipped, and count as a power of ten for what stands behind them. -/
lemma readAfterWhole_skip (negative : Bool) (digits : Nat) {skipped after : List Char}
    (hskipped : ∀ c ∈ skipped, isDigit c = true) (hne : skipped ≠ [])
    (hafter : ∀ c ∈ after.head?, isDigit c = false) :
    (∀ rest, after = '.' :: rest → readAfterWhole negative digits (skipped ++ after) =
      readFraction negative digits skipped.length rest) ∧
    (after.head? ≠ some '.' → readAfterWhole negative digits (skipped ++ after) =
      readScale negative digits skipped.length after) := by
  obtain ⟨c, left, rfl⟩ := List.exists_cons_of_ne_nil hne
  have hc := hskipped c List.mem_cons_self
  have hnumeric : c ≠ '.' ∧ c ≠ 'e' ∧ c ≠ 'E' := by
    refine ⟨?_, ?_, ?_⟩ <;> rintro rfl <;> revert hc <;> decide
  have hopen := readAfterWhole.eq_def negative digits (c :: left ++ after)
  dsimp only [List.cons_append] at hopen
  rw [if_neg hnumeric.1, if_neg (by simp [hnumeric]), if_pos hc, ← List.cons_append,
    dropWhile_digits hskipped hafter, takeWhile_digits hskipped hafter] at hopen
  constructor
  · rintro rest rfl
    exact hopen
  · intro hpoint
    refine hopen.trans ?_
    split
    · exact absurd rfl hpoint
    · rfl

/-- What follows the digits before a point is read to its end. -/
lemma yieldsDouble_readAfterWhole (negative : Bool) (digits : Nat)
    {left fraction power : List Char} (hleft : ∀ c ∈ left, isDigit c = true)
    (hfraction : Fraction fraction) (hpower : Power power) (hne : fraction ++ power ≠ []) :
    YieldsDouble fun rest =>
      readAfterWhole negative digits (left ++ (fraction ++ (power ++ rest))) := by
  by_cases hnil : left = []
  · subst hnil
    rcases hfraction with rfl | ⟨more, hmore, rfl⟩
    · have hscale := yieldsDouble_readScale negative digits 0 hpower
      rcases hpower with rfl | ⟨sign, more, hsign, hmore, hdigits, rfl⟩
      · exact absurd rfl hne
      · simpa [readAfterWhole, readScale] using hscale
    · simpa [readAfterWhole] using yieldsDouble_readFraction negative digits 0 hmore hpower
  · have hskip := fun {rest : List Char} (hrest : Ended rest) =>
      readAfterWhole_skip negative digits hleft hnil (head_fraction hfraction hpower hrest)
    rcases hfraction with rfl | ⟨more, hmore, rfl⟩
    · refine (yieldsDouble_readScale negative digits left.length hpower).congr fun rest hrest =>
        (hskip hrest).2 ?_
      rcases hpower with rfl | ⟨sign, more, -, -, -, rfl⟩
      · exact absurd rfl hne
      · simp
    · exact (yieldsDouble_readFraction negative digits left.length hmore hpower).congr
        fun rest hrest => (hskip hrest).1 _ rfl

/-- **A double precision number is read to its end**, and which one is read does not depend on what
follows it. -/
lemma yieldsDouble_readNumber (negative : Bool) {text : List Char} (h : Decimals text) :
    YieldsDouble fun rest => readNumber negative (text ++ rest) := by
  obtain ⟨whole, fraction, power, rfl, hwhole, hdigits, hfraction, hpower, hne⟩ := h
  have hafter : ∀ (digits : Nat) {left : List Char}, (∀ c ∈ left, isDigit c = true) →
      YieldsDouble fun rest =>
        readAfterWhole negative digits (left ++ (fraction ++ (power ++ rest))) :=
    fun digits _ hleft => yieldsDouble_readAfterWhole negative digits hleft hfraction hpower hne
  obtain ⟨c, more, rfl⟩ := List.exists_cons_of_ne_nil hwhole
  have hmore : ∀ d ∈ more, isDigit d = true := fun d hd => hdigits d (List.mem_cons_of_mem _ hd)
  simp only [List.append_assoc]
  by_cases hzero : c = '0'
  · subst hzero
    cases more with
    | nil =>
      refine (hafter 0 hmore).congr fun rest hrest => ?_
      have hhead := head_fraction hfraction hpower hrest
      rw [List.cons_append, List.nil_append, readNumber.eq_def]
      dsimp only
      rw [if_pos rfl]
      cases htail : fraction ++ (power ++ rest) with
      | nil => rfl
      | cons d tail =>
        rw [htail] at hhead
        dsimp only
        rw [if_neg (by simp [hhead d rfl])]
    -- Nothing but a point or an exponent stands behind a leading zero.
    | cons d more =>
      refine yieldsDouble_of_error fun rest _ => ?_
      rw [List.cons_append, List.cons_append, readNumber.eq_def]
      dsimp only
      rw [if_pos rfl, if_pos (hmore d List.mem_cons_self)]
      exact ⟨_, rfl⟩
  · obtain ⟨n, t, left, hleft, htake⟩ := exists_takeDigits hdigits 0 0
    refine (hafter n hleft).congr fun rest hrest => ?_
    have hhead := head_fraction hfraction hpower hrest
    rw [List.cons_append, readNumber.eq_def]
    dsimp only
    rw [if_neg hzero, if_pos (hdigits c List.mem_cons_self), ← List.cons_append, htake _ hhead]

/-! ## How double precision numbers are written -/

/-- A double precision number is written with a point or an exponent behind digits. -/
lemma decimals_decimalText (d : Decimal) : Decimals (Binary64.decimalText d) := by
  have hpowerDigits : ∀ n, ∀ c ∈ Binary64.decimalDigits n, isDigit c = true := fun n c =>
    isDigit_of_mem_toDigits
  have hpowerSome : ∀ n, Binary64.decimalDigits n ≠ [] := fun n => Nat.toDigits_ne_nil
  have hzeros : ∀ n, ∀ c ∈ List.replicate n '0', isDigit c = true := by
    intro n c hc
    rw [List.eq_of_mem_replicate hc]
    rfl
  unfold Binary64.decimalText
  generalize hds : Binary64.decimalDigits d.digits = ds
  have hdigits : ∀ c ∈ ds, isDigit c = true := hds ▸ hpowerDigits _
  have hne : ds ≠ [] := hds ▸ hpowerSome _
  dsimp only
  split
  · split
    -- All digits stand before the point.
    · refine ⟨ds ++ List.replicate d.exponent.natAbs '0', ['.', '0'], [], by simp, by simp [hne], ?_,
        .inr ⟨['0'], hzeros 1, rfl⟩, .inl rfl, by simp⟩
      intro c hc
      exact (List.mem_append.1 hc).elim (hdigits c) (hzeros _ c)
    · split
      -- The point stands between the digits.
      · refine ⟨ds.take (ds.length + d.exponent).toNat, '.' :: ds.drop (ds.length + d.exponent).toNat,
          [], by simp, ?_, fun c hc => hdigits c (List.mem_of_mem_take hc),
          .inr ⟨_, fun c hc => hdigits c (List.mem_of_mem_drop hc), rfl⟩, .inl rfl, by simp⟩
        simp only [ne_eq, List.take_eq_nil_iff, hne, or_false]
        omega
      -- All digits stand behind the point.
      · refine ⟨['0'], '.' :: (List.replicate (ds.length + d.exponent).natAbs '0' ++ ds), [], by simp,
          by simp, hzeros 1, .inr ⟨_, fun c hc => ?_, rfl⟩, .inl rfl, by simp⟩
        exact (List.mem_append.1 hc).elim (hzeros _ c) (hdigits c)
  · refine ⟨ds.take 1, _, _, List.append_assoc _ _ _, by simp [hne],
      fun c hc => hdigits c (List.mem_of_mem_take hc), ?_,
      .inr ⟨_, _, ?_, hpowerSome _, hpowerDigits _, rfl⟩, by simp⟩
    · split
      · exact .inl rfl
      · exact .inr ⟨_, fun c hc => hdigits c (List.mem_of_mem_drop hc), rfl⟩
    · split
      · exact .inr rfl
      · exact .inl rfl

end LayeredProfiles.Json
