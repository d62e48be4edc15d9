import Mathlib.Data.List.Infix
import Mathlib.Logic.Relation
import LayeredProfiles.Pattern.Basic

set_option autoImplicit false

/-!
# What patterns describe

What may remain of a text behind a stretch that a pattern describes is given by rules, one or two
for each kind of pattern. Gathering the remains round by round finds exactly these: every remain is
the end of the text, so a repetition that goes on finding new ones runs out of them before it runs
out of rounds.

## Main definitions

* `Pattern.Leaves` — the rules.

## Main results

* `Pattern.mem_reach_iff` — a repetition finds whatever can be reached.
* `Pattern.mem_rests_iff` — the remains are those that the rules give.
* `Pattern.isFoundIn_iff` — where a pattern is found.
-/

namespace LayeredProfiles.Pattern

/-- Behind a stretch at the front of a text that the pattern describes, so much may remain. The
whole text has so many characters. -/
inductive Leaves (total : Nat) : Pattern → (text rest : List Char) → Prop where
  /-- Nothing is taken away. -/
  | empty (text : List Char) : Leaves total .empty text text
  /-- One character of a set is taken away. -/
  | one {letters : Letters} {c : Char} (text : List Char) (h : letters.has c = true) :
    Leaves total (.one letters) (c :: text) text
  /-- At the start all of the text remains. -/
  | atStart {text : List Char} (h : text.length = total) : Leaves total .atStart text text
  /-- At the end nothing remains. -/
  | atEnd : Leaves total .atEnd [] []
  /-- One pattern after another. -/
  | seq {first second : Pattern} {text middle rest : List Char}
    (hfirst : Leaves total first text middle) (hsecond : Leaves total second middle rest) :
    Leaves total (.seq first second) text rest
  /-- The first of two patterns. -/
  | first {first : Pattern} (second : Pattern) {text rest : List Char}
    (h : Leaves total first text rest) : Leaves total (.either first second) text rest
  /-- The second of two patterns. -/
  | second (first : Pattern) {second : Pattern} {text rest : List Char}
    (h : Leaves total second text rest) : Leaves total (.either first second) text rest
  /-- A pattern no time at all. -/
  | done (each : Pattern) (text : List Char) : Leaves total (.star each) text text
  /-- A pattern once and then any number of times. -/
  | again {each : Pattern} {text middle rest : List Char}
    (honce : Leaves total each text middle) (hmore : Leaves total (.star each) middle rest) :
    Leaves total (.star each) text rest

variable {total : Nat}

/-- What remains is the end of the text. -/
lemma Leaves.suffix {pattern : Pattern} {text rest : List Char}
    (h : Leaves total pattern text rest) : rest <:+ text := by
  induction h with
  | empty | atStart | atEnd | done => exact List.suffix_rfl
  | one text => exact List.suffix_cons _ text
  | seq _ _ ihfirst ihsecond => exact ihsecond.trans ihfirst
  | first _ _ ih | second _ _ ih => exact ih
  | again _ _ ihonce ihmore => exact ihmore.trans ihonce

/-! ## Repetitions -/

section Reach

variable {step : List Char → List (List Char)} {text : List Char}

/-- The ends of a text that have not been seen. -/
def unseen (text : List Char) (seen : List (List Char)) : List (List Char) :=
  text.tails.filter fun rest => !seen.contains rest

/-- The remains that turn up in a round are new. -/
lemma mem_next_iff {seen newest : List (List Char)} {rest : List Char} :
    rest ∈ ((newest.flatMap step).eraseDups).filter (fun rest => !seen.contains rest) ↔
      (∃ a ∈ newest, rest ∈ step a) ∧ rest ∉ seen := by
  simp [List.mem_filter, List.mem_eraseDups, List.mem_flatMap]

/-- Whatever turns up is not unseen any more. -/
lemma length_unseen_lt {seen next : List (List Char)} (hne : next ≠ [])
    (hsuffix : ∀ rest ∈ next, rest <:+ text) (hnew : ∀ rest ∈ next, rest ∉ seen) :
    (unseen text (seen ++ next)).length < (unseen text seen).length := by
  obtain ⟨rest, hrest⟩ := List.exists_mem_of_ne_nil next hne
  have hsub : (unseen text (seen ++ next)).Sublist (unseen text seen) :=
    List.monotone_filter_right _ fun other hother => by simp_all
  refine lt_of_le_of_ne hsub.length_le fun hlength => ?_
  have hmem : rest ∈ unseen text seen := by
    simp [unseen, hsuffix rest hrest, hnew rest hrest]
  rw [← hsub.eq_of_length hlength] at hmem
  simp [unseen, hrest] at hmem

/-- One round later, all that can be reached in one step from what had been seen is seen. -/
lemma mem_append_next {seen newest next : List (List Char)}
    (hclosed : ∀ a ∈ seen, a ∉ newest → ∀ b ∈ step a, b ∈ seen)
    (hnext : ∀ b, b ∈ next ↔ (∃ a ∈ newest, b ∈ step a) ∧ b ∉ seen) {a b : List Char}
    (ha : a ∈ seen) (hab : b ∈ step a) : b ∈ seen ++ next := by
  by_cases hold : b ∈ seen
  · exact List.mem_append_left _ hold
  · by_cases hnew : a ∈ newest
    · exact List.mem_append_right _ ((hnext b).2 ⟨⟨a, hnew, hab⟩, hold⟩)
    · exact absurd (hclosed a ha hnew b hab) hold

/-- If there are more rounds than unseen ends of the text, gathering stops because nothing new turns
up: then all that can be reached is there. -/
lemma reach_closed (hstep : ∀ a b, b ∈ step a → b <:+ a) (rounds : Nat)
    {seen newest : List (List Char)} (hnewest : newest ⊆ seen)
    (hsuffix : ∀ a ∈ seen, a <:+ text)
    (hclosed : ∀ a ∈ seen, a ∉ newest → ∀ b ∈ step a, b ∈ seen)
    (hrounds : (unseen text seen).length < rounds) :
    seen ⊆ reach step rounds seen newest ∧
      (∀ a ∈ reach step rounds seen newest, ∀ b ∈ step a, b ∈ reach step rounds seen newest) ∧
      ∀ b ∈ reach step rounds seen newest,
        ∃ a ∈ seen, Relation.ReflTransGen (fun a b => b ∈ step a) a b := by
  induction rounds generalizing seen newest with
  | zero => exact absurd hrounds (Nat.not_lt_zero _)
  | succ rounds ih =>
    unfold reach
    dsimp only
    generalize hnext : ((newest.flatMap step).eraseDups).filter (fun rest => !seen.contains rest) =
      next
    have hmem : ∀ b, b ∈ next ↔ (∃ a ∈ newest, b ∈ step a) ∧ b ∉ seen := fun b => by
      rw [← hnext, mem_next_iff]
    split
    · next hempty =>
      refine ⟨fun a ha => ha, fun a ha b hb => ?_, fun b hb => ⟨b, hb, .refl⟩⟩
      have hseen := mem_append_next hclosed hmem ha hb
      rwa [List.isEmpty_iff.1 hempty, List.append_nil] at hseen
    · next hsome =>
      have hne : next ≠ [] := fun hnone => hsome (List.isEmpty_iff.2 hnone)
      have hends : ∀ b ∈ next, b <:+ text := by
        intro b hb
        obtain ⟨⟨a, ha, hab⟩, -⟩ := (hmem b).1 hb
        exact (hstep a b hab).trans (hsuffix a (hnewest ha))
      -- each round that finds something uses up an end of the text
      have hfewer := length_unseen_lt hne hends fun b hb => ((hmem b).1 hb).2
      obtain ⟨hsub, hall, hreached⟩ := ih (List.subset_append_right seen next)
        (fun a ha => (List.mem_append.1 ha).elim (hsuffix a) (hends a))
        (fun a ha hold b hb =>
          mem_append_next hclosed hmem ((List.mem_append.1 ha).resolve_right hold) hb)
        (by omega)
      refine ⟨fun a ha => hsub (List.mem_append_left _ ha), hall, fun b hb => ?_⟩
      obtain ⟨a, ha, hab⟩ := hreached b hb
      rcases List.mem_append.1 ha with hold | hnew
      · exact ⟨a, hold, hab⟩
      · obtain ⟨⟨before, hbefore, hstepped⟩, -⟩ := (hmem a).1 hnew
        exact ⟨before, hnewest hbefore, .head hstepped hab⟩

/-- As many rounds as a text has ends find whatever can be reached from the text. -/
lemma mem_reach_iff (hstep : ∀ a b, b ∈ step a → b <:+ a) {rest : List Char} :
    rest ∈ reach step (text.length + 1) [text] [text] ↔
      Relation.ReflTransGen (fun a b => b ∈ step a) text rest := by
  have hrounds : (unseen text [text]).length < text.length + 1 := by
    have hfewer : (unseen text ([] ++ [text])).length < (unseen text []).length :=
      length_unseen_lt (List.cons_ne_nil text []) (by simp) (by simp)
    have hall : (unseen text []).length = text.length + 1 := by simp [unseen]
    simpa [hall] using hfewer
  have hself : [text] ⊆ [text] := fun a ha => ha
  obtain ⟨hseen, hclosed, hreached⟩ :=
    reach_closed hstep (text.length + 1) hself (by simp) (by simp) hrounds
  constructor
  · intro hrest
    obtain ⟨a, ha, hab⟩ := hreached rest hrest
    rwa [List.mem_singleton.1 ha] at hab
  · intro hpath
    induction hpath with
    | refl => exact hseen (List.mem_singleton_self text)
    | tail _ hlast ih => exact hclosed _ ih _ hlast

end Reach

/-! ## All patterns -/

/-- A repetition leaves what can be reached by repeating. -/
lemma leaves_star_iff {each : Pattern} {text rest : List Char} :
    Leaves total (.star each) text rest ↔ Relation.ReflTransGen (Leaves total each) text rest := by
  constructor
  · intro h
    generalize hstar : Pattern.star each = pattern at h
    induction h with
    | done => exact .refl
    | again honce _ _ ihmore =>
      cases hstar
      exact .head honce (ihmore rfl)
    | _ => cases hstar
  · intro h
    induction h using Relation.ReflTransGen.head_induction_on with
    | refl => exact .done each rest
    | head honce _ ih => exact .again honce ih

/-- **The matcher follows the rules**: what may remain of a text is what the rules leave of it. -/
theorem mem_rests_iff (pattern : Pattern) {text rest : List Char} :
    rest ∈ rests total pattern text ↔ Leaves total pattern text rest := by
  induction pattern generalizing text rest with
  | empty =>
    simp only [rests, List.mem_singleton]
    exact ⟨fun h => h ▸ .empty _, fun h => by cases h; rfl⟩
  | one letters =>
    cases text with
    | nil => exact ⟨fun h => (List.not_mem_nil h).elim, fun h => by cases h⟩
    | cons c text =>
      unfold rests
      split
      · next hc => exact ⟨fun h => List.mem_singleton.1 h ▸ .one _ hc, fun h => by cases h; simp⟩
      · next hc => exact ⟨fun h => (List.not_mem_nil h).elim, fun h => by cases h; contradiction⟩
  | atStart =>
    unfold rests
    split
    · next hlength =>
      refine ⟨fun h => ?_, fun h => by cases h; simp⟩
      rw [List.mem_singleton.1 h]
      exact .atStart hlength
    · next hlength =>
      exact ⟨fun h => (List.not_mem_nil h).elim, fun h => by cases h; contradiction⟩
  | atEnd =>
    cases text with
    | nil =>
      refine ⟨fun h => ?_, fun h => by cases h; simp [rests]⟩
      rw [List.mem_singleton.1 h]
      exact .atEnd
    | cons c text => exact ⟨fun h => (List.not_mem_nil h).elim, fun h => by cases h⟩
  | seq first second ihfirst ihsecond =>
    simp only [rests, List.mem_eraseDups, List.mem_flatMap, ihfirst, ihsecond]
    constructor
    · rintro ⟨middle, hfirst, hsecond⟩
      exact .seq hfirst hsecond
    · rintro ⟨⟩
      exact ⟨_, ‹_›, ‹_›⟩
  | either first second ihfirst ihsecond =>
    simp only [rests, List.mem_eraseDups, List.mem_append, ihfirst, ihsecond]
    constructor
    · rintro (hfirst | hsecond)
      · exact .first second hfirst
      · exact .second first hsecond
    · rintro ⟨⟩
      · exact .inl ‹_›
      · exact .inr ‹_›
  | star each ih =>
    rw [rests, mem_reach_iff fun a b hb => (ih.1 hb).suffix, leaves_star_iff]
    simp only [ih]

/-- The places of a text are where its ends begin. -/
lemma mem_tails_iff {text rest : List Char} : rest ∈ tails text ↔ rest <:+ text := by
  induction text with
  | nil => simp [tails]
  | cons c text ih => simp [tails, ih, List.suffix_cons_iff]

/-- A pattern is found in a text if it describes a stretch from some place on. -/
lemma isFoundIn_iff {pattern : Pattern} {text : List Char} :
    pattern.isFoundIn text = true ↔
      ∃ start rest, start <:+ text ∧ Leaves text.length pattern start rest := by
  simp only [isFoundIn, List.any_eq_true, Bool.not_eq_true', List.isEmpty_eq_false_iff_exists_mem,
    mem_tails_iff, mem_rests_iff]
  exact ⟨fun ⟨start, hstart, rest, h⟩ => ⟨start, rest, hstart, h⟩,
    fun ⟨start, rest, hstart, h⟩ => ⟨start, hstart, rest, h⟩⟩

end LayeredProfiles.Pattern
