import LayeredProfiles.Layers.Chain
import Mathlib.Data.List.Basic

set_option autoImplicit false

/-!
# Walking from a fragment to its ancestors

From a leaf, references lead to its ancestors one by one. The walk along them is described without
regard to how ancestors are collected: it may go on for ever, come back to where it was, or end
where a reference leads to nothing. Collecting a chain follows the walk as long as fragments load
and keys do not repeat.

## Main definitions

* `Walk` — a leaf, its key, and where ancestors are found.
* `Walk.key?`, `Walk.fragment?` — the key and the fragment after so many references.
* `Walk.Clear` — so many fragments load under distinct keys.
* `Walk.keys`, `Walk.chain` — the first keys, with their fragments.

## Main results

* `Walk.collect_eq_climb` — while the walk is clear, collecting follows it.
-/

namespace LayeredProfiles

/-- The key of the fragment that a fragment builds on. -/
def Fragment.parentKey? (f : Fragment) : Option Path :=
  f.parent.map fun reference => (Path.mk reference).normalized

/-- A leaf under its key, and where its ancestors are found. -/
structure Walk where
  /-- Where ancestors are found. -/
  source : FragmentSource
  /-- The key of the leaf. -/
  key : Path
  /-- The leaf. -/
  leaf : Fragment

namespace Walk

/-- The fragment after so many references, if they lead to one. -/
def fragment? (w : Walk) : Nat → Option Fragment
  | 0 => some w.leaf
  | i + 1 => ((w.fragment? i).bind Fragment.parentKey?).bind fun key => (w.source key).toOption

/-- The key after so many references, in normalized form. Nothing needs to be kept under it. -/
def key? (w : Walk) : Nat → Option Path
  | 0 => some w.key.normalized
  | i + 1 => (w.fragment? i).bind Fragment.parentKey?

/-- The first `n` fragments load, and their keys are pairwise distinct. -/
structure Clear (w : Walk) (n : Nat) : Prop where
  /-- The fragments load. -/
  loads : ∀ i < n, (w.fragment? i).isSome
  /-- The keys are pairwise distinct. -/
  distinct : ∀ i j, i < j → j < n → w.key? i ≠ w.key? j

/-- The first `n` keys. -/
def keys (w : Walk) (n : Nat) : List Path :=
  (List.range n).filterMap w.key?

/-- The first `n` keys with their fragments. -/
def chain (w : Walk) (n : Nat) : Chain :=
  (List.range n).filterMap fun i => (w.key? i).bind fun key => (w.fragment? i).map fun f => (key, f)

variable {w : Walk} {n : Nat}

/-! ## Keys and fragments -/

/-- What loads after a reference is kept under the key that the reference leads to. -/
lemma exists_key_of_fragment? {i : Nat} {f : Fragment} (h : w.fragment? (i + 1) = some f) :
    ∃ key, w.key? (i + 1) = some key ∧ w.source key = .ok f := by
  obtain ⟨key, hkey, hload⟩ := Option.bind_eq_some_iff.1 h
  refine ⟨key, hkey, ?_⟩
  cases hsource : w.source key with
  | error failure => rw [hsource] at hload; cases hload
  | ok g => rw [hsource] at hload; cases hload; rfl

/-- A fragment that loads has a key. -/
lemma key?_isSome {i : Nat} (h : (w.fragment? i).isSome) : (w.key? i).isSome := by
  cases i with
  | zero => rfl
  | succ i =>
    obtain ⟨f, hf⟩ := Option.isSome_iff_exists.1 h
    obtain ⟨key, hkey, -⟩ := exists_key_of_fragment? hf
    rw [hkey]
    rfl

/-- A reference leads on only from a fragment that loads. -/
lemma exists_fragment_of_key? {i : Nat} {key : Path} (h : w.key? (i + 1) = some key) :
    ∃ f, w.fragment? i = some f ∧ f.parentKey? = some key :=
  Option.bind_eq_some_iff.1 h

/-- What is passed on the way to a fragment that loads loads as well. -/
lemma fragment?_isSome_of_le {i j : Nat} (h : (w.fragment? j).isSome) (hij : i ≤ j) :
    (w.fragment? i).isSome := by
  induction j with
  | zero =>
    obtain rfl : i = 0 := by omega
    exact h
  | succ j ih =>
    rcases Nat.lt_succ_iff_lt_or_eq.1 (Nat.lt_succ_of_le hij) with hlt | rfl
    · obtain ⟨f, hf⟩ := Option.isSome_iff_exists.1 h
      obtain ⟨key, hkey, -⟩ := exists_key_of_fragment? hf
      obtain ⟨g, hg, -⟩ := exists_fragment_of_key? hkey
      exact ih (hg ▸ rfl) (by omega)
    · exact h

/-- No reference leads on from behind a fragment that builds on nothing. -/
lemma key?_eq_none_of_lt {d i : Nat} {f : Fragment} (hf : w.fragment? d = some f)
    (hend : f.parent = none) (hdi : d < i) : w.key? i = none := by
  have hnext : w.key? (d + 1) = none := by simp [key?, hf, Fragment.parentKey?, hend]
  cases hkey : w.key? i with
  | none => rfl
  | some key =>
    obtain ⟨i, rfl⟩ : ∃ k, i = k + 1 := ⟨i - 1, by omega⟩
    obtain ⟨g, hg, -⟩ := exists_fragment_of_key? hkey
    rcases Nat.lt_succ_iff_lt_or_eq.1 hdi with hlt | rfl
    · have hload : (w.fragment? (d + 1)).isSome :=
        fragment?_isSome_of_le (j := i) (hg ▸ rfl) hlt
      have := key?_isSome hload
      rw [hnext] at this
      cases this
    · rw [hnext] at hkey
      cases hkey

/-! ## Clear walks -/

/-- A walk that is clear further on is clear before. -/
lemma Clear.mono (h : w.Clear n) {m : Nat} (hm : m ≤ n) : w.Clear m :=
  ⟨fun i hi => h.loads i (by omega), fun i j hij hj => h.distinct i j hij (by omega)⟩

/-- The leaf itself is there. -/
lemma clear_one (w : Walk) : w.Clear 1 where
  loads i hi := by
    obtain rfl : i = 0 := by omega
    rfl
  distinct i j hij hj := by omega

/-- One more fragment that loads under a new key keeps the walk clear. -/
lemma Clear.succ (h : w.Clear n) (hload : (w.fragment? n).isSome)
    (hnew : ∀ i < n, w.key? i ≠ w.key? n) : w.Clear (n + 1) := by
  refine ⟨fun i hi => ?_, fun i j hij hj => ?_⟩
  · rcases Nat.lt_succ_iff_lt_or_eq.1 hi with hlt | rfl
    · exact h.loads i hlt
    · exact hload
  · rcases Nat.lt_succ_iff_lt_or_eq.1 hj with hlt | rfl
    · exact h.distinct i j hij hlt
    · exact hnew i hij

/-- One more link of a clear walk. -/
lemma chain_succ {key : Path} {f : Fragment} (hkey : w.key? n = some key)
    (hf : w.fragment? n = some f) : w.chain (n + 1) = w.chain n ++ [(key, f)] := by
  simp [chain, List.range_succ, hkey, hf]

/-- One more key. -/
lemma keys_succ {key : Path} (hkey : w.key? n = some key) :
    w.keys (n + 1) = w.keys n ++ [key] := by
  simp [keys, List.range_succ, hkey]

/-- The keys of the links of a clear walk. -/
lemma keys_chain (h : w.Clear n) : (w.chain n).keys = w.keys n := by
  induction n with
  | zero => rfl
  | succ n ih =>
    obtain ⟨f, hf⟩ := Option.isSome_iff_exists.1 (h.loads n (by omega))
    obtain ⟨key, hkey⟩ := Option.isSome_iff_exists.1 (key?_isSome (h.loads n (by omega)))
    rw [chain_succ hkey hf, keys_succ hkey, ← ih (h.mono (by omega))]
    simp [Chain.keys]

/-- The keys of a clear walk and the next key, if there is one, none left out. -/
lemma map_some_keys (h : w.Clear n) {m : Nat} (hm : m ≤ n ∨ m = n + 1 ∧ (w.key? n).isSome) :
    (w.keys m).map some = (List.range m).map w.key? := by
  induction m with
  | zero => rfl
  | succ m ih =>
    have hsome : (w.key? m).isSome := by
      rcases hm with hm | ⟨hm, hkey⟩
      · exact key?_isSome (h.loads m (by omega))
      · obtain rfl : m = n := by omega
        exact hkey
    obtain ⟨key, hkey⟩ := Option.isSome_iff_exists.1 hsome
    rw [keys_succ hkey, List.map_append, ih (by omega), List.range_succ, List.map_append]
    simp [hkey]

/-- The number of keys of a clear walk. -/
lemma length_keys (h : w.Clear n) : (w.keys n).length = n := by
  have hlength := congrArg List.length (map_some_keys h (.inl (Nat.le_refl n)))
  rwa [List.length_map, List.length_map, List.length_range] at hlength

/-- The links of a clear walk, none left out. -/
lemma map_some_chain (h : w.Clear n) :
    (w.chain n).map (fun link => (some link.1, some link.2)) =
      (List.range n).map fun i => (w.key? i, w.fragment? i) := by
  induction n with
  | zero => rfl
  | succ n ih =>
    obtain ⟨f, hf⟩ := Option.isSome_iff_exists.1 (h.loads n (by omega))
    obtain ⟨key, hkey⟩ := Option.isSome_iff_exists.1 (key?_isSome (h.loads n (by omega)))
    rw [chain_succ hkey hf, List.map_append, ih (h.mono (by omega)), List.range_succ,
      List.map_append]
    simp [hkey, hf]

/-- The keys of a walk are those that a reference leads to. -/
lemma mem_keys {key : Path} : key ∈ w.keys n ↔ ∃ i < n, w.key? i = some key := by
  simp [keys, List.mem_filterMap]

/-- A new key is none of those of a clear walk. -/
lemma Clear.not_mem_keys (h : w.Clear n) {key : Path} (hkey : w.key? n = some key)
    (hnew : ∀ i < n, w.key? i ≠ w.key? n) : key ∉ (w.chain n).keys := by
  rw [keys_chain h, mem_keys]
  rintro ⟨i, hi, hsame⟩
  exact hnew i hi (hsame.trans hkey.symm)

/-! ## Collecting along the walk -/

/-- The end of a chain is reached where there is no further reference. -/
lemma climb_none (source : FragmentSource) (leaf : Path) (left : Nat) (chain : Chain) :
    Chain.climb source leaf left chain none = .ok chain := by
  cases left <;> rfl

/-- One step of the climb along a reference. -/
lemma climb_of_parentKey? {f : Fragment} {key : Path} (hkey : f.parentKey? = some key)
    (source : FragmentSource) (leaf : Path) (left : Nat) (chain : Chain) :
    Chain.climb source leaf left chain f.parent =
      if key ∈ chain.keys then .error (.cycle (chain.keys ++ [key]))
      else
        match left with
        | 0 => .error (.tooDeep leaf chain.length (chain.length - 1))
        | left + 1 => (Chain.ancestor source leaf key).bind fun g =>
          Chain.climb source leaf left (chain ++ [(key, g)]) g.parent := by
  obtain ⟨reference, hreference, rfl⟩ := Option.map_eq_some_iff.1 hkey
  rw [hreference]
  cases left <;> rfl

/-- **While the walk is clear, collecting follows it**: after as many references as there may be
ancestors at most, the chain holds exactly the links of the walk.

**Proof sketch.** Induction on the number of references. The next key is not among those of the
chain, since keys are distinct, and the bound is not yet reached, so its fragment is loaded and
becomes the next link. -/
lemma collect_eq_climb {maxDepth : Nat} {f : Fragment} (h : w.Clear (n + 1)) (hn : n ≤ maxDepth)
    (hf : w.fragment? n = some f) :
    Chain.collect w.source maxDepth w.key w.leaf =
      Chain.climb w.source w.key.normalized (maxDepth - n) (w.chain (n + 1)) f.parent := by
  induction n generalizing f with
  | zero =>
    cases hf
    rfl
  | succ n ih =>
    obtain ⟨key, hkey, hload⟩ := exists_key_of_fragment? hf
    obtain ⟨g, hg, hparent⟩ := exists_fragment_of_key? hkey
    have hclear := h.mono (show n + 1 ≤ n + 1 + 1 by omega)
    have hnew : key ∉ (w.chain (n + 1)).keys :=
      hclear.not_mem_keys hkey fun i hi => h.distinct i (n + 1) hi (by omega)
    rw [ih hclear (by omega) hg, climb_of_parentKey? hparent, if_neg hnew,
      show maxDepth - n = maxDepth - (n + 1) + 1 by omega]
    simp only [Chain.ancestor, hload, chain_succ hkey hf]
    rfl

end Walk

end LayeredProfiles
