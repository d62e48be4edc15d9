import Mathlib.Data.List.DropRight
import LayeredProfiles.Proofs.Path.Names

set_option autoImplicit false

/-!
# Paths seen from a directory

A path is read piece by piece. Seen from a directory, a relative path has the pieces that lead to
the directory in front of its own. The directory and the name at the end of a path are found on
these pieces as well, so that another name can be put in the place of the last one.

## Main definitions

* `Path.split` — the pieces of a path between its slashes.
* `Path.lead` — the pieces in front of what is seen from a directory.

## Main results

* `Path.split_join`, `Path.lead_join`, `Path.isAbsolute_join` — the pieces of what is seen from a
  directory.
* `Path.split_inj` — a path is determined by its pieces.
* `Path.components_join_ofNames` — the components of names seen from a directory.
* `Path.exists_parent?`, `Path.exists_split_of_fileName?` — the directory above a path that ends in
  a name, and the pieces of such a path.
* `Path.withFileName_join_ofNames` — another name in the place of the last one.
* `Path.extension?_eq_some_iff` — which names have an extension.
-/

namespace LayeredProfiles.Path

/-- The pieces of a path between its slashes. -/
def split (p : Path) : List (List Char) :=
  Text.splitAt '/' p.text.toList

/-- The pieces in front of what is seen from a directory: all of them, but for the empty one that a
slash at the end makes. -/
def lead (dir : Path) : List (List Char) :=
  if dir.text = "" then []
  else if dir.text.toList.getLast? = some '/' then dir.split.dropLast
  else dir.split

/-! ## Pieces -/

/-- A path is determined by its pieces. -/
lemma split_inj {p q : Path} (h : p.split = q.split) : p = q := by
  have htext : p.text.toList = q.text.toList := by
    rw [← Text.joinWith_splitAt '/' p.text.toList, ← Text.joinWith_splitAt '/' q.text.toList]
    exact congrArg _ h
  cases p
  cases q
  exact congrArg Path.mk (String.toList_inj.1 htext)

/-- Only the empty text has no other piece than an empty one. -/
lemma split_eq_singleton_nil_iff {p : Path} : p.split = [[]] ↔ p.text = "" := by
  constructor
  · intro h
    exact congrArg Path.text (split_inj (p := p) (q := ⟨""⟩) h)
  · rintro h
    rw [split, h]
    rfl

/-- No piece holds a slash. -/
lemma slash_not_mem_of_mem_split {p : Path} {piece : List Char} (h : piece ∈ p.split) :
    '/' ∉ piece :=
  Text.not_mem_of_mem_splitAt h

/-- The pieces of a path made of names are the names. -/
lemma split_ofNames {names : List String} (hne : names ≠ []) (h : ∀ name ∈ names, IsName name) :
    (ofNames names).split = names.map String.toList :=
  splitAt_ofNames hne h

/-- The pieces of a path that does not end in a slash are those in front of what is seen from it. -/
lemma lead_eq_split {dir : Path} (hne : dir.text ≠ "")
    (hslash : dir.text.toList.getLast? ≠ some '/') : dir.lead = dir.split := by
  simp [lead, hne, hslash]

/-- A slash at the end makes an empty piece. -/
lemma split_eq_lead_concat {dir : Path} (hslash : dir.text.toList.getLast? = some '/') :
    dir.split = dir.lead ++ [[]] := by
  obtain ⟨before, htext⟩ := List.getLast?_eq_some_iff.1 hslash
  have hsplit : dir.split = Text.splitAt '/' before ++ [[]] := by
    rw [split, htext, Text.splitAt_append_sep]
    rfl
  have hne : dir.text ≠ "" := by
    intro hempty
    rw [hempty] at htext
    simp at htext
  rw [lead, if_neg hne, if_pos hslash, hsplit, List.dropLast_concat]

/-- A path that is not empty has the pieces in front of what is seen from it, and an empty one if it
ends in a slash. -/
lemma split_eq_lead_or {dir : Path} (hne : dir.text ≠ "") :
    dir.split = dir.lead ∨ dir.split = dir.lead ++ [[]] := by
  by_cases hslash : dir.text.toList.getLast? = some '/'
  · exact .inr (split_eq_lead_concat hslash)
  · exact .inl (lead_eq_split hne hslash).symm

/-- If the last piece is not empty, a path has the pieces in front of what is seen from it. -/
lemma lead_of_split {dir : Path} {before : List (List Char)} {last : List Char}
    (hsplit : dir.split = before ++ [last]) (hlast : last ≠ []) : dir.lead = before ++ [last] := by
  have hne : dir.text ≠ "" := by
    intro hempty
    rw [split_eq_singleton_nil_iff.2 hempty, ← List.nil_append [[]]] at hsplit
    have := List.append_inj_right' hsplit rfl
    simp_all
  rcases split_eq_lead_or hne with hlead | hlead
  · rw [← hlead, hsplit]
  · rw [hlead] at hsplit
    have := List.append_inj_right' hsplit rfl
    simp_all

/-- A path starts at the root exactly if its text starts with a slash. -/
lemma isAbsolute_iff {p : Path} : p.isAbsolute = true ↔ p.text.toList.head? = some '/' := by
  unfold isAbsolute pieces
  cases htext : p.text.toList with
  | nil => simp [Text.splitAt]
  | cons c rest =>
    have hrest := Text.splitAt_ne_nil '/' rest
    cases hs : Text.splitAt '/' rest with
    | nil => exact absurd hs hrest
    | cons piece more =>
      by_cases hc : c = '/'
      · simp [Text.splitAt, hc, hs]
      · simp only [Text.splitAt, hc, hs, if_false, List.head?_cons, Option.some.injEq, iff_false,
          Bool.not_eq_true]
        split <;> simp_all

/-- Nothing stands in front of an empty path. -/
lemma isAbsolute_of_empty {p : Path} (h : p.text = "") : p.isAbsolute = false := by
  rw [← Bool.not_eq_true, isAbsolute_iff, h]
  simp

/-- A path made of names does not start at the root. -/
lemma isAbsolute_ofNames {names : List String} (h : ∀ name ∈ names, IsName name) :
    (ofNames names).isAbsolute = false := by
  simp [isAbsolute, pieces_ofNames h]

/-! ## Joining -/

/-- Seen from a directory that is not empty, a relative path stands behind the directory and a
slash. -/
lemma toList_join {dir p : Path} (h : p.isAbsolute = false) (hne : dir.text ≠ "") :
    ∃ before, (dir.join p).text.toList = before ++ '/' :: p.text.toList ∧
      Text.splitAt '/' before = dir.lead := by
  by_cases hslash : dir.text.toList.getLast? = some '/'
  · obtain ⟨before, htext⟩ := List.getLast?_eq_some_iff.1 hslash
    refine ⟨before, by simp [join, h, hne, htext], ?_⟩
    have hsplit : dir.split = Text.splitAt '/' before ++ [[]] := by
      rw [split, htext, Text.splitAt_append_sep]
      rfl
    rw [split_eq_lead_concat hslash] at hsplit
    exact (List.append_inj_left' hsplit rfl).symm
  · refine ⟨dir.text.toList, by simp [join, h, hne, hslash], ?_⟩
    exact (lead_eq_split hne hslash).symm

/-- Seen from a directory, a relative path has the pieces that lead there in front of its own. -/
lemma split_join {dir p : Path} (h : p.isAbsolute = false) :
    (dir.join p).split = dir.lead ++ p.split := by
  by_cases hne : dir.text = ""
  · simp [join, h, hne, lead]
  · obtain ⟨before, htext, hlead⟩ := toList_join h hne
    rw [split, htext, Text.splitAt_append_sep, hlead]
    rfl

/-- What is seen from a path that is seen from a directory has the pieces of both in front. -/
lemma lead_join {dir p : Path} (h : p.isAbsolute = false) :
    (dir.join p).lead = dir.lead ++ p.lead := by
  by_cases hne : dir.text = ""
  · simp [join, h, hne, lead]
  obtain ⟨before, htext, hlead⟩ := toList_join h hne
  -- joining the empty path adds a slash, which is not in front of anything
  by_cases hp : p.text = ""
  · have hslash : (dir.join p).text.toList.getLast? = some '/' := by simp [htext, hp]
    have hsplit := split_eq_lead_concat hslash
    rw [split_join h, split_eq_singleton_nil_iff.2 hp] at hsplit
    rw [← List.append_inj_left' hsplit rfl, lead.eq_def p, if_pos hp, List.append_nil]
  · have hjoin : (dir.join p).text ≠ "" := by
      intro hempty
      rw [hempty] at htext
      simp at htext
    have hlast : (dir.join p).text.toList.getLast? = p.text.toList.getLast? := by
      have hne' : p.text.toList ≠ [] := fun hnil => hp (String.toList_eq_nil_iff.1 hnil)
      rw [htext, List.getLast?_append, List.getLast?_cons_of_ne_nil hne',
        Option.or_of_isSome (by simpa using hne')]
    by_cases hslash : p.text.toList.getLast? = some '/'
    · have hsplit := split_eq_lead_concat (hlast.trans hslash)
      rw [split_join h, split_eq_lead_concat hslash, ← List.append_assoc] at hsplit
      exact (List.append_inj_left' hsplit rfl).symm
    · rw [lead_eq_split hjoin (hlast ▸ hslash), split_join h, lead_eq_split hp hslash]

/-- A relative path starts where the directory starts from which it is seen. -/
lemma isAbsolute_join {dir p : Path} (h : p.isAbsolute = false) :
    (dir.join p).isAbsolute = dir.isAbsolute := by
  by_cases hne : dir.text = ""
  · simp [join, h, hne, isAbsolute_of_empty hne]
  · obtain ⟨c, rest, htext⟩ : ∃ c rest, dir.text.toList = c :: rest :=
      List.exists_cons_of_ne_nil fun hnil => hne (String.toList_eq_nil_iff.1 hnil)
    have hhead : (dir.join p).text.toList.head? = dir.text.toList.head? := by
      unfold join
      split_ifs <;> simp_all
    rw [Bool.eq_iff_iff, isAbsolute_iff, isAbsolute_iff, hhead]

variable {dir : Path} {names others : List String}

/-- Names seen from a directory come behind the pieces that lead there. -/
lemma split_join_ofNames (hne : names ≠ []) (h : ∀ name ∈ names, IsName name) :
    (dir.join (ofNames names)).split = dir.lead ++ names.map String.toList := by
  rw [split_join (isAbsolute_ofNames h), split_ofNames hne h]

/-- The pieces in front of what is seen from a path made of names are the names. -/
lemma lead_ofNames (h : ∀ name ∈ names, IsName name) :
    (ofNames names).lead = names.map String.toList := by
  cases hn : names.reverse with
  | nil =>
    rw [List.reverse_eq_nil_iff.1 hn]
    rfl
  | cons last before =>
    obtain rfl : names = before.reverse ++ [last] := by
      rw [← List.reverse_reverse names, hn, List.reverse_cons]
    rw [List.map_append]
    refine lead_of_split ?_ (h last (by simp)).ne_void.1
    rw [split_ofNames (by simp) h, List.map_append]
    rfl

/-- Names seen from a path of names are names one below the other. -/
lemma join_ofNames_append (hne : others ≠ []) (h : ∀ name ∈ names, IsName name)
    (hothers : ∀ name ∈ others, IsName name) :
    (dir.join (ofNames names)).join (ofNames others) = dir.join (ofNames (names ++ others)) := by
  have hall : ∀ name ∈ names ++ others, IsName name := fun name hname =>
    (List.mem_append.1 hname).elim (h name) (hothers name)
  refine split_inj ?_
  rw [split_join_ofNames hne hothers, split_join_ofNames (by simp [hne]) hall,
    lead_join (isAbsolute_ofNames h), lead_ofNames h, List.map_append, List.append_assoc]

/-! ## Components -/

/-- The components that the first piece of a path makes. -/
def firstComponents (piece : List Char) : List Component :=
  if piece = [] then [.root]
  else if piece = ['.'] then [.current]
  else (component? piece).toList

/-- The first piece between two slashes is a component, or it means nothing. -/
lemma filterMap_component?_cons (first : List Char) (rest : List (List Char)) :
    (first :: rest).filterMap component? =
      (component? first).toList ++ rest.filterMap component? := by
  rw [List.filterMap_cons]
  cases component? first <;> rfl

/-- The components of a path, piece by piece. -/
lemma components_of_split {p : Path} {first : List Char} {rest : List (List Char)}
    (hsplit : p.split = first :: rest) (hne : p.text ≠ "") :
    p.components = firstComponents first ++ rest.filterMap component? := by
  have hsome : ¬ (first = [] ∧ rest = []) := by
    rintro ⟨rfl, rfl⟩
    exact hne (split_eq_singleton_nil_iff.1 hsplit)
  unfold split at hsplit
  unfold components pieces firstComponents
  rw [hsplit]
  split_ifs with hempty hdot
  · subst hempty
    cases rest with
    | nil => exact absurd ⟨rfl, rfl⟩ hsome
    | cons => rfl
  · subst hdot
    rfl
  · have hfirst := filterMap_component?_cons first rest
    split <;> simp_all

/-- Names seen from a directory are components behind those of the directory. -/
lemma components_join_ofNames (h : ∀ name ∈ names, IsName name) :
    (dir.join (ofNames names)).components = dir.components ++ names.map .name := by
  by_cases hne : dir.text = ""
  · have hdir : dir.components = [] := by
      unfold components pieces
      rw [hne]
      rfl
    rw [hdir, List.nil_append, ← components_ofNames h]
    simp [join, isAbsolute_ofNames h, hne]
  obtain ⟨before, htext, -⟩ := toList_join (isAbsolute_ofNames h) hne
  have hjoin : (dir.join (ofNames names)).text ≠ "" := by
    intro hempty
    rw [hempty] at htext
    simp at htext
  have hnames : (ofNames names).split.filterMap component? = names.map .name := by
    cases names with
    | nil => rfl
    | cons name rest => rw [split_ofNames (List.cons_ne_nil _ _) h, filterMap_component? h]
  -- a slash at the end of the directory makes a piece that is no component
  obtain ⟨tail, hsplit, htail⟩ :
      ∃ tail, dir.split = dir.lead ++ tail ∧ tail.filterMap component? = [] := by
    rcases split_eq_lead_or hne with hsplit | hsplit
    · exact ⟨[], by rw [List.append_nil, ← hsplit], rfl⟩
    · exact ⟨[[]], hsplit, rfl⟩
  obtain ⟨first, more, hlead⟩ : ∃ first more, dir.lead = first :: more := by
    refine List.exists_cons_of_ne_nil fun hnil => ?_
    rcases split_eq_lead_or hne with hsplit | hsplit
    · exact Text.splitAt_ne_nil '/' _ (hsplit.trans hnil)
    · exact hne (split_eq_singleton_nil_iff.1 (by rw [hsplit, hnil, List.nil_append]))
  have hjoined : (dir.join (ofNames names)).split = dir.lead ++ (ofNames names).split :=
    split_join (isAbsolute_ofNames h)
  rw [hlead, List.cons_append] at hsplit hjoined
  rw [components_of_split hsplit hne, components_of_split hjoined hjoin, List.filterMap_append,
    List.filterMap_append, hnames, htail, List.append_nil, List.append_assoc]

/-- Names that make the same components when they are seen from a directory are the same. -/
lemma components_join_ofNames_inj {others : List String} (h : ∀ name ∈ names, IsName name)
    (hothers : ∀ name ∈ others, IsName name)
    (hsame : (dir.join (ofNames names)).components = (dir.join (ofNames others)).components) :
    names = others := by
  rw [components_join_ofNames h, components_join_ofNames hothers] at hsame
  exact List.map_injective_iff.2 (fun _ _ => Component.name.inj) (List.append_cancel_left hsame)

/-! ## The two ends of a path -/

/-- The piece that what stands in front of the others makes. -/
def frontPieces : Option Component → List (List Char)
  | some .root => [[]]
  | some .current => [['.']]
  | _ => []

/-- What is dropped means nothing. -/
lemma exists_voids (pieces : List (List Char)) :
    ∃ voids, pieces = dropVoid pieces ++ voids ∧ ∀ piece ∈ voids, isVoid piece = true :=
  ⟨pieces.rtakeWhile isVoid, List.rdropWhile_append_rtakeWhile.symm,
    fun _ => List.mem_rtakeWhile_imp⟩

/-- What is left ends in a piece that means something, if anything is left. -/
lemma dropVoid_eq_nil_or (pieces : List (List Char)) :
    dropVoid pieces = [] ∨
      ∃ before last, dropVoid pieces = before ++ [last] ∧ isVoid last = false := by
  refine or_iff_not_imp_left.2 fun hne => ?_
  refine ⟨_, (dropVoid pieces).getLast hne, (List.dropLast_append_getLast hne).symm, ?_⟩
  exact Bool.not_eq_true _ ▸ List.rdropWhile_last_not isVoid pieces hne

/-- A name means something. -/
lemma IsName.isVoid_eq_false {name : String} (h : IsName name) : isVoid name.toList = false := by
  simp [isVoid, h.ne_void.1, h.ne_void.2]

/-- What means nothing at the end is dropped. -/
lemma dropVoid_append {rest voids : List (List Char)} (h : ∀ piece ∈ voids, isVoid piece = true) :
    dropVoid (rest ++ voids) = dropVoid rest := by
  unfold dropVoid
  rw [List.reverse_append, List.dropWhile_append_of_pos (by simpa using h)]

/-- What means nothing makes no components. -/
lemma filterMap_component?_of_isVoid {voids : List (List Char)}
    (h : ∀ piece ∈ voids, isVoid piece = true) : voids.filterMap component? = [] :=
  List.filterMap_eq_nil_iff.2 fun piece hpiece => if_pos (h piece hpiece)

/-- What stands in front of a path with a name in it, and what follows the name. -/
lemma exists_pieces {path : Path} {before tail : List (List Char)} {name : String}
    (hsplit : path.split = before ++ name.toList :: tail) (hname : IsName name) :
    ∃ front init, path.pieces = (front, init ++ name.toList :: tail) ∧
      before = frontPieces front ++ init ∧
      (front = none ∧ (∀ piece ∈ init.head?, isVoid piece = false) ∨
        front = some .root ∨ front = some .current) := by
  obtain ⟨hempty, hdot⟩ := hname.ne_void
  unfold split at hsplit
  unfold pieces
  rw [hsplit]
  cases before with
  | nil => exact ⟨none, [], by simp [hempty, hdot], rfl, .inl ⟨rfl, by simp⟩⟩
  | cons first init =>
    by_cases hroot : first = []
    · exact ⟨some .root, init, by simp [hroot], by simp [hroot, frontPieces], .inr (.inl rfl)⟩
    · by_cases hcurrent : first = ['.']
      · refine ⟨some .current, init, by simp [hcurrent], by simp [hcurrent, frontPieces], ?_⟩
        exact .inr (.inr rfl)
      · refine ⟨none, first :: init, ?_, rfl, .inl ⟨rfl, ?_⟩⟩
        · simp [hroot, hcurrent]
        · simp [isVoid, hroot, hcurrent]

/-- Taking a path apart and putting it together leaves the pieces in front of what is seen from it
as they are. -/
lemma lead_ofPieces {front : Option Component} {rest : List (List Char)}
    (hslash : ∀ piece ∈ rest, '/' ∉ piece)
    (hlast : rest = [] ∨ ∃ before last, rest = before ++ [last] ∧ isVoid last = false)
    (hfront : front = none ∧ (∀ piece ∈ rest.head?, isVoid piece = false) ∨
      front = some .root ∨ front = some .current) :
    (ofPieces front rest).lead = frontPieces front ++ rest ∧
      ((ofPieces front rest).isAbsolute = true ↔ front = some .root) := by
  rcases hlast with rfl | ⟨before, last, rfl, hlast⟩
  · rcases hfront with ⟨rfl, -⟩ | rfl | rfl <;> exact ⟨rfl, by decide⟩
  have hne : before ++ [last] ≠ [] := by simp
  have hvoid : last ≠ [] := by
    rintro rfl
    cases hlast
  have hbody := Text.splitAt_joinWith hne hslash
  have hlead : ∀ path : Path, path.split = frontPieces front ++ (before ++ [last]) →
      path.lead = frontPieces front ++ (before ++ [last]) := by
    intro path hsplit
    rw [← List.append_assoc] at hsplit ⊢
    exact lead_of_split hsplit hvoid
  rcases hfront with ⟨rfl, hfirst⟩ | rfl | rfl
  · have hsplit : (ofPieces none (before ++ [last])).split = before ++ [last] := by
      simpa [split, ofPieces] using hbody
    refine ⟨hlead _ hsplit, ?_⟩
    rw [isAbsolute, pieces, ← split, hsplit]
    cases before with
    | nil => simp_all [isVoid]
    | cons first more => simp_all [isVoid]
  · refine ⟨hlead _ ?_, ?_⟩
    · simp [split, ofPieces, Text.splitAt, hbody, frontPieces]
    · simp [isAbsolute_iff, ofPieces]
  · refine ⟨hlead _ ?_, ?_⟩
    · simp [split, ofPieces, Text.splitAt, hbody, frontPieces, Component.text]
    · simp [isAbsolute_iff, ofPieces, Component.text]

/-- The two ends of a path whose last piece is a name, but for what means nothing: the name is the
last component, and the directory above leads to where the pieces before the name lead, but for those
that mean nothing. -/
lemma exists_parent? {path : Path} {before tail : List (List Char)} {name : String}
    (hsplit : path.split = before ++ name.toList :: tail) (hname : IsName name)
    (htail : ∀ piece ∈ tail, isVoid piece = true) :
    path.fileName? = some name ∧ ∃ dir voids, path.parent? = some dir ∧
      before = dir.lead ++ voids ∧ (∀ piece ∈ voids, isVoid piece = true) ∧
      dir.isAbsolute = path.isAbsolute := by
  obtain ⟨front, init, hpieces, rfl, hfront⟩ := exists_pieces hsplit hname
  obtain ⟨voids, hinit, hvoids⟩ := exists_voids init
  have hfile : path.fileName? = some name := by
    simp [fileName?, components, hpieces, hname.2, filterMap_component?_of_isVoid htail]
  have hparent : path.parent? = some (ofPieces front (dropVoid init)) := by
    have hkeep : dropVoid (init ++ name.toList :: tail) = init ++ [name.toList] := by
      rw [List.append_cons, dropVoid_append htail]
      exact List.rdropWhile_concat_neg isVoid init _ (by simp [hname.isVoid_eq_false])
    simp [parent?, hpieces, hkeep]
  have hslash : ∀ piece ∈ dropVoid init, '/' ∉ piece := by
    intro piece hpiece
    refine slash_not_mem_of_mem_split (p := path) ?_
    rw [hsplit]
    refine List.mem_append_left _ (List.mem_append_right _ ?_)
    rw [hinit]
    exact List.mem_append_left _ hpiece
  have hfirst : front = none ∧ (∀ piece ∈ (dropVoid init).head?, isVoid piece = false) ∨
      front = some .root ∨ front = some .current := by
    refine hfront.imp_left fun h => ⟨h.1, fun piece hpiece => h.2 piece ?_⟩
    rw [hinit]
    exact List.mem_head?_append_of_mem_head? hpiece
  obtain ⟨hlead, habsolute⟩ := lead_ofPieces hslash (dropVoid_eq_nil_or init) hfirst
  refine ⟨hfile, _, voids, hparent, ?_, hvoids, ?_⟩
  · rw [hlead, List.append_assoc, ← hinit]
  · rw [Bool.eq_iff_iff, habsolute]
    simp [isAbsolute, hpieces]

/-- The last component of a path is that of its last piece that means something. -/
lemma getLast?_components {path : Path} {before tail : List (List Char)} {last : List Char}
    (hsplit : path.split = before ++ last :: tail) (hlast : isVoid last = false)
    (htail : ∀ piece ∈ tail, isVoid piece = true) :
    path.components.getLast? = component? last := by
  have hne : path.text ≠ "" := by
    intro hempty
    rw [split_eq_singleton_nil_iff.2 hempty] at hsplit
    cases before with
    | nil =>
      rw [List.nil_append, List.cons.injEq] at hsplit
      rw [← hsplit.1] at hlast
      cases hlast
    | cons first more =>
      simp at hsplit
  have hnone := filterMap_component?_of_isVoid htail
  obtain ⟨component, hcomponent⟩ : ∃ component, component? last = some component := by
    unfold component?
    rw [hlast]
    split_ifs <;> simp_all
  cases before with
  | nil =>
    have hvoid : last ≠ [] ∧ last ≠ ['.'] := by simpa [isVoid] using hlast
    rw [components_of_split hsplit hne, hnone, List.append_nil, firstComponents, if_neg hvoid.1,
      if_neg hvoid.2, hcomponent]
    rfl
  | cons first more =>
    have hrest : path.split = first :: (more ++ last :: tail) := hsplit
    rw [components_of_split hrest hne, List.filterMap_append, filterMap_component?_cons, hnone,
      hcomponent]
    simp

/-- Without a piece that means something a path has no name. -/
lemma fileName?_of_isVoid {path : Path} (h : ∀ piece ∈ path.split, isVoid piece = true) :
    path.fileName? = none := by
  by_cases hne : path.text = ""
  · have hsplit : path = ⟨""⟩ := by rw [← hne]
    rw [hsplit]
    rfl
  · obtain ⟨first, rest, hsplit⟩ :=
      List.exists_cons_of_ne_nil (Text.splitAt_ne_nil '/' path.text.toList)
    change path.split = first :: rest at hsplit
    obtain ⟨hfirst, hrest⟩ := List.forall_mem_cons.1 (hsplit ▸ h)
    have hfront : first = [] ∨ first = ['.'] := by simpa [isVoid] using hfirst
    rw [fileName?, components_of_split hsplit hne, filterMap_component?_of_isVoid hrest]
    rcases hfront with rfl | rfl <;> rfl

/-- A path ends in a name if its last piece that means something is one. -/
lemma exists_split_of_fileName? {path : Path} {name : String} (h : path.fileName? = some name) :
    IsName name ∧ ∃ before tail, path.split = before ++ name.toList :: tail ∧
      ∀ piece ∈ tail, isVoid piece = true := by
  have hlast : path.components.getLast? = some (.name name) := by
    unfold fileName? at h
    split at h
    · next found hfound => rw [hfound, Option.some.inj h]
    · cases h
  have hname : IsName name := isName_of_mem_components (List.mem_of_getLast? hlast)
  obtain ⟨tail, hsplit, htail⟩ := exists_voids path.split
  rcases dropVoid_eq_nil_or path.split with hnil | ⟨before, last, hkept, hvoid⟩
  · rw [hnil, List.nil_append] at hsplit
    rw [fileName?_of_isVoid (hsplit ▸ htail)] at h
    cases h
  · rw [hkept, List.append_assoc] at hsplit
    have hcomponent := getLast?_components hsplit hvoid htail
    rw [hlast] at hcomponent
    rw [eq_toList_of_component? hcomponent.symm] at hsplit
    exact ⟨hname, before, tail, hsplit, htail⟩

/-- A path that ends in an empty piece ends in a slash. -/
lemma getLast?_of_split_eq_concat_nil {path : Path} {before : List (List Char)}
    (hne : path.text ≠ "") (hsplit : path.split = before ++ [[]]) :
    path.text.toList.getLast? = some '/' := by
  have hjoin : ∀ pieces : List (List Char), pieces ≠ [] →
      (Text.joinWith '/' (pieces ++ [[]])).getLast? = some '/' := by
    intro pieces hpieces
    induction pieces with
    | nil => exact absurd rfl hpieces
    | cons piece rest ih =>
      cases rest with
      | nil => simp [Text.joinWith]
      | cons next more =>
        have hrest := ih (List.cons_ne_nil next more)
        rw [List.cons_append, List.cons_append] at *
        rw [Text.joinWith, List.getLast?_append, List.getLast?_cons, hrest]
        rfl
  rw [← Text.joinWith_splitAt '/' path.text.toList]
  change (Text.joinWith '/' path.split).getLast? = some '/'
  rw [hsplit]
  refine hjoin before fun hnil => hne (split_eq_singleton_nil_iff.1 ?_)
  rw [hsplit, hnil, List.nil_append]

/-- Names all mean something. -/
lemma dropVoid_names (h : ∀ name ∈ names, IsName name) :
    dropVoid (names.map String.toList) = names.map String.toList := by
  refine List.rdropWhile_eq_self_iff.2 fun hne => ?_
  rw [List.getLast_map]
  simp [(h _ (List.getLast_mem (by simpa using hne))).isVoid_eq_false]

/-- The directory above names is the path of the names but for the last one. -/
lemma parent?_ofNames (h : ∀ name ∈ names, IsName name) :
    (ofNames names).parent?.getD ⟨""⟩ = ofNames names.dropLast := by
  cases hn : names.reverse with
  | nil =>
    rw [List.reverse_eq_nil_iff.1 hn]
    rfl
  | cons last before =>
    have hnames : names = before.reverse ++ [last] := by
      rw [← List.reverse_reverse names, hn, List.reverse_cons]
    have hbefore : ∀ name ∈ before.reverse, IsName name := fun name hname =>
      h name (hnames ▸ List.mem_append_left _ hname)
    have hreverse : (names.map String.toList).reverse =
        last.toList :: (before.map String.toList) := by
      rw [← List.map_reverse, hn, List.map_cons]
    rw [parent?, pieces_ofNames h]
    dsimp only
    rw [dropVoid_names h, hreverse]
    dsimp only
    rw [← List.map_reverse, dropVoid_names hbefore, hnames, List.dropLast_concat]
    rfl

/-- Below names that are seen from a directory, the directory above a name is the path of the names
before it, and another name takes the place of the last one. -/
lemma withFileName_join_ofNames (hne : names ≠ []) (h : ∀ name ∈ names, IsName name)
    {last other : String} (hlast : IsName last) (hother : IsName other) :
    (dir.join (ofNames (names ++ [last]))).withFileName other =
      dir.join (ofNames (names ++ [other])) := by
  have hnames : ∀ {name : String}, IsName name → ∀ n ∈ names ++ [name], IsName n :=
    fun hname n hn => (List.mem_append.1 hn).elim (h n) fun hn => List.mem_singleton.1 hn ▸ hname
  have hpieces : ∀ {name : String}, IsName name → (dir.join (ofNames (names ++ [name]))).split =
      dir.lead ++ names.map String.toList ++ [name.toList] := by
    intro name hname
    rw [split_join_ofNames (by simp) (hnames hname), List.map_append, List.append_assoc]
    rfl
  obtain ⟨hfile, above, voids, hparent, hbefore, hvoids, -⟩ :=
    exists_parent? (hpieces hlast) hlast (by simp)
  -- the piece in front of the last name is a name, so nothing in between is dropped
  have hnone : voids = [] := by
    by_contra hvoid
    have hend := congrArg List.getLast? hbefore
    rw [List.getLast?_append_of_ne_nil _ hvoid, List.getLast?_append_of_ne_nil _ (by simpa using hne),
      List.getLast?_eq_some_getLast hvoid, List.getLast?_eq_some_getLast (by simpa using hne),
      Option.some.injEq, List.getLast_map] at hend
    have hlastVoid := hvoids _ (List.getLast_mem hvoid)
    rw [← hend, (h _ (List.getLast_mem hne)).isVoid_eq_false] at hlastVoid
    cases hlastVoid
  have hself : (⟨other⟩ : Path) = ofNames [other] := by simp [ofNames, Text.joinWith]
  refine split_inj ?_
  rw [withFileName, hfile, hparent, hpieces hother, hbefore, hnone, hself,
    split_join_ofNames (by simp) (by simpa using hother), List.append_nil]
  rfl

/-! ## Extensions -/

/-- The last of the names that are seen from a directory is at the end. -/
lemma fileName?_join_ofNames {last : String} (h : ∀ name ∈ names ++ [last], IsName name) :
    (dir.join (ofNames (names ++ [last]))).fileName? = some last := by
  rw [fileName?, components_join_ofNames h, List.map_append, ← List.append_assoc,
    List.map_singleton, List.getLast?_concat]

/-- A name without a dot has no extension. -/
lemma extension?_of_not_mem {p : Path} {name : String} (h : p.fileName? = some name)
    (hdot : '.' ∉ name.toList) : p.extension? = none := by
  rw [extension?, h, Option.bind_eq_bind, Option.bind_some, Text.splitAt_eq_singleton hdot]
  rfl

/-- The extension follows the last dot, unless the dot is in front of everything else. -/
lemma extension?_of_fileName? {p : Path} {stem extension : List Char}
    (h : p.fileName? = some (String.ofList (stem ++ '.' :: extension))) (hdot : '.' ∉ extension) :
    p.extension? = if stem = [] then none else some (String.ofList extension) := by
  rw [extension?, h, Option.bind_eq_bind, Option.bind_some, String.toList_ofList,
    Text.splitAt_append_sep, Text.splitAt_eq_singleton hdot, List.reverse_append]
  by_cases hstem : stem = []
  · rw [hstem, if_pos rfl]
    rfl
  · -- the stem is not empty, so there are more pieces in front or the one there is not empty
    rw [if_neg hstem]
    cases hpieces : (Text.splitAt '.' stem).reverse with
    | nil => exact absurd (List.reverse_eq_nil_iff.1 hpieces) (Text.splitAt_ne_nil '.' stem)
    | cons before more =>
      have hmore : ¬ (more = [] ∧ before = []) := by
        rintro ⟨rfl, rfl⟩
        have hjoin := Text.joinWith_splitAt '.' stem
        rw [List.reverse_eq_iff.1 hpieces] at hjoin
        exact hstem hjoin.symm
      simp [hmore]

/-- **Which names have an extension**: those with something in front of a dot and the extension
behind it. -/
lemma extension?_eq_some_iff {p : Path} {extension : String} (hdot : '.' ∉ extension.toList) :
    p.extension? = some extension ↔
      ∃ stem, stem ≠ "" ∧ p.fileName? = some (stem ++ "." ++ extension) := by
  have htext : ∀ stem rest : List Char,
      String.ofList (stem ++ '.' :: rest) = String.ofList stem ++ "." ++ String.ofList rest := by
    intro stem rest
    rw [← String.toList_inj]
    simp
  constructor
  · intro h
    cases hname : p.fileName? with
    | none =>
      rw [extension?, hname] at h
      cases h
    | some name =>
      by_cases hmem : '.' ∈ name.toList.reverse
      · obtain ⟨after, before, hsplit, hlast⟩ := List.eq_append_cons_of_mem hmem
        obtain rfl : name = String.ofList (before.reverse ++ '.' :: after.reverse) := by
          rw [← String.ofList_toList (s := name), ← List.reverse_reverse name.toList, hsplit]
          simp
        rw [extension?_of_fileName? hname (by simpa using hlast)] at h
        split_ifs at h with hempty
        refine ⟨String.ofList before.reverse, by simpa using hempty, ?_⟩
        rw [htext, Option.some.inj h]
      · rw [extension?_of_not_mem hname (by simpa using hmem)] at h
        cases h
  · rintro ⟨stem, hstem, hname⟩
    have hempty : stem.toList ≠ [] := fun hnil => hstem (String.toList_eq_nil_iff.1 hnil)
    rw [← String.ofList_toList (s := stem), ← String.ofList_toList (s := extension),
      ← htext] at hname
    rw [extension?_of_fileName? hname hdot, if_neg hempty, String.ofList_toList]

end LayeredProfiles.Path
