import LayeredProfiles.Proofs.Layers.Arrangement
import LayeredProfiles.Proofs.Layers.Composition

set_option autoImplicit false

/-!
# A layer that is put on top of itself

A layer first takes away all that it names and then puts it in again. Where it has just been put in,
it therefore takes its own parameters away and puts them back, and each of them comes to stand where it
stood before: behind all that earlier layers left, in the order in which the layer declares it first.
What is sent before a request and its unknown keys are not taken away but written again, and what is
written again is written over by the same writes that came after it the first time.

## Main results

* `Layers.apply_nil_again` — a layer that is put on top of itself.
* `Layers.apply_again` — a layer that is put on a table a second time.
-/

namespace LayeredProfiles

attribute [ext] PidEntry

namespace Layers

/-- A layer declares the same when it is put on top of itself. -/
lemma won_again (layer : List PidEntry) (code : String) : won [layer, layer] code = won [layer] code := by
  have htaken : (declared layer code).filter
      (fun p => !(parameterNames [layer].flatten).contains p.1) = [] := by
    refine List.filter_eq_nil_iff.2 fun p hp => ?_
    -- what a layer declares under a code is one of its names
    have hdeclared : p.1 ∈ OrderedMap.keys (declared layer code) := List.mem_map_of_mem hp
    rw [keys_declared, List.mem_eraseDups] at hdeclared
    obtain ⟨entry, hentry, hname⟩ := List.mem_flatMap.1 hdeclared
    have hnamed : p.1 ∈ parameterNames layer :=
      List.mem_flatMap.2 ⟨entry, List.mem_of_mem_filter hentry, hname⟩
    simp [hnamed]
  rw [won, htaken, List.nil_append]

/-- The request of a code is the same when a layer is put on top of itself. -/
lemma entryOf_again (layer : List PidEntry) (code : String) :
    entryOf ([layer, layer].foldl apply []) code = entryOf ([layer].foldl apply []) code := by
  have hboth : ofCode code [layer, layer].flatten = ofCode code layer ++ ofCode code layer := by
    simp [ofCode]
  have hone : ofCode code [layer].flatten = ofCode code layer := by
    simp
  ext1
  case code => rw [code_entryOf, code_entryOf]
  case setup =>
    rw [setup_entryOf, setup_entryOf, hboth, hone, List.filterMap_append, List.getLast?_append,
      Option.or_self]
  case parameters => rw [parameters_entryOf, parameters_entryOf, won_again]
  case extra =>
    rw [extra_entryOf, extra_entryOf, hboth, hone, List.flatMap_append]
    exact List.foldl_append.trans (OrderedMap.extend_extend_self [] _)

/-- The codes are the same when a layer is put on top of itself. -/
lemma codes_again (layer : List PidEntry) :
    codes ([layer, layer].foldl apply []) = codes ([layer].foldl apply []) := by
  have hboth : codes [layer, layer].flatten = codes layer ++ codes layer := by
    simp [codes]
  have hone : codes [layer].flatten = codes layer := by
    simp
  have hnew : (codes layer).removeAll (codes layer) = [] := by
    simp [List.removeAll]
  rw [codes_foldl_apply, codes_foldl_apply, hboth, hone, List.eraseDups_append, hnew]
  exact List.append_nil _

/-- A layer that is put on top of itself is as good as the layer on its own. -/
lemma apply_nil_again (layer : List PidEntry) : apply (apply [] layer) layer = apply [] layer := by
  have hcodes : codes (apply (apply [] layer) layer) = codes (apply [] layer) := codes_again layer
  have hnodup : (codes (apply [] layer)).Nodup := nodup_codes_foldl_place layer List.nodup_nil
  calc apply (apply [] layer) layer
      = (codes (apply (apply [] layer) layer)).map (entryOf (apply (apply [] layer) layer)) :=
        (map_entryOf_codes (hcodes ▸ hnodup)).symm
    _ = (codes (apply [] layer)).map (entryOf (apply [] layer)) := by
        rw [hcodes]
        exact List.map_congr_left fun code _ => entryOf_again layer code
    _ = apply [] layer := map_entryOf_codes hnodup

/-- **A layer counts once**: putting it on a table a second time changes nothing, neither a request nor
a parameter nor an unknown key nor the order of any of these. Neither the table nor the layer needs to
list a code or a name only once.

**Proof sketch.** Merging is associative (`apply_apply`), so it is enough that a layer that is put on
top of itself is as good as the layer on its own. Neither of the two lists a code twice, so they can be
compared code by code (`map_entryOf_codes`). The layer takes away all that it declares itself, so that
its parameters are those that it puts in the second time (`won_again`); the last request of the code
that is set up is the same; and unknown keys that are written again in the same order end up with the
same values (`OrderedMap.extend_extend_self`). -/
theorem apply_again (table layer : List PidEntry) :
    apply (apply table layer) layer = apply table layer := by
  have hgathered : apply table (apply [] layer) = apply table layer := by
    have hcut := apply_apply table layer []
    rw [apply_nil, apply_nil] at hcut
    exact hcut.symm
  rw [apply_apply, apply_nil_again, hgathered]

/-- A layer that lists a code twice and overwrites itself, on a table that lists the code twice. -/
example :
    let table := [PidEntry.of "A" (some "i") [("X", "1"), ("Z", "2")] [("k", .null)],
      .ofExpressions "A" [("Y", "3")]]
    let layer := [PidEntry.of "A" (some "j") [("Y", "4"), ("X", "5")] [("l", .null), ("k", .bool true)],
      .ofExpressions "B" [("Y", "6")], .of "A" none [("X", "7")] [("l", .bool false)]]
    let merged := [PidEntry.of "A" (some "j") [("Z", "2"), ("Y", "4"), ("X", "7")]
        [("k", .bool true), ("l", .bool false)], .ofExpressions "A" [], .ofExpressions "B" [("Y", "6")]]
    apply table layer = merged ∧ apply merged layer = merged := by
  decide +kernel

end Layers

end LayeredProfiles
