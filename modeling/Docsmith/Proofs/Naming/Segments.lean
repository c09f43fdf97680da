import Docsmith.Naming
import Docsmith.Proofs.Text.Splitting
import Mathlib.Tactic.WLOG

/-!
# Segments of names

A short name is found from the right, and segments are split off from the left. The last segment is
the short name, unless colons can be paired in two ways.

* `eq_of_endsIn_colons`: without three colons in a row there is one text behind the last two;
* `getLast?_nameParts`: the last segment;
* `of_mem_nameParts`: all of them.
-/

namespace Docsmith.Naming

open Docsmith.Text

variable {cs u v : List Char} {name part : String}

/-- Where no three colons follow one another, there is one text behind the last two. -/
theorem eq_of_endsIn_colons (hu : EndsIn colons cs u) (hv : EndsIn colons cs v)
    (hcolons : ¬[':', ':', ':'] <:+: cs) : u = v := by
  wlog hle : u.length ≤ v.length generalizing u v
  · exact (this hv hu (Nat.le_of_not_le hle)).symm
  have huv : u <:+ v := List.suffix_of_suffix_length_le hu.suffix hv.suffix hle
  rcases hu.behind with rfl | hbehind
  · exact huv.eq_of_length_le hv.suffix.length_le
  · -- two colons stand in front of the shorter text, and the longer one holds none of them or one
    rcases List.suffix_or_suffix_of_suffix hbehind hv.suffix with h | h
    · exact absurd ((List.prefix_append colons u).isInfix.trans h.isInfix) hv.last
    · rw [colons, List.cons_append, List.cons_append, List.nil_append, List.suffix_cons_iff,
        List.suffix_cons_iff] at h
      rcases h with rfl | rfl | h
      · exact absurd (List.prefix_append colons u).isInfix hv.last
      · refine absurd ?_ hcolons
        rcases hv.behind with rfl | h
        · have hlong := hbehind.length_le
          simp only [colons, List.length_append, List.length_cons] at hlong
          omega
        · exact (List.prefix_append [':', ':', ':'] u).isInfix.trans h.isInfix
      · exact huv.eq_of_length_le h.length_le

theorem getLast?_pieces_colons (hcolons : ¬[':', ':', ':'] <:+: cs) :
    (pieces colons cs).getLast? = some (afterLast colons cs) := by
  have hsplits := splits_pieces (show colons ≠ [] by decide) cs
  cases hlast : (pieces colons cs).getLast? with
  | none =>
    rw [List.getLast?_eq_none_iff] at hlast
    rw [hlast] at hsplits
    cases hsplits
  | some q =>
    exact congrArg some (eq_of_endsIn_colons (hsplits.endsIn q hlast)
      (endsIn_afterLast (by decide) cs) hcolons)

/-- The last segment from the left is the one found from the right. -/
theorem getLast?_nameParts (hcolons : ¬[':', ':', ':'] <:+: name.toList)
    (hne : shortName name ≠ "") :
    (nameParts name).getLast? = some (shortName name) := by
  obtain ⟨front, hfront⟩ := List.getLast?_eq_some_iff.1 (getLast?_pieces_colons hcolons)
  obtain ⟨init, hinit⟩ :=
    List.getLast?_eq_some_iff.1 (getLast?_piecesBy '.' (afterLast colons name.toList))
  have hword : [afterLast ['.'] (afterLast colons name.toList)].filter (!·.isEmpty) =
      [afterLast ['.'] (afterLast colons name.toList)] := by
    rw [List.filter_eq_self, List.forall_mem_singleton, Bool.not_eq_true',
      List.isEmpty_eq_false_iff]
    intro h
    exact hne (by rw [shortName, h])
  rw [nameParts, hfront, List.flatMap_append, List.flatMap_singleton, hinit, ← List.append_assoc,
    List.filter_append, hword, List.map_append, List.map_singleton, List.getLast?_concat, shortName]

/-- What a segment is. -/
theorem of_mem_nameParts (h : part ∈ nameParts name) :
    part ≠ "" ∧ ¬colons <:+: part.toList ∧ '.' ∉ part.toList := by
  obtain ⟨w, hw, rfl⟩ := List.mem_map.1 h
  obtain ⟨hw, hne⟩ := List.mem_filter.1 hw
  obtain ⟨q, hq, hw⟩ := List.mem_flatMap.1 hw
  have hcolons := (splits_pieces (by decide) name.toList).notInfix q hq
  rw [String.toList_ofList]
  refine ⟨fun h => ?_, fun h => hcolons (h.trans (infix_of_mem_piecesBy hw)), fun h => ?_⟩
  · rw [String.ofList_eq_empty_iff] at h
    simp [h] at hne
  · simpa using (of_mem_piecesBy hw h).2

end Docsmith.Naming
