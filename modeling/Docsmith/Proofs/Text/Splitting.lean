import Docsmith.Proofs.Text.Pieces
import Docsmith.Proofs.Text.Search

/-!
# Splitting from both ends

A separator of several characters can overlap itself, so what stands behind its last occurrence need
not be the last of the pieces found from the left. Both end the text behind an occurrence, or are
all of it, and hold no other one.

* `splits_pieces`: the pieces found from the left, by the length of the text;
* `Splits.endsIn`, `endsIn_afterLast`: what both ways of splitting find at the end;
* `getLast?_piecesBy`: a single character does not overlap itself.
-/

namespace Docsmith.Text

variable {sep cs q rest : List Char} {ps : List (List Char)} {c : Char}

theorem occurs_iff : occurs sep cs = true ↔ sep <:+: cs := by
  induction cs with
  | nil => rw [occurs, List.isEmpty_iff, List.infix_nil]
  | cons c cs ih => rw [occurs, Bool.or_eq_true, beginsWith_iff, ih, List.infix_cons_iff]

/-! ## From the left -/

/-- Pieces of a text between occurrences of a separator. None of them holds the separator. -/
inductive Splits (sep : List Char) : List Char → List (List Char) → Prop
  | whole {q : List Char} : ¬sep <:+: q → Splits sep q [q]
  | cut {q rest : List Char} {ps : List (List Char)} :
      ¬sep <:+: q → Splits sep rest ps → Splits sep (q ++ (sep ++ rest)) (q :: ps)

namespace Splits

/-- A character in front of a text goes to the first piece, unless the separator starts there. -/
theorem pushHead (h : Splits sep cs ps) (hc : ¬sep <+: c :: cs) :
    Splits sep (c :: cs) (pushHead c ps) := by
  have hlonger {q more : List Char} (hq : ¬sep <:+: q) (hcs : cs = q ++ more) :
      ¬sep <:+: c :: q := by
    rw [List.infix_cons_iff, not_or]
    refine ⟨fun hstart => hc (hstart.trans ?_), hq⟩
    rw [hcs, ← List.cons_append]
    exact List.prefix_append ..
  cases h with
  | whole hq => exact .whole (hlonger hq (List.append_nil _).symm)
  | cut hq hrest => exact .cut (hlonger hq rfl) hrest

theorem notInfix (h : Splits sep cs ps) : ∀ q ∈ ps, ¬sep <:+: q := by
  induction h with
  | whole hq => exact List.forall_mem_singleton.2 hq
  | cut hq _ ih => exact List.forall_mem_cons.2 ⟨hq, ih⟩

end Splits

theorem piecesFrom_eq_pieces_drop (sep : List Char) (skip : Nat) (cs : List Char) :
    piecesFrom sep skip cs = pieces sep (cs.drop skip) := by
  induction skip generalizing cs with
  | zero => rfl
  | succ skip ih =>
    cases cs with
    | nil => rfl
    | cons c cs => rw [piecesFrom, ih, List.drop_succ_cons]

theorem pieces_append (hne : sep ≠ []) (rest : List Char) :
    pieces sep (sep ++ rest) = [] :: pieces sep rest := by
  obtain ⟨d, begun, rfl⟩ := List.exists_cons_of_ne_nil hne
  have hbegins : beginsWith (d :: begun) (d :: (begun ++ rest)) = true :=
    beginsWith_iff.2 (List.prefix_append (d :: begun) rest)
  rw [List.cons_append, pieces, piecesFrom, if_pos hbegins, piecesFrom_eq_pieces_drop,
    List.length_cons, Nat.add_sub_cancel, List.drop_left]

theorem pieces_cons (h : ¬sep <+: c :: cs) : pieces sep (c :: cs) = pushHead c (pieces sep cs) := by
  rw [pieces, piecesFrom, if_neg (fun hb => h (beginsWith_iff.1 hb)), pieces]

theorem splits_pieces (hne : sep ≠ []) (cs : List Char) : Splits sep cs (pieces sep cs) := by
  induction hlen : cs.length using Nat.strongRecOn generalizing cs with
  | ind n ih =>
    by_cases hsep : sep <+: cs
    · obtain ⟨rest, rfl⟩ := hsep
      rw [pieces_append hne]
      refine .cut (fun h => hne (List.infix_nil.1 h)) (ih rest.length ?_ rest rfl)
      have := List.length_pos_iff.2 hne
      rw [← hlen, List.length_append]
      omega
    · cases cs with
      | nil => exact .whole fun h => hne (List.infix_nil.1 h)
      | cons c cs =>
        rw [pieces_cons hsep]
        exact (ih cs.length (by rw [← hlen]; exact Nat.lt_succ_self _) cs rfl).pushHead hsep

/-! ## What stands behind the last occurrence -/

/-- The end of a text behind an occurrence of a separator, or all of the text, where there is no
other occurrence. -/
structure EndsIn (sep cs q : List Char) : Prop where
  behind : q = cs ∨ sep ++ q <:+ cs
  last : ¬sep <:+: q

theorem EndsIn.suffix (h : EndsIn sep cs q) : q <:+ cs :=
  h.behind.elim (fun h => h ▸ List.suffix_refl _) ((List.suffix_append sep q).trans ·)

/-- The last piece from the left. -/
theorem Splits.endsIn (h : Splits sep cs ps) : ∀ q ∈ ps.getLast?, EndsIn sep cs q := by
  induction h with
  | whole hq =>
    intro q hmem
    obtain rfl := Option.some.inj hmem
    exact ⟨.inl rfl, hq⟩
  | @cut p rest ps hp hrest ih =>
    intro q hmem
    have hne : ps ≠ [] := by cases hrest <;> exact List.cons_ne_nil _ _
    rw [Option.mem_def, List.getLast?_cons_of_ne_nil hne] at hmem
    obtain ⟨hbehind, hlast⟩ := ih q hmem
    refine ⟨.inr ?_, hlast⟩
    rcases hbehind with rfl | h
    · exact List.suffix_append ..
    · exact h.trans ((List.suffix_append sep rest).trans (List.suffix_append p _))

/-- What is found from the right. -/
theorem endsIn_afterLast (hne : sep ≠ []) (cs : List Char) : EndsIn sep cs (afterLast sep cs) := by
  refine ⟨?_, ?_⟩
  · cases h : occurs sep cs with
    | true => exact .inr (afterLast_of_occurs h)
    | false => exact .inl (afterLast_of_not_occurs h)
  · induction cs with
    | nil => exact fun h => hne (List.infix_nil.1 h)
    | cons c cs ih =>
      rw [afterLast]
      split
      · exact ih
      · rename_i hmore
        rw [occurs_iff] at hmore
        cases hstart : afterStart? sep (c :: cs) with
        | none =>
          rw [Option.getD_none, List.infix_cons_iff, ← beginsWith_iff, beginsWith, hstart]
          simpa using hmore
        | some rest =>
          obtain ⟨d, begun, rfl⟩ := List.exists_cons_of_ne_nil hne
          obtain ⟨-, rfl⟩ := List.cons.inj (eq_append_of_afterStart? hstart)
          exact fun h => hmore (h.trans (List.suffix_append begun rest).isInfix)

/-- Between single characters of a text the last piece is what stands behind the last of them. -/
theorem getLast?_piecesBy (d : Char) (cs : List Char) :
    (piecesBy (· = d) cs).getLast? = some (afterLast [d] cs) := by
  have hnone : ∀ c ∈ afterLast [d] cs, decide (c = d) = false := fun c hc =>
    decide_eq_false fun h => notMem_afterLast cs (h ▸ hc)
  rcases (endsIn_afterLast (List.cons_ne_nil d []) cs).behind with h | ⟨front, h⟩
  · have hsingle := piecesBy_eq_singleton hnone
    rw [h] at hsingle ⊢
    rw [hsingle]
    rfl
  · have happend := piecesBy_append (p := (· = d)) (c := d) (by simp) front (afterLast [d] cs)
    rw [piecesBy_eq_singleton hnone] at happend
    rw [List.singleton_append] at h
    rw [h] at happend
    rw [happend, List.getLast?_concat]

end Docsmith.Text
