import Docsmith.Text.Search

/-!
# Pieces between single characters

What stands between the characters of a class, told by the library's splitting of lists.

* `piecesBy_append`: a text split at a character of the class;
* `piecesBy_eq_singleton`: a text without such characters;
* `infix_of_mem_piecesBy`, `not_of_mem_piecesBy`: what a piece is made of.
-/

namespace Docsmith.Text

variable {p : Char → Bool} {c : Char} {cs q : List Char} {qs : List (List Char)}

theorem pushHead_eq_modifyHead (h : qs ≠ []) : pushHead c qs = qs.modifyHead (List.cons c) := by
  obtain ⟨q, qs, rfl⟩ := List.exists_cons_of_ne_nil h
  rfl

theorem piecesBy_eq_splitOnP (p : Char → Bool) (cs : List Char) :
    piecesBy p cs = cs.splitOnP p := by
  induction cs with
  | nil => rfl
  | cons c cs ih =>
    rw [piecesBy, List.splitOnP_cons_eq_if_modifyHead, ih]
    split
    · rfl
    · exact pushHead_eq_modifyHead (List.splitOnP_ne_nil p cs)

theorem piecesBy_append (hc : p c = true) (cs ds : List Char) :
    piecesBy p (cs ++ c :: ds) = piecesBy p cs ++ piecesBy p ds := by
  rw [piecesBy_eq_splitOnP, piecesBy_eq_splitOnP, piecesBy_eq_splitOnP,
    List.splitOnP_append_cons cs ds hc]

theorem piecesBy_eq_singleton (h : ∀ c ∈ cs, p c = false) : piecesBy p cs = [cs] := by
  rw [piecesBy_eq_splitOnP, List.splitOnP_eq_singleton h]

theorem piecesBy_ne_nil (p : Char → Bool) (cs : List Char) : piecesBy p cs ≠ [] := by
  rw [piecesBy_eq_splitOnP]
  exact List.splitOnP_ne_nil p cs

/-- The first piece is how the text starts. -/
theorem exists_piecesBy_eq_cons (p : Char → Bool) (cs : List Char) :
    ∃ q qs, piecesBy p cs = q :: qs ∧ q <+: cs := by
  induction cs with
  | nil => exact ⟨[], [], rfl, List.prefix_refl _⟩
  | cons c cs ih =>
    obtain ⟨q, qs, hpieces, hstart⟩ := ih
    rw [piecesBy, hpieces]
    split
    · exact ⟨[], _, rfl, List.nil_prefix⟩
    · exact ⟨c :: q, qs, rfl, (List.prefix_cons_inj c).2 hstart⟩

/-- A piece is a stretch of the text. -/
theorem infix_of_mem_piecesBy (hq : q ∈ piecesBy p cs) : q <:+: cs := by
  induction cs generalizing q with
  | nil =>
    obtain rfl := List.mem_singleton.1 hq
    exact List.infix_refl _
  | cons c cs ih =>
    obtain ⟨r, rs, hpieces, hstart⟩ := exists_piecesBy_eq_cons p cs
    rw [hpieces] at ih
    rw [piecesBy, hpieces] at hq
    split at hq
    · rcases List.mem_cons.1 hq with rfl | hq
      · exact List.nil_infix
      · exact (ih hq).trans (List.suffix_cons c cs).isInfix
    · rcases List.mem_cons.1 hq with rfl | hq
      · exact ((List.prefix_cons_inj c).2 hstart).isInfix
      · exact (ih (List.mem_cons_of_mem r hq)).trans (List.suffix_cons c cs).isInfix

/-- No piece holds a character of the class. -/
theorem not_of_mem_piecesBy (hq : q ∈ piecesBy p cs) : ∀ c ∈ q, p c = false := by
  induction cs generalizing q with
  | nil =>
    rw [List.mem_singleton.1 hq]
    exact fun _ hc => nomatch hc
  | cons c cs ih =>
    obtain ⟨r, rs, hpieces, -⟩ := exists_piecesBy_eq_cons p cs
    rw [hpieces] at ih
    rw [piecesBy, hpieces] at hq
    split at hq
    · rcases List.mem_cons.1 hq with rfl | hq
      · exact fun _ hc => nomatch hc
      · exact ih hq
    · rename_i hc
      rcases List.mem_cons.1 hq with rfl | hq
      · exact List.forall_mem_cons.2 ⟨Bool.not_eq_true _ ▸ hc, ih (List.mem_cons_self ..)⟩
      · exact ih (List.mem_cons_of_mem r hq)

/-- A piece is made of the characters of the text that are not in the class. -/
theorem of_mem_piecesBy (hq : q ∈ piecesBy p cs) (hc : c ∈ q) : c ∈ cs ∧ p c = false :=
  ⟨(infix_of_mem_piecesBy hq).subset hc, not_of_mem_piecesBy hq c hc⟩

end Docsmith.Text
