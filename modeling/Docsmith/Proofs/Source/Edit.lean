import Docsmith.Source.Edit
import Mathlib.Data.List.Basic

/-!
# Edits from left to right

Edits are made from the end of a text to its start. Where they keep clear of each other, the text
they leave is the one read from left to right: the stretches between the edits, with the texts of
the edits in between.

* `applyAll_eq_splice`: edits in order leave that text;
* `filter_sorted`: sorting is stable;
* `inOrder_sorted_of_beside`: edits that do not overlap are in order once they are sorted, if only the
  last of those at one position replaces anything;
* `filter_sublist_applyAll`: what a text has of a class of characters survives edits that replace
  none of them.
-/

namespace Docsmith.Source.Edit

/-- The text behind position `n`, with the texts of the edits in the place of what they replace. -/
def splice (cs : List Char) : Nat → List Edit → List Char
  | n, [] => cs.drop n
  | n, e :: es => (cs.drop n).take (e.start - n) ++ e.text ++ splice cs e.stop es

/-- The edits replace stretches between `n` and the end of a text, each behind the one before. -/
def InOrder (size : Nat) : Nat → List Edit → Prop
  | n, [] => n ≤ size
  | n, e :: es => n ≤ e.start ∧ e.start ≤ e.stop ∧ InOrder size e.stop es

/-- Two edits that do not overlap. They may touch, or insert at one position. -/
def Beside (a b : Edit) : Prop := a.stop ≤ b.start ∨ b.stop ≤ a.start

instance (a b : Edit) : Decidable (Beside a b) := inferInstanceAs (Decidable (_ ∨ _))

/-- Two edits with a character between them that neither of them replaces. -/
def Apart (a b : Edit) : Prop := a.stop < b.start ∨ b.stop < a.start

/-- What an edit replaces. -/
def replaced (cs : List Char) (e : Edit) : List Char :=
  (cs.drop e.start).take (e.stop - e.start)

variable {cs : List Char} {es : List Edit} {e : Edit} {size n : Nat}

/-! ## Order -/

theorem InOrder.le (h : InOrder size n es) : n ≤ size := by
  induction es generalizing n with
  | nil => exact h
  | cons e es ih =>
    obtain ⟨hn, he, hes⟩ := h
    have := ih hes
    omega

theorem Apart.symm {a b : Edit} (h : Apart a b) : Apart b a := Or.symm h

theorem pairwise_sorted (es : List Edit) :
    (sorted es).Pairwise fun a b => a.start ≤ b.start := by
  have h := @List.pairwise_mergeSort _ (fun a b : Edit => decide (a.start ≤ b.start))
    (fun a b c hab hbc => by simp only [decide_eq_true_eq] at *; omega)
    (fun a b => by simp only [Bool.or_eq_true, decide_eq_true_eq]; omega) es
  exact h.imp (by simp)

/-- Edits at one position are sorted as they are listed. -/
theorem filter_sorted (es : List Edit) (i : Nat) :
    (sorted es).filter (·.start = i) = es.filter (·.start = i) := by
  have hequal : (es.filter (·.start = i)).Pairwise fun a b => decide (a.start ≤ b.start) = true :=
    List.pairwise_of_forall_mem_list fun a ha b hb => by
      have ha := of_decide_eq_true (List.mem_filter.1 ha).2
      have hb := of_decide_eq_true (List.mem_filter.1 hb).2
      exact decide_eq_true (by omega)
  have hsub : (es.filter (·.start = i)).Sublist (sorted es) :=
    List.sublist_mergeSort (fun a b c hab hbc => by simp only [decide_eq_true_eq] at *; omega)
      (fun a b => by simp only [Bool.or_eq_true, decide_eq_true_eq]; omega) hequal
      List.filter_sublist
  have hagain := hsub.filter (·.start = i)
  rw [List.filter_filter] at hagain
  simp only [Bool.and_self] at hagain
  have hperm : ((sorted es).filter (·.start = i)).Perm (es.filter (·.start = i)) :=
    (List.mergeSort_perm es _).filter _
  exact (hagain.eq_of_length hperm.length_eq.symm).symm

/-- Edits that end in front of where the next ones start are in order. -/
theorem inOrder_of_pairwise (hs : ∀ e ∈ es, e.start ≤ e.stop ∧ e.stop ≤ size)
    (hp : es.Pairwise fun a b => a.stop ≤ b.start) (hn : ∀ e ∈ es, n ≤ e.start) (h0 : n ≤ size) :
    InOrder size n es := by
  induction es generalizing n with
  | nil => exact h0
  | cons e es ih =>
    obtain ⟨he, hs⟩ := List.forall_mem_cons.1 hs
    obtain ⟨hpe, hp⟩ := List.pairwise_cons.1 hp
    exact ⟨hn e (List.mem_cons_self ..), he.1, ih hs hp hpe he.2⟩

/-- Edits that do not overlap are in order once they are sorted, if of those that start at one
position only the one listed last replaces anything. -/
theorem inOrder_sorted_of_beside (hs : ∀ e ∈ es, e.start ≤ e.stop ∧ e.stop ≤ size)
    (hb : es.Pairwise Beside) (hl : es.Pairwise fun a b => a.start = b.start → a.stop = a.start) :
    InOrder size 0 (sorted es) := by
  have hperm : (sorted es).Perm es := List.mergeSort_perm es _
  have hs' : ∀ e ∈ sorted es, e.start ≤ e.stop ∧ e.stop ≤ size :=
    fun e he => hs e (hperm.mem_iff.1 he)
  have hb' : (sorted es).Pairwise Beside := (hperm.pairwise_iff Or.symm).2 hb
  -- sorting keeps the order of edits that start at one position
  have hl' : (sorted es).Pairwise fun a b => a.start = b.start → a.stop = a.start := by
    rw [List.pairwise_iff_forall_sublist]
    intro a b hab hstart
    have hsub := hab.filter (·.start = b.start)
    rw [filter_sorted, List.filter_cons_of_pos (by simpa using hstart),
      List.filter_cons_of_pos (by simp), List.filter_nil] at hsub
    exact List.pairwise_iff_forall_sublist.1 hl (hsub.trans List.filter_sublist) hstart
  refine inOrder_of_pairwise hs' ?_ (fun _ _ => Nat.zero_le _) (Nat.zero_le _)
  refine ((pairwise_sorted es).and (hb'.and hl')).imp_of_mem fun ha hb h => ?_
  obtain ⟨hle, hbeside, hlast⟩ := h
  have hstop := (hs' _ hb).1
  rcases hbeside with h | h
  · exact h
  · have := hlast (by omega)
    omega

/-- Edits that are apart from each other are in order once they are sorted. -/
theorem inOrder_sorted (hs : ∀ e ∈ es, e.start ≤ e.stop ∧ e.stop ≤ size)
    (ha : es.Pairwise Apart) : InOrder size 0 (sorted es) := by
  refine inOrder_sorted_of_beside hs (ha.imp fun h => ?_) (ha.imp_of_mem fun ha hb h heq => ?_)
  · exact h.imp Nat.le_of_lt Nat.le_of_lt
  · have := (hs _ ha).1
    have := (hs _ hb).1
    rcases h with h | h <;> omega

/-- Insertions into a text are in order once they are sorted. -/
theorem inOrder_sorted_inserts (hs : ∀ e ∈ es, e.start = e.stop ∧ e.stop ≤ size) :
    InOrder size 0 (sorted es) := by
  have hempty : ∀ e ∈ es, e.start = e.stop := fun e he => (hs e he).1
  refine inOrder_sorted_of_beside (fun e he => ⟨Nat.le_of_eq (hempty e he), (hs e he).2⟩) ?_ ?_
  · refine List.pairwise_of_forall_mem_list fun a ha b hb => ?_
    have := hempty a ha
    have := hempty b hb
    rw [Beside]
    omega
  · exact List.pairwise_of_forall_mem_list fun a ha _ _ _ => (hempty a ha).symm

/-! ## What edits leave -/

theorem foldl_apply_eq_splice (h : InOrder cs.length n es) :
    es.reverse.foldl apply cs = cs.take n ++ splice cs n es := by
  induction es generalizing n with
  | nil => simp [splice]
  | cons e es ih =>
    obtain ⟨hn, he, hes⟩ := h
    have hlen : (cs.take e.stop).length = e.stop := by
      rw [List.length_take]
      exact Nat.min_eq_left hes.le
    have hdrop : (cs.take e.stop ++ splice cs e.stop es).drop e.stop = splice cs e.stop es := by
      rw [List.drop_append_of_le_length (by omega), List.drop_eq_nil_of_le (by omega),
        List.nil_append]
    have htake : (cs.take e.stop ++ splice cs e.stop es).take e.start = cs.take e.start := by
      rw [List.take_append_of_le_length (by omega), List.take_take, Nat.min_eq_left he]
    have hfront : cs.take e.start = cs.take n ++ (cs.drop n).take (e.start - n) := by
      rw [← List.take_add, show n + (e.start - n) = e.start by omega]
    rw [List.reverse_cons, List.foldl_append, ih hes, List.foldl_cons, List.foldl_nil, apply,
      hdrop, htake, hfront, splice]
    simp only [List.append_assoc]

/-- Edits that are in order when sorted leave the text they make from left to right. -/
theorem applyAll_eq_splice (h : InOrder cs.length 0 (sorted es)) :
    applyAll cs es = splice cs 0 (sorted es) := by
  rw [applyAll, foldl_apply_eq_splice h, List.take_zero, List.nil_append]

/-! ## What survives edits -/

/-- The text behind a position is what stands in front of an edit, what the edit replaces, and what
stands behind that. -/
theorem drop_eq_append (hn : n ≤ e.start) (he : e.start ≤ e.stop) :
    cs.drop n = (cs.drop n).take (e.start - n) ++ (e.replaced cs ++ cs.drop e.stop) := by
  have hfront := List.take_append_drop (e.start - n) (cs.drop n)
  have hback := List.take_append_drop (e.stop - e.start) (cs.drop e.start)
  rw [List.drop_drop, show n + (e.start - n) = e.start by omega] at hfront
  rw [List.drop_drop, show e.start + (e.stop - e.start) = e.stop by omega] at hback
  rw [replaced, hback, hfront]

theorem length_front (hn : n ≤ e.start) (hsize : e.start ≤ cs.length) :
    ((cs.drop n).take (e.start - n)).length = e.start - n := by
  rw [List.length_take, List.length_drop]
  omega

theorem length_replaced (he : e.start ≤ e.stop) (hsize : e.stop ≤ cs.length) :
    (e.replaced cs).length = e.stop - e.start := by
  rw [replaced, List.length_take, List.length_drop]
  omega

theorem filter_sublist_splice {p : Char → Bool} (h : InOrder size n es)
    (hr : ∀ e ∈ es, (replaced cs e).filter p = []) :
    ((cs.drop n).filter p).Sublist ((splice cs n es).filter p) := by
  induction es generalizing n with
  | nil => exact List.Sublist.refl _
  | cons e es ih =>
    obtain ⟨hn, he, hes⟩ := h
    obtain ⟨hre, hrs⟩ := List.forall_mem_cons.1 hr
    rw [drop_eq_append hn he, splice]
    simp only [List.filter_append, hre, List.nil_append, List.append_assoc]
    exact List.Sublist.append (List.Sublist.refl _)
      ((ih hes hrs).trans (List.sublist_append_right _ _))

/-- The characters of a class survive edits that are apart from each other and replace none of
them. -/
theorem filter_sublist_applyAll {p : Char → Bool}
    (hs : ∀ e ∈ es, e.start ≤ e.stop ∧ e.stop ≤ cs.length) (ha : es.Pairwise Apart)
    (hr : ∀ e ∈ es, (replaced cs e).filter p = []) :
    (cs.filter p).Sublist ((applyAll cs es).filter p) := by
  have ho := inOrder_sorted hs ha
  rw [applyAll_eq_splice ho]
  exact filter_sublist_splice ho fun e he => hr e ((List.mergeSort_perm es _).mem_iff.1 he)

end Docsmith.Source.Edit
