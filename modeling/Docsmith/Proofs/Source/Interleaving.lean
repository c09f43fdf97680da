import Docsmith.Proofs.Source.Edit

/-!
# Edits and positions

Where edits do not overlap, what they make of a text is told position by position, without sorting
them: the texts of the edits that start there, as they are listed, and then the character that
stands there, unless an edit replaces it.

* `interleave_edit`: what is read where an edit starts;
* `foldlM_applyWithin?`: no edit comes to a text that is too short for it;
* `applyAll_interleaves`: all edits of a text.
-/

namespace Docsmith.Source.Edit

variable {cs : List Char} {es fs : List Edit} {e : Edit} {size n i : Nat}

/-! ## From left to right -/

/-- The texts of the edits that start at a position, in the order of the edits. -/
def textsAt (es : List Edit) (i : Nat) : List Char :=
  (es.filter (·.start = i)).flatMap (·.text)

/-- Some edit replaces the character at a position. -/
def replaces (es : List Edit) (i : Nat) : Bool :=
  es.any fun e => e.start ≤ i && i < e.stop

/-- The text that starts at position `i`, character by character: the texts of the edits at its
position come first, and then the character itself, unless it is replaced. -/
def interleave (es : List Edit) (i : Nat) : List Char → List Char
  | [] => textsAt es i
  | c :: cs => textsAt es i ++ ((if replaces es i then [] else [c]) ++ interleave es (i + 1) cs)

theorem textsAt_sorted (es : List Edit) (i : Nat) : textsAt (sorted es) i = textsAt es i := by
  rw [textsAt, filter_sorted, textsAt]

theorem replaces_sorted (es : List Edit) (i : Nat) : replaces (sorted es) i = replaces es i := by
  have hperm : (sorted es).Perm es := List.mergeSort_perm es _
  rw [replaces, replaces, Bool.eq_iff_iff, List.any_eq_true, List.any_eq_true]
  simp only [hperm.mem_iff]

theorem textsAt_nil (i : Nat) : textsAt [] i = [] := rfl

theorem textsAt_cons (e : Edit) (es : List Edit) (i : Nat) :
    textsAt (e :: es) i = (if e.start = i then e.text else []) ++ textsAt es i := by
  rw [textsAt, textsAt]
  split
  · rename_i h
    rw [List.filter_cons_of_pos (by simpa using h), List.flatMap_cons]
  · rename_i h
    rw [List.filter_cons_of_neg (by simpa using h), List.nil_append]

theorem replaces_cons (e : Edit) (es : List Edit) (i : Nat) :
    replaces (e :: es) i = ((e.start ≤ i && i < e.stop) || replaces es i) := rfl

/-- Edits that start behind a position do nothing there. -/
theorem textsAt_eq_nil (h : ∀ e ∈ es, i < e.start) : textsAt es i = [] := by
  rw [textsAt, List.filter_eq_nil_iff.2, List.flatMap_nil]
  intro e he
  have := h e he
  simp only [decide_eq_true_eq]
  omega

theorem replaces_eq_false (h : ∀ e ∈ es, i < e.start) : replaces es i = false := by
  rw [replaces, List.any_eq_false]
  intro e he
  have := h e he
  simp only [Bool.and_eq_true, decide_eq_true_eq]
  omega

theorem interleave_congr
    (h : ∀ j, i ≤ j → textsAt es j = textsAt fs j ∧ replaces es j = replaces fs j) (cs : List Char) :
    interleave es i cs = interleave fs i cs := by
  induction cs generalizing i with
  | nil => exact (h i (Nat.le_refl _)).1
  | cons c cs ih =>
    obtain ⟨htexts, hreplaces⟩ := h i (Nat.le_refl _)
    rw [interleave, interleave, htexts, hreplaces, ih fun j hj => h j (Nat.le_of_succ_le hj)]

/-- In front of all edits the text stays. -/
theorem interleave_kept (as bs : List Char) (h : ∀ e ∈ es, i + as.length ≤ e.start) :
    interleave es i (as ++ bs) = as ++ interleave es (i + as.length) bs := by
  induction as generalizing i with
  | nil => rfl
  | cons a as ih =>
    rw [List.length_cons] at h ⊢
    have hbehind : ∀ e ∈ es, i < e.start := fun e he => by
      have := h e he
      omega
    have hlater : ∀ e ∈ es, i + 1 + as.length ≤ e.start := fun e he => by
      have := h e he
      omega
    rw [List.cons_append, interleave, textsAt_eq_nil hbehind, replaces_eq_false hbehind, ih hlater,
      show i + 1 + as.length = i + (as.length + 1) by omega]
    rfl

/-- Behind an edit nothing is left of it. -/
theorem interleave_behind (hstart : e.start < i) (hstop : e.stop ≤ i) (cs : List Char) :
    interleave (e :: es) i cs = interleave es i cs := by
  refine interleave_congr (fun j hj => ?_) cs
  rw [textsAt_cons, replaces_cons, if_neg (by omega), List.nil_append,
    decide_eq_false (show ¬j < e.stop by omega), Bool.and_false, Bool.false_or]
  exact ⟨rfl, rfl⟩

/-- What an edit replaces is left out. -/
theorem interleave_gone (as bs : List Char) (hstart : e.start < i) (hstop : i + as.length = e.stop)
    (h : ∀ d ∈ es, e.stop ≤ d.start) :
    interleave (e :: es) i (as ++ bs) = interleave es e.stop bs := by
  induction as generalizing i with
  | nil =>
    rw [List.length_nil, Nat.add_zero] at hstop
    rw [List.nil_append, interleave_behind hstart (Nat.le_of_eq hstop.symm), hstop]
  | cons a as ih =>
    rw [List.length_cons] at hstop
    have hlater : ∀ d ∈ es, i < d.start := fun d hd => by
      have := h d hd
      omega
    rw [List.cons_append, interleave, textsAt_cons, if_neg (by omega), textsAt_eq_nil hlater,
      replaces_cons, decide_eq_true (show e.start ≤ i by omega),
      decide_eq_true (show i < e.stop by omega), ih (by omega) (by omega)]
    rfl

/-- At the start of an edit its text comes in the place of what it replaces. -/
theorem interleave_edit (as bs : List Char) (hstop : e.start + as.length = e.stop)
    (h : ∀ d ∈ es, e.stop ≤ d.start) :
    interleave (e :: es) e.start (as ++ bs) = e.text ++ interleave es e.stop bs := by
  cases as with
  | nil =>
    rw [List.length_nil, Nat.add_zero] at hstop
    rw [List.nil_append, ← hstop]
    cases bs with
    | nil => rw [interleave, textsAt_cons, if_pos rfl, interleave]
    | cons b bs =>
      rw [interleave, textsAt_cons, if_pos rfl, replaces_cons,
        decide_eq_false (show ¬e.start < e.stop by omega), Bool.and_false, Bool.false_or,
        interleave_behind (Nat.lt_succ_self _) (by omega), List.append_assoc, interleave]
  | cons a as =>
    rw [List.length_cons] at hstop
    have hlater : ∀ d ∈ es, e.start < d.start := fun d hd => by
      have := h d hd
      omega
    rw [List.cons_append, interleave, textsAt_cons, if_pos rfl, textsAt_eq_nil hlater,
      replaces_cons, decide_eq_true (Nat.le_refl _),
      decide_eq_true (show e.start < e.stop by omega),
      interleave_gone as bs (Nat.lt_succ_self _) (by omega) h]
    simp

theorem InOrder.start_le (h : InOrder size n es) : ∀ e ∈ es, n ≤ e.start := by
  induction es generalizing n with
  | nil => exact fun _ h => nomatch h
  | cons e es ih =>
    obtain ⟨hn, he, hes⟩ := h
    refine List.forall_mem_cons.2 ⟨hn, fun d hd => ?_⟩
    have := ih hes d hd
    omega

/-- Edits in order leave what is read from left to right. -/
theorem splice_eq_interleave (h : InOrder cs.length n es) :
    splice cs n es = interleave es n (cs.drop n) := by
  induction es generalizing n with
  | nil =>
    have hkept : interleave [] n (cs.drop n ++ []) = cs.drop n ++ interleave [] _ [] :=
      interleave_kept (cs.drop n) [] fun _ h => nomatch h
    rw [List.append_nil, interleave, textsAt_nil, List.append_nil] at hkept
    rw [splice, hkept]
  | cons e es ih =>
    obtain ⟨hn, he, hes⟩ := h
    have hkept : n + ((cs.drop n).take (e.start - n)).length = e.start := by
      rw [length_front hn (Nat.le_trans he hes.le)]
      omega
    have hgone : e.start + (e.replaced cs).length = e.stop := by
      rw [length_replaced he hes.le]
      omega
    have hlater : ∀ d ∈ e :: es, e.start ≤ d.start :=
      List.forall_mem_cons.2 ⟨Nat.le_refl _, fun d hd => Nat.le_trans he (hes.start_le d hd)⟩
    calc splice cs n (e :: es)
        = (cs.drop n).take (e.start - n) ++ (e.text ++ interleave es e.stop (cs.drop e.stop)) := by
          rw [splice, ih hes, List.append_assoc]
      _ = (cs.drop n).take (e.start - n) ++
          interleave (e :: es) e.start (e.replaced cs ++ cs.drop e.stop) := by
          rw [interleave_edit _ _ hgone hes.start_le]
      _ = interleave (e :: es) n (cs.drop n) := by
          have hfront := interleave_kept ((cs.drop n).take (e.start - n))
            (e.replaced cs ++ cs.drop e.stop) (hkept.symm ▸ hlater)
          rw [← drop_eq_append hn he, hkept] at hfront
          exact hfront.symm

/-! ## Edits of a text that holds what they replace -/

/-- One edit of a text, unless the text ends in front of what is replaced. -/
def applyWithin? (cs : List Char) (e : Edit) : Option (List Char) :=
  if e.start ≤ e.stop ∧ e.stop ≤ cs.length then some (apply cs e) else none

/-- All edits of a text, unless one of them goes beyond the text it comes to. -/
def applyAllWithin? (cs : List Char) (es : List Edit) : Option (List Char) :=
  (sorted es).reverse.foldlM applyWithin? cs

/-- The text in front of an edit is there still when the edits behind it are made. -/
theorem foldlM_applyWithin? (h : InOrder cs.length n es) :
    es.reverse.foldlM applyWithin? cs = some (es.reverse.foldl apply cs) := by
  induction es generalizing n with
  | nil => rfl
  | cons e es ih =>
    obtain ⟨-, he, hes⟩ := h
    have hlen : e.stop ≤ (es.reverse.foldl apply cs).length := by
      have := hes.le
      rw [foldl_apply_eq_splice hes, List.length_append, List.length_take]
      omega
    have hwithin : applyWithin? (es.reverse.foldl apply cs) e =
        some (apply (es.reverse.foldl apply cs) e) := if_pos ⟨he, hlen⟩
    rw [List.reverse_cons, List.foldlM_append, ih hes, List.foldl_append]
    simp only [Option.bind_eq_bind, Option.bind_some, List.foldlM_cons, List.foldlM_nil, hwithin]
    rfl

/-- Edits of a text that do not overlap leave it as it is read from left to right, with their texts
in the place of what they replace and those at one position in their order. Of the edits that start
at one position only the one listed last may replace anything. -/
theorem applyAll_interleaves (hs : ∀ e ∈ es, e.start ≤ e.stop ∧ e.stop ≤ cs.length)
    (hb : es.Pairwise Beside) (hl : es.Pairwise fun a b => a.start = b.start → a.stop = a.start) :
    applyAll cs es = interleave es 0 cs ∧ applyAllWithin? cs es = some (interleave es 0 cs) := by
  have ho := inOrder_sorted_of_beside hs hb hl
  have hsame : interleave (sorted es) 0 cs = interleave es 0 cs :=
    interleave_congr (fun j _ => ⟨textsAt_sorted es j, replaces_sorted es j⟩) cs
  have hall : applyAll cs es = interleave es 0 cs := by
    rw [applyAll_eq_splice ho, splice_eq_interleave ho, List.drop_zero, hsame]
  refine ⟨hall, ?_⟩
  rw [applyAllWithin?, foldlM_applyWithin? ho, ← hall, applyAll]

/-- Insertions around a letter that is replaced. -/
theorem applyAll_interleaves_ties :
    let es : List Edit := [.insert 1 ['1'], .insert 0 ['0'], .insert 1 ['2'], ⟨0, 1, ['A']⟩]
    (∀ e ∈ es, e.start ≤ e.stop ∧ e.stop ≤ ['a', 'b'].length) ∧ es.Pairwise Beside ∧
      (es.Pairwise fun a b => a.start = b.start → a.stop = a.start) ∧
      applyAll ['a', 'b'] es = ['0', 'A', '1', '2', 'b'] := by
  intro es
  have hs : ∀ e ∈ es, e.start ≤ e.stop ∧ e.stop ≤ ['a', 'b'].length := by decide
  have hb : es.Pairwise Beside := by decide
  have hl : es.Pairwise fun a b => a.start = b.start → a.stop = a.start := by decide
  exact ⟨hs, hb, hl, (applyAll_interleaves hs hb hl).1⟩

/-- A replacement that is listed in front of an insertion at its start swallows the insertion. -/
example : applyAll ['a', 'b'] [⟨0, 1, ['A']⟩, .insert 0 ['0']] = ['A', 'a', 'b'] := by cbv

end Docsmith.Source.Edit
