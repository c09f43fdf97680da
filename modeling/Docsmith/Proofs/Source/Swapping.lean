import Docsmith.Proofs.Source.Weaving
import Mathlib.Algebra.Ring.Nat

/-!
# Items in the place of a gap

Where outlines have grown at a closing brace, the trees woven of them differ in one list only, which
holds the new items in the place of the blanks and comments in front of its brace.

* `Tree.Swaps`: a tree with another one at a position;
* `Filling.swapped_of_grown`: one outline, by induction on how it has grown;
* `Filling.swaps_ofOutline`: the tree of a whole file.
-/

namespace Docsmith.Source

variable {ls ms : List (TokenKind × Nat)} {us vs gap : List Token}

/-- A token that is neither blank nor comment is told by the number of those behind it. -/
theorem append_cons_inj {us vs us' vs' : List Token} {t t' : Token}
    (h : us ++ t :: vs = us' ++ t' :: vs') (ht : t.kind.isTrivia = false)
    (ht' : t'.kind.isTrivia = false) (hcount : solidCount vs = solidCount vs') :
    us = us' ∧ t = t' ∧ vs = vs' := by
  have hlt {ws ws' : List Token} {x : Token} (hx : x.kind.isTrivia = false) :
      solidCount ws' < solidCount (ws ++ x :: ws') := by
    simp only [solidCount, List.countP_append, List.countP_cons_of_pos, hx, Bool.not_false]
    omega
  rcases List.append_eq_append_iff.1 h with ⟨ws, rfl, hws⟩ | ⟨ws, rfl, hws⟩
  · cases ws with
    | nil =>
      obtain ⟨rfl, rfl⟩ := List.cons.inj hws
      exact ⟨(List.append_nil _).symm, rfl, rfl⟩
    | cons w ws =>
      obtain ⟨-, rfl⟩ := List.cons.inj hws
      exact absurd hcount (Nat.ne_of_gt (hlt ht'))
  · cases ws with
    | nil =>
      obtain ⟨rfl, rfl⟩ := List.cons.inj hws
      exact ⟨List.append_nil _, rfl, rfl⟩
    | cons w ws =>
      obtain ⟨-, rfl⟩ := List.cons.inj hws
      exact absurd hcount (Nat.ne_of_lt (hlt ht))

namespace Lays

theorem solidCount_eq (h : Lays ls us) : solidCount us = (ls.map (·.2)).sum := by
  induction h with
  | nil hgap => exact solidCount_of_trivial hgap
  | @cons kind gap run ts t ls hgap _ hrun _ ih =>
    have hcount := List.countP_eq_length.2 fun t ht => (congrArg (! ·) (hrun t ht) :)
    rw [solidCount_append, solidCount_append, solidCount_of_trivial hgap, ih, solidCount, hcount]
    simp

/-- Leaves can be parted at one of them. -/
theorem split {kind : TokenKind} {width : Nat} (h : Lays (ls ++ (kind, width + 1) :: ms) us) :
    ∃ vs t ws, us = vs ++ t :: ws ∧ Lays ls vs ∧ t.kind.isTrivia = false ∧
      solidCount ws = width + (ms.map (·.2)).sum := by
  generalize hall : ls ++ (kind, width + 1) :: ms = all at h
  induction h generalizing ls with
  | nil => simp at hall
  | @cons kind' gap run ts t ls' hgap hhead hrun h ih =>
    cases ls with
    | nil =>
      obtain ⟨he, rfl⟩ := List.cons.inj hall
      obtain ⟨rfl, hwidth⟩ := Prod.mk.inj he
      refine ⟨gap, t, run ++ ts, by simp, .nil hgap, hrun t (List.mem_cons_self ..), ?_⟩
      have hcount : solidCount run = run.length :=
        List.countP_eq_length.2 fun t ht => by simp [hrun t (List.mem_cons_of_mem _ ht)]
      rw [solidCount, List.countP_append, ← solidCount, ← solidCount, hcount, h.solidCount_eq]
      omega
    | cons l ls =>
      obtain ⟨rfl, hrest⟩ := List.cons.inj hall
      obtain ⟨vs, t', ws, rfl, hvs, ht', hcount⟩ := ih hrest
      exact ⟨gap ++ t :: run ++ vs, t', ws, by simp, .cons hgap hhead hrun hvs, ht', hcount⟩

/-- Blanks and comments at the end may be left out. -/
theorem of_append (h : Lays ls (us ++ gap)) (hgap : Trivial gap) : Lays ls us := by
  generalize hall : us ++ gap = all at h
  induction h generalizing us with
  | nil h => exact .nil fun t ht => h t (hall ▸ List.mem_append_left _ ht)
  | @cons kind gap' run ts t ls hgap' hhead hrun h ih =>
    rcases List.append_eq_append_iff.1 hall with ⟨ws, hws, hgap''⟩ | ⟨ws, rfl, hts⟩
    · -- the tokens of the leaf are none of those at the end
      rcases List.eq_nil_or_concat ws with rfl | ⟨ws, w, rfl⟩
      · rw [List.append_nil] at hws
        subst hws
        have hnil : Lays ls [] := ih hgap''
        have h := Lays.cons hgap' hhead hrun hnil
        rwa [List.append_nil] at h
      · have hw : (gap' ++ t :: run).getLast? = some w := by
          rw [hws, List.concat_eq_append, ← List.append_assoc, List.getLast?_concat]
        rw [List.getLast?_append_of_ne_nil _ (List.cons_ne_nil t run)] at hw
        have hsolid := hrun w (List.mem_of_getLast? hw)
        rw [hgap w (hgap'' ▸ by simp)] at hsolid
        cases hsolid
    · exact .cons hgap' hhead hrun (ih hts.symm)

end Lays

namespace Tree

/-- The second tree, which starts at a position, is the first with `b` in the place of the tree `a`
at position `p`. -/
inductive Swaps (p : Nat) (a b : Tree) : Nat → Tree → Tree → Prop
  | here : Swaps p a b p a b
  | inside {n : Nat} {t t' : Tree} (kind : NodeKind) (front back : List Tree) :
      Swaps p a b (n + widthAll front) t t' →
      Swaps p a b n (.node kind (front ++ t :: back)) (.node kind (front ++ t' :: back))

/-- The same for trees that stand one behind the other. -/
inductive SwapsAll (p : Nat) (a b : Tree) : Nat → List Tree → List Tree → Prop
  | mk {n : Nat} {t t' : Tree} (front back : List Tree) : Swaps p a b (n + widthAll front) t t' →
      SwapsAll p a b n (front ++ t :: back) (front ++ t' :: back)

theorem widthAll_append (ts us : List Tree) : widthAll (ts ++ us) = widthAll ts + widthAll us := by
  induction ts with
  | nil => simp [widthAll]
  | cons t ts ih => simp only [List.cons_append, widthAll, ih, Nat.add_assoc]

namespace SwapsAll

variable {p n : Nat} {a b : Tree} {ts us : List Tree}

theorem inside (kind : NodeKind) (h : SwapsAll p a b n ts us) :
    Swaps p a b n (.node kind ts) (.node kind us) := by
  cases h with
  | mk front back h => exact .inside kind front back h

theorem behind (front : List Tree) (h : SwapsAll p a b (n + widthAll front) ts us) :
    SwapsAll p a b n (front ++ ts) (front ++ us) := by
  cases h with
  | mk front' back h =>
    rw [Nat.add_assoc, ← widthAll_append] at h
    rw [← List.append_assoc, ← List.append_assoc]
    exact .mk (front ++ front') back h

theorem before (h : SwapsAll p a b n ts us) (back : List Tree) :
    SwapsAll p a b n (ts ++ back) (us ++ back) := by
  cases h with
  | mk front back' h =>
    rw [List.append_assoc, List.append_assoc]
    exact .mk front (back' ++ back) h

end SwapsAll

end Tree

namespace Outline

open Tree (SwapsAll Swaps)

theorem weaveAll_cat (os ps : List Outline) (ts : List Token) :
    weaveAll (os ++ ps) ts = ((weaveAll os ts).1 ++ (weaveAll ps (weaveAll os ts).2).1,
      (weaveAll ps (weaveAll os ts).2).2) := by
  induction os generalizing ts with
  | nil => rfl
  | cons o os ih => simp only [List.cons_append, weaveAll, ih, List.append_assoc]

mutual

/-- The tokens of an outline are those of its leaves. -/
theorem sum_leaves : ∀ o : Outline, (o.leaves.map (·.2)).sum = o.size
  | .leaf _ _ => Nat.add_zero _
  | .node _ cs => sum_leavesAll cs

theorem sum_leavesAll : ∀ os : List Outline, ((leavesAll os).map (·.2)).sum = sizeAll os
  | [] => rfl
  | o :: os => by
    rw [leavesAll, List.map_append, List.sum_append, sum_leaves, sum_leavesAll, sizeAll]

end

/-- A list of associated items with its closing brace. -/
def closedList (inside : List Tree) (brace : Token) : Tree :=
  .node .assocItemList (inside ++ [joined .rCurly [brace]])

/-- Tokens `fresh` are put in the place of blanks and comments in front of a brace, and read as
items. -/
structure Filling where
  items : List Outline
  gap : List Token
  fresh : List Token
  brace : Token
  behind : List Token
  /-- What the new items are. -/
  Fine : List Tree → Prop
  trivial_gap : Trivial gap
  kind_brace : brace.kind = .rCurly
  woven : ∀ rest, Trivial rest → ∃ added, Fine added ∧
    weaveAll (items ++ [.leaf .rCurly 1]) (rest ++ fresh ++ brace :: behind) =
      (added ++ [joined .rCurly [brace]], behind)

namespace Filling

variable (F : Filling)

/-- The tokens from the gap on. -/
def old : List Token := F.gap ++ F.brace :: F.behind

/-- The tokens from the items on. -/
def new : List Token := F.fresh ++ F.brace :: F.behind

/-- What is woven over `us` and the tokens behind is the same, but for a list with the items. -/
def Swapped (us : List Token) (one other : List Tree × List Token) : Prop :=
  one.2 = other.2 ∧ ∀ n, ∃ p kids gap added, Trivial gap ∧ F.Fine added ∧
    SwapsAll p (closedList (kids ++ gap.map Tree.ofToken) F.brace)
      (closedList (kids ++ added) F.brace) n one.1 other.1 ∧
    p + Tree.widthAll kids + (Token.concat gap).length = n + (Token.concat (us ++ F.gap)).length

variable {F} {us : List Token} {ls : List (TokenKind × Nat)}

theorem weave_brace {rest : List Token} (hrest : Trivial rest) :
    weave (.leaf .rCurly 1) (rest ++ F.old) =
      ((rest ++ F.gap).map Tree.ofToken ++ [joined .rCurly [F.brace]], F.behind) := by
  have h := weave_leaf .rCurly (List.forall_mem_append.2 ⟨hrest, F.trivial_gap⟩) rfl
    (by rw [F.kind_brace]; rfl) [] F.behind
  rw [List.append_assoc, List.append_assoc] at h
  exact h

/-- In a list that has grown, the items stand where the blanks and comments were. -/
theorem swapped_here (front : List Outline) {last : Outline} (hlast : EndsInToken last)
    (h : Lays (leavesAll (front ++ [last])) us) :
    F.Swapped us (weave (.node .assocItemList (front ++ [last] ++ [.leaf .rCurly 1])) (us ++ F.old))
      (weave (.node .assocItemList (front ++ [last] ++ F.items ++ [.leaf .rCurly 1]))
        (us ++ F.new)) := by
  rw [← List.append_nil (leavesAll _)] at h
  have hne : leavesAll (front ++ [last]) ++ [] ≠ [] := by
    rw [List.append_nil, leavesAll_append, leavesAll]
    exact List.append_ne_nil_of_right_ne_nil _ (List.append_ne_nil_of_left_ne_nil hlast.leaves_ne _)
  obtain ⟨gap, x, us', rfl, hgap, hx⟩ := h.exists_solid hne
  have h := h.dropWhile
  rw [dropWhile_trivia hgap hx] at h
  obtain ⟨kids, rest, hrest, hw⟩ := weaveAll_append _ h (.inr (.inr ⟨front, last, rfl, hlast⟩))
  have hrest : Trivial rest := by
    cases hrest with
    | nil hrest => exact hrest
  obtain ⟨added, hfine, hadded⟩ := F.woven rest hrest
  rw [List.append_assoc] at hadded
  have htext := weaveAll_text (front ++ [last]) (x :: us')
  have hw' := hw []
  rw [List.append_nil, List.append_nil] at hw'
  rw [hw'] at htext
  obtain ⟨before, own, hgap', hnode⟩ := gapBefore_eq .assocItemList gap
  rw [List.append_assoc gap, List.append_assoc gap, List.cons_append, List.cons_append,
    weave_node_of_solid _ _ hgap hx, weave_node_of_solid _ _ hgap hx, hnode,
    List.append_assoc (front ++ [last]) F.items, weaveAll_cat _ [_], weaveAll_cat _ (F.items ++ _),
    ← List.cons_append, ← List.cons_append, hw, hw, weaveAll_singleton, weave_brace hrest, new, hadded]
  refine ⟨rfl, fun n => ⟨n + (Token.concat before).length, own.map Tree.ofToken ++ kids,
    rest ++ F.gap, added, List.forall_mem_append.2 ⟨hrest, F.trivial_gap⟩, hfine, ?_, ?_⟩⟩
  · rw [← widthAll_map_ofToken]
    have h : Swaps (n + Tree.widthAll (before.map Tree.ofToken))
        (closedList (own.map Tree.ofToken ++ kids ++ (rest ++ F.gap).map Tree.ofToken) F.brace)
        (closedList (own.map Tree.ofToken ++ kids ++ added) F.brace) _ _ _ := .here
    have h := SwapsAll.mk (before.map Tree.ofToken) [] h
    simpa [closedList] using h
  · have h := congrArg List.length htext
    have hg := congrArg (fun ts => (Token.concat ts).length) hgap'
    simp only [Token.concat_append, Token.concat_cons, List.length_append, Tree.length_textAll,
      Tree.widthAll_append, widthAll_map_ofToken] at h hg ⊢
    omega

/-- What is swapped inside a node. -/
theorem Swapped.node {gap : List Token} {x : Token} {cs cs' : List Outline} (kind : NodeKind)
    (hgap : Trivial gap) (hx : x.kind.isTrivia = false)
    (h : F.Swapped (x :: us) (weaveAll cs (x :: us ++ F.old)) (weaveAll cs' (x :: us ++ F.new))) :
    F.Swapped (gap ++ x :: us) (weave (.node kind cs) (gap ++ x :: us ++ F.old))
      (weave (.node kind cs') (gap ++ x :: us ++ F.new)) := by
  obtain ⟨before, own, hgap', hnode⟩ := gapBefore_eq kind gap
  rw [List.append_assoc gap, List.append_assoc gap, List.cons_append, List.cons_append,
    weave_node_of_solid _ _ hgap hx, weave_node_of_solid _ _ hgap hx, hnode]
  refine ⟨h.1, fun n => ?_⟩
  obtain ⟨p, kids, gap', added, htrivial, hfine, hswaps, hp⟩ :=
    h.2 (n + (Token.concat before).length + (Token.concat own).length)
  refine ⟨p, kids, gap', added, htrivial, hfine, ?_, ?_⟩
  · rw [← widthAll_map_ofToken, ← widthAll_map_ofToken] at hswaps
    exact .mk _ [] ((hswaps.behind _).inside kind)
  · have hg := congrArg (fun ts => (Token.concat ts).length) hgap'
    simp only [Token.concat_append, Token.concat_cons, List.length_append] at hg hp ⊢
    omega

/-- One of several outlines has grown. -/
theorem swapped_among (front back : List Outline) {o o' : Outline} (hne : ls ≠ [])
    (h : Lays (leavesAll front ++ ls) us)
    (ho : ∀ us, Lays ls us → F.Swapped us (weave o (us ++ F.old)) (weave o' (us ++ F.new))) :
    F.Swapped us (weaveAll (front ++ o :: back) (us ++ F.old))
      (weaveAll (front ++ o' :: back) (us ++ F.new)) := by
  obtain ⟨kids, rest, hrest, hw⟩ := weaveAll_append front h (.inl hne)
  obtain ⟨hbehind, hswaps⟩ := ho rest hrest
  have htext := weaveAll_text front us
  have hw' := hw []
  rw [List.append_nil, List.append_nil] at hw'
  rw [hw'] at htext
  rw [weaveAll_cat, weaveAll_cat, hw, hw, weaveAll, weaveAll]
  refine ⟨congrArg (fun ts => (weaveAll back ts).2) hbehind, fun n => ?_⟩
  obtain ⟨p, kids', gap, added, htrivial, hfine, hswaps, hp⟩ := hswaps (n + Tree.widthAll kids)
  refine ⟨p, kids', gap, added, htrivial, hfine, ?_, ?_⟩
  · simp only [hbehind]
    exact (hswaps.before _).behind kids
  · have h := congrArg List.length htext
    simp only [Token.concat_append, List.length_append, Tree.length_textAll] at h hp ⊢
    omega

/-- Where an outline has grown, the items stand. -/
theorem swapped_of_grown {j : Nat} {o o' : Outline} (h : Grown F.items j o o') :
    ∃ ls ms, o.leaves = ls ++ (.rCurly, 1) :: ms ∧ (ms.map (·.2)).sum = j ∧ ls ≠ [] ∧
      ∀ us, Lays ls us → F.Swapped us (weave o (us ++ F.old)) (weave o' (us ++ F.new)) := by
  induction h with
  | @here front last hlast =>
    refine ⟨leavesAll (front ++ [last]), [], ?_, rfl, ?_, fun us h => swapped_here front hlast h⟩
    · rw [leaves, leavesAll_append _ [_]]
      rfl
    · rw [leavesAll_append, leavesAll]
      exact List.append_ne_nil_of_right_ne_nil _
        (List.append_ne_nil_of_left_ne_nil hlast.leaves_ne _)
  | @inside j o o' kind front back h ih =>
    obtain ⟨ls, ms, hleaves, hsum, hne, hswaps⟩ := ih
    refine ⟨leavesAll front ++ ls, ms ++ leavesAll back, ?_, ?_,
      List.append_ne_nil_of_right_ne_nil _ hne, fun us h => ?_⟩
    · rw [leaves, leavesAll_append, leavesAll, hleaves]
      simp
    · rw [List.map_append, List.sum_append, hsum, sum_leavesAll]
    · obtain ⟨gap, x, us, rfl, hgap, hx⟩ :=
        h.exists_solid (List.append_ne_nil_of_right_ne_nil _ hne)
      have h := h.dropWhile
      rw [dropWhile_trivia hgap hx] at h
      exact (swapped_among front back hne h hswaps).node kind hgap hx

/-- Where one of several outlines has grown, the items stand. -/
theorem swapped_of_grownAll {j : Nat} {os os' : List Outline} (h : GrownAll F.items j os os') :
    ∃ ls ms, leavesAll os = ls ++ (.rCurly, 1) :: ms ∧ (ms.map (·.2)).sum = j ∧
      ∀ us, Lays ls us → F.Swapped us (weaveAll os (us ++ F.old)) (weaveAll os' (us ++ F.new)) := by
  cases h with
  | mk front back h =>
    obtain ⟨ls, ms, hleaves, hsum, hne, hswaps⟩ := swapped_of_grown h
    refine ⟨leavesAll front ++ ls, ms ++ leavesAll back, ?_, ?_,
      fun us h => swapped_among front back hne h hswaps⟩
    · rw [leavesAll_append, leavesAll, hleaves]
      simp
    · rw [List.map_append, List.sum_append, hsum, sum_leavesAll]

/-- The tree of a file in which a list has grown. -/
theorem swaps_ofOutline {os os' : List Outline}
    (hgrown : GrownAll F.items (solidCount F.behind) os os')
    (h : Lays (leavesAll os) (us ++ F.old)) :
    ∃ p kids gap added, Trivial gap ∧ F.Fine added ∧
      Swaps p (closedList (kids ++ gap.map Tree.ofToken) F.brace)
        (closedList (kids ++ added) F.brace) 0
        (Tree.ofOutline os (us ++ F.old)) (Tree.ofOutline os' (us ++ F.new)) ∧
      p + Tree.widthAll kids + (Token.concat gap).length = (Token.concat (us ++ F.gap)).length := by
  obtain ⟨ls, ms, hleaves, hsum, hswaps⟩ := swapped_of_grownAll hgrown
  have hlays : Lays ls us := by
    rw [hleaves] at h
    obtain ⟨us', t, ws, hts, hlays, ht, hcount⟩ := h.split
    rw [hsum, Nat.zero_add] at hcount
    rw [old, ← List.append_assoc] at hts
    have hbrace : F.brace.kind.isTrivia = false := by rw [F.kind_brace]; rfl
    obtain ⟨rfl, -, -⟩ := append_cons_inj hts hbrace ht hcount.symm
    exact hlays.of_append F.trivial_gap
  obtain ⟨hbehind, hall⟩ := hswaps us hlays
  obtain ⟨p, kids, gap, added, htrivial, hfine, hswaps, hp⟩ := hall 0
  refine ⟨p, kids, gap, added, htrivial, hfine, ?_, hp.trans (Nat.zero_add _)⟩
  have hinside := (hswaps.before ((weaveAll os (us ++ F.old)).2.map Tree.ofToken)).inside .sourceFile
  conv at hinside => arg 6; rw [hbehind]
  exact hinside

end Filling

end Outline

end Docsmith.Source
