import Docsmith.Proofs.Source.Weaving

/-!
# Where tokens sit

Each token of a file stands directly in one node of its tree, and the outlines tell in which.

* `seats_weave`: the nodes that tokens sit in, by induction on the outline;
* `Tree.seats_ofOutline`: the same for a whole file;
* `Seats.exists_place`: so a leaf of the tree has its place among the tokens.
-/

namespace Docsmith.Source

open Grammar (Heads)

variable {ls ms : List (TokenKind × Nat)} {ts us vs gap run : List Token} {t : Token}

namespace Tree

mutual

/-- The tokens of a tree in order, each with the kind of the node it stands directly in. -/
def seatsFrom (outer : Option NodeKind) : Nat → Tree → List (Option NodeKind × Leaf)
  | n, .token k s => [(outer, ⟨n, k, s⟩)]
  | n, .node k cs => seatsAllFrom (some k) n cs

def seatsAllFrom (outer : Option NodeKind) : Nat → List Tree → List (Option NodeKind × Leaf)
  | _, [] => []
  | n, t :: ts => seatsFrom outer n t ++ seatsAllFrom outer (n + t.width) ts

end

theorem seatsAllFrom_append (outer : Option NodeKind) (n : Nat) (ts us : List Tree) :
    seatsAllFrom outer n (ts ++ us) =
      seatsAllFrom outer n ts ++ seatsAllFrom outer (n + widthAll ts) us := by
  induction ts generalizing n with
  | nil => rfl
  | cons t ts ih =>
    rw [List.cons_append, seatsAllFrom, seatsAllFrom, ih, List.append_assoc, widthAll, Nat.add_assoc]

mutual

theorem map_seatsFrom (n : Nat) : ∀ (outer : Option NodeKind) (t : Tree),
    (seatsFrom outer n t).map (·.2) = (t.leavesFrom n).reduceOption
  | _, .token _ _ => rfl
  | _, .node _ [] => rfl
  | _, .node k (t :: ts) => map_seatsAllFrom n (some k) (t :: ts)

theorem map_seatsAllFrom (n : Nat) : ∀ (outer : Option NodeKind) (ts : List Tree),
    (seatsAllFrom outer n ts).map (·.2) = (leavesAllFrom n ts).reduceOption
  | _, [] => rfl
  | _, t :: ts => by
    rw [seatsAllFrom, List.map_append, map_seatsFrom, map_seatsAllFrom, leavesAllFrom,
      List.reduceOption_append]

end

theorem mem_seatsAllFrom {outer : Option NodeKind} {n : Nat} {ts : List Tree} {a : Leaf}
    (h : a ∈ (Located.locate n ts).filterMap Located.leaf?) :
    (outer, a) ∈ seatsAllFrom outer n ts := by
  induction ts generalizing n with
  | nil => cases h
  | cons t ts ih =>
    rw [Located.locate, List.filterMap_cons] at h
    rw [seatsAllFrom, List.mem_append]
    cases t with
    | node k cs => exact .inr (ih h)
    | token k s =>
      rcases List.mem_cons.1 h with rfl | h
      · exact .inl (List.mem_singleton_self _)
      · exact .inr (ih h)

mutual

/-- A token directly inside a node sits there. -/
theorem mem_seatsFrom_of_mem_ownLeaves {l : Located} {a : Leaf} (ha : a ∈ l.ownLeaves) (n : Nat) :
    ∀ (outer : Option NodeKind) (t : Tree), l ∈ t.nodesFrom n →
      (l.kind?, a) ∈ seatsFrom outer n t
  | _, .token _ _, hl => by cases hl
  | _, .node k cs, hl => by
    rcases List.mem_cons.1 hl with rfl | hl
    · exact mem_seatsAllFrom ha
    · exact mem_seatsAllFrom_of_mem_ownLeaves ha n (some k) cs hl

theorem mem_seatsAllFrom_of_mem_ownLeaves {l : Located} {a : Leaf} (ha : a ∈ l.ownLeaves)
    (n : Nat) : ∀ (outer : Option NodeKind) (ts : List Tree), l ∈ nodesAllFrom n ts →
      (l.kind?, a) ∈ seatsAllFrom outer n ts
  | _, [], hl => by cases hl
  | outer, t :: ts, hl => by
    rw [nodesAllFrom, List.mem_append] at hl
    rw [seatsAllFrom, List.mem_append]
    rcases hl with hl | hl
    · exact .inl (mem_seatsFrom_of_mem_ownLeaves ha n outer t hl)
    · exact .inr (mem_seatsAllFrom_of_mem_ownLeaves ha _ outer ts hl)

end

end Tree

/-- The leaves of a tree as they lie over tokens: blanks and comments as they are, and the tokens
under each leaf of the outlines joined. -/
inductive Seats : Nat → List (Option NodeKind × Leaf) → List (Option NodeKind) →
    List (TokenKind × Nat) → List Token → Prop
  | nil (n : Nat) : Seats n [] [] [] []
  | trivial {n : Nat} {es : List (Option NodeKind × Leaf)} {hs : List (Option NodeKind)}
      {ls : List (TokenKind × Nat)} {t : Token} {ts : List Token} (h : Option NodeKind) :
      t.kind.isTrivia = true → Seats (n + t.text.length) es hs ls ts →
      Seats n ((h, ⟨n, t.kind, t.text⟩) :: es) hs ls (t :: ts)
  | solid {n : Nat} {es : List (Option NodeKind × Leaf)} {hs : List (Option NodeKind)}
      {ls : List (TokenKind × Nat)} {kind : TokenKind} {t : Token} {run ts : List Token}
      (h : Option NodeKind) :
      Heads t.kind kind → Solid (t :: run) →
      Seats (n + (Token.concat (t :: run)).length) es hs ls ts →
      Seats n ((h, ⟨n, kind, String.ofList (Token.concat (t :: run))⟩) :: es)
        (List.replicate (run.length + 1) h ++ hs) ((kind, run.length + 1) :: ls) (t :: run ++ ts)

namespace Seats

variable {n : Nat} {es fs : List (Option NodeKind × Leaf)} {hs is : List (Option NodeKind)}

theorem append (h : Seats n es hs ls ts) (h' : Seats (n + (Token.concat ts).length) fs is ms us) :
    Seats n (es ++ fs) (hs ++ is) (ls ++ ms) (ts ++ us) := by
  induction h with
  | nil n => exact h'
  | trivial h ht _ ih =>
    rw [Token.concat_cons, List.length_append, String.length_toList, ← Nat.add_assoc] at h'
    exact .trivial h ht (ih h')
  | solid h hhead hrun _ ih =>
    rw [Token.concat_append, List.length_append, ← Nat.add_assoc] at h'
    rw [List.append_assoc, List.append_assoc]
    exact .solid h hhead hrun (ih h')

theorem of_trivial (h : Trivial gap) (outer : Option NodeKind) (n : Nat) :
    Seats n (Tree.seatsAllFrom outer n (gap.map Tree.ofToken)) [] [] gap := by
  induction gap generalizing n with
  | nil => exact .nil n
  | cons t gap ih =>
    obtain ⟨ht, h⟩ := List.forall_mem_cons.1 h
    exact .trivial outer ht (ih h _)

theorem lays (h : Seats n es hs ls ts) : Lays ls ts := by
  induction h with
  | nil => exact .nil (by simp [Trivial])
  | @trivial n es hs ls t ts h ht _ ih =>
    cases ih with
    | nil hgap => exact .nil (List.forall_mem_cons.2 ⟨ht, hgap⟩)
    | cons hgap hhead hrun ih => exact .cons (List.forall_mem_cons.2 ⟨ht, hgap⟩) hhead hrun ih
  | solid h hhead hrun _ ih => exact ih.first hhead hrun

/-- There is a holder for each token that is neither blank nor comment. -/
theorem length_eq (h : Seats n es hs ls ts) : hs.length = solidCount ts := by
  induction h with
  | nil => rfl
  | trivial h ht _ ih => rw [ih, solidCount, solidCount, List.countP_cons_of_neg (by simp [ht])]
  | solid h _ hrun _ ih =>
    have hcount := List.countP_eq_length.2 fun t ht => (congrArg (! ·) (hrun t ht) :)
    rw [List.length_append, List.length_replicate, ih, solidCount, solidCount, List.countP_append,
      hcount, List.length_cons]

theorem split {es fs : List (Option NodeKind × Leaf)} (h : Seats n (es ++ fs) hs ls ts) :
    ∃ hs₁ hs₂ ls₁ ls₂ us vs, hs = hs₁ ++ hs₂ ∧ ls = ls₁ ++ ls₂ ∧ ts = us ++ vs ∧
      Seats n es hs₁ ls₁ us ∧ Seats (n + (Token.concat us).length) fs hs₂ ls₂ vs := by
  induction es generalizing n hs ls ts with
  | nil => exact ⟨[], hs, [], ls, [], ts, rfl, rfl, rfl, .nil n, h⟩
  | cons e es ih =>
    cases h with
    | @trivial _ _ _ _ t ts h ht hes =>
      obtain ⟨hs₁, hs₂, ls₁, ls₂, us, vs, rfl, rfl, rfl, hes, hfs⟩ := ih hes
      refine ⟨hs₁, hs₂, ls₁, ls₂, t :: us, vs, rfl, rfl, rfl, .trivial h ht hes, ?_⟩
      rwa [Token.concat_cons, List.length_append, String.length_toList, ← Nat.add_assoc]
    | @solid _ _ _ _ kind t run ts h hhead hrun hes =>
      obtain ⟨hs₁, hs₂, ls₁, ls₂, us, vs, rfl, rfl, rfl, hes, hfs⟩ := ih hes
      refine ⟨_, hs₂, _, ls₂, _, vs, ?_, ?_, ?_, .solid h hhead hrun hes, ?_⟩
      · rw [List.append_assoc]
      · rfl
      · rw [List.append_assoc]
      · rwa [Token.concat_append, List.length_append, ← Nat.add_assoc]

end Seats

namespace Outline

/-- Trees are as wide as the tokens they are woven of. -/
theorem widthAll_of_text {trees : List Tree} {rest taken : List Token}
    (h : Tree.textAll trees ++ Token.concat rest = Token.concat ts) (hts : ts = taken ++ rest) :
    Tree.widthAll trees = (Token.concat taken).length := by
  rw [hts, Token.concat_append] at h
  rw [← Tree.length_textAll, List.append_cancel_right h]

mutual

/-- The tokens that outlines are woven over sit in the nodes of the outlines. -/
theorem seats_weave (outer : Option NodeKind) (o : Outline) (n : Nat) {ls : List (TokenKind × Nat)}
    {ts : List Token} (h : Lays (o.leaves ++ ls) ts) :
    ∃ taken, ts = taken ++ (weave o ts).2 ∧ Lays ls (weave o ts).2 ∧
      Seats n (Tree.seatsAllFrom outer n (weave o ts).1) (o.holders outer) o.leaves taken := by
  cases o with
  | leaf kind width =>
    cases h with
    | @cons _ gap run ts t _ hgap hhead hrun h =>
      have ht := hrun _ (List.mem_cons_self ..)
      rw [weave_leaf kind hgap (hhead.isTrivia ▸ ht) ht]
      refine ⟨gap ++ t :: run, rfl, h, ?_⟩
      rw [Tree.seatsAllFrom_append, widthAll_map_ofToken, holders, leaves]
      refine (Seats.of_trivial hgap outer n).append ?_
      have h := Seats.solid (n := n + (Token.concat gap).length) outer hhead hrun (.nil _)
      rw [List.append_nil, List.append_nil] at h
      exact h
  | node kind cs =>
    obtain ⟨before, own, hgap, hnode⟩ := gapBefore_eq kind (ts.takeWhile (·.kind.isTrivia))
    have htrivial : Trivial (ts.takeWhile (·.kind.isTrivia)) :=
      fun _ ht => List.mem_takeWhile_imp (p := fun t : Token => t.kind.isTrivia) ht
    rw [hgap, Trivial, List.forall_mem_append] at htrivial
    obtain ⟨taken, htaken, hrest, hseats⟩ := seats_weaveAll (some kind) cs
      (n + (Token.concat before).length + (Token.concat own).length) h.dropWhile
    rw [weave_node, hnode]
    refine ⟨before ++ (own ++ taken), ?_, hrest, ?_⟩
    · rw [List.append_assoc, List.append_assoc, ← htaken, ← List.append_assoc, ← hgap,
        List.takeWhile_append_dropWhile]
    · rw [Tree.seatsAllFrom_append, widthAll_map_ofToken, holders, leaves]
      refine (Seats.of_trivial htrivial.1 outer n).append ?_
      rw [Tree.seatsAllFrom, Tree.seatsFrom, Tree.seatsAllFrom, List.append_nil,
        Tree.seatsAllFrom_append, widthAll_map_ofToken]
      exact (Seats.of_trivial htrivial.2 (some kind) _).append hseats

theorem seats_weaveAll (outer : Option NodeKind) (os : List Outline) (n : Nat)
    {ls : List (TokenKind × Nat)} {ts : List Token} (h : Lays (leavesAll os ++ ls) ts) :
    ∃ taken, ts = taken ++ (weaveAll os ts).2 ∧ Lays ls (weaveAll os ts).2 ∧
      Seats n (Tree.seatsAllFrom outer n (weaveAll os ts).1) (holdersAll outer os) (leavesAll os)
        taken := by
  cases os with
  | nil => exact ⟨[], rfl, h, .nil n⟩
  | cons o os =>
    rw [leavesAll, List.append_assoc] at h
    obtain ⟨first, hfirst, hrest, hseats⟩ := seats_weave outer o n h
    obtain ⟨more, hmore, hrest', hseats'⟩ := seats_weaveAll outer os
      (n + (Token.concat first).length) hrest
    have hwidth := widthAll_of_text (weave_text o ts) hfirst
    refine ⟨first ++ more, ?_, hrest', ?_⟩
    · rw [List.append_assoc]
      exact hfirst.trans (congrArg (first ++ ·) hmore)
    · rw [weaveAll, holdersAll, leavesAll, Tree.seatsAllFrom_append, hwidth]
      exact hseats.append hseats'

end

end Outline

/-! ## Read files -/

namespace Seats

variable {n : Nat} {es fs : List (Option NodeKind × Leaf)} {hs : List (Option NodeKind)}

/-- A token that is neither blank nor comment is the first of those joined in its leaf. -/
theorem cons_inv {h : Option NodeKind} {a : Leaf} (hk : a.kind.isTrivia = false)
    (hseats : Seats n ((h, a) :: es) hs ls ts) :
    ∃ hs' t run vs ls', hs = h :: hs' ∧ ls = (a.kind, run.length + 1) :: ls' ∧
      ts = t :: run ++ vs ∧ a.start = n ∧ a.text.toList = Token.concat (t :: run) ∧
      Heads t.kind a.kind ∧ Solid (t :: run) ∧ Lays ls' vs := by
  cases hseats with
  | trivial _ ht => exact absurd ht (by simp [hk])
  | solid _ hhead hrun h =>
    exact ⟨_, _, _, _, _, rfl, rfl, rfl, rfl, String.toList_ofList, hhead, hrun, h.lays⟩

/-- The tokens of a single leaf: one that is blank or a comment, or those joined in it. -/
theorem singleton_inv {h : Option NodeKind} {a : Leaf} (hseats : Seats n [(h, a)] hs ls ts) :
    a.start = n ∧ Token.concat ts = a.text.toList ∧
      ((∃ t, ts = [t] ∧ t.kind = a.kind) ∨ ts ≠ [] ∧ Solid ts ∧ a.kind.isTrivia = false) := by
  cases hseats with
  | trivial _ ht h =>
    cases h
    exact ⟨rfl, by simp [Token.concat], .inl ⟨_, rfl, rfl⟩⟩
  | solid _ hhead hrun h =>
    cases h
    rw [List.append_nil]
    refine ⟨rfl, String.toList_ofList.symm, .inr ⟨List.cons_ne_nil _ _, hrun, ?_⟩⟩
    rw [← hhead.isTrivia]
    exact hrun _ (List.mem_cons_self ..)

end Seats

theorem Tree.seats_ofOutline {os : List Outline} (h : Lays (Outline.leavesAll os) ts) :
    ∃ cs, ofOutline os ts = .node .sourceFile cs ∧
      Seats 0 (seatsAllFrom none 0 cs) (Outline.holdersAll none os) (Outline.leavesAll os) ts := by
  rw [← List.append_nil (Outline.leavesAll os)] at h ⊢
  obtain ⟨taken, htaken, hrest, hseats⟩ := Outline.seats_weaveAll none os 0 h
  refine ⟨_, rfl, ?_⟩
  have hgap : Trivial (Outline.weaveAll os ts).2 := by
    generalize (Outline.weaveAll os ts).2 = rest at hrest
    cases hrest with
    | nil hgap => exact hgap
  have hwidth := Outline.widthAll_of_text (Outline.weaveAll_text os ts) htaken
  have h := hseats.append (Seats.of_trivial hgap none _)
  rw [← htaken, List.append_nil, ← hwidth, ← seatsAllFrom_append] at h
  exact h

namespace Seats

variable {es fs : List (Option NodeKind × Leaf)} {hs : List (Option NodeKind)} {h : Option NodeKind}
  {a g : Leaf}

/-- Where a leaf sits among the tokens. -/
structure Place (es : List (Option NodeKind × Leaf)) (h : Option NodeKind) (a : Leaf)
    (hs : List (Option NodeKind)) (ls : List (TokenKind × Nat)) (ts front behind : List Token)
    (t : Token) : Prop where
  tokens : ts = front ++ t :: behind
  start : a.start = (Token.concat front).length
  heads : Heads t.kind a.kind
  solid : t.kind.isTrivia = false
  holder : hs[solidCount front]? = some h
  front : ∃ hs' ls' ls'', Seats 0 es hs' ls' front ∧ ls = ls' ++ ls''

theorem exists_place (hseats : Seats 0 (es ++ (h, a) :: fs) hs ls ts)
    (hk : a.kind.isTrivia = false) : ∃ front behind t, Place es h a hs ls ts front behind t := by
  obtain ⟨hs₁, hs₂, ls₁, ls₂, us, vs, rfl, rfl, rfl, hfront, hrest⟩ := hseats.split
  obtain ⟨hs', t, run, ws, ls', rfl, rfl, rfl, hstart, -, hhead, hsolid, -⟩ := cons_inv hk hrest
  refine ⟨us, run ++ ws, t, rfl, ?_, hhead, hsolid t (List.mem_cons_self ..), ?_, hs₁, ls₁, _,
    hfront, rfl⟩
  · rw [hstart, Nat.zero_add]
  · rw [← hfront.length_eq, List.getElem?_append_right (Nat.le_refl _), Nat.sub_self]
    rfl

/-- What sits in front of the place ends the tokens in front. -/
theorem Place.before {front behind : List Token} {h' : Option NodeKind}
    (hp : Place (es ++ [(h', g)]) h a hs ls ts front behind t) :
    ∃ front' run, front = front' ++ run ∧ g.start = (Token.concat front').length ∧
      Token.concat run = g.text.toList ∧
      ((∃ t, run = [t] ∧ t.kind = g.kind) ∨ run ≠ [] ∧ Solid run ∧ g.kind.isTrivia = false) := by
  obtain ⟨hs', ls', ls'', hfront, -⟩ := hp.front
  obtain ⟨hs₁, hs₂, ls₁, ls₂, us, vs, rfl, rfl, rfl, -, hlast⟩ := hfront.split
  obtain ⟨hstart, htext, hkinds⟩ := singleton_inv hlast
  exact ⟨us, vs, rfl, by rw [hstart, Nat.zero_add], htext, hkinds⟩

end Seats

end Docsmith.Source
