import Docsmith.Proofs.Source.Grammar.Steps

/-!
# Reading on behind a list that has grown

Two inputs that agree from some place on are read alike from there, whatever stands in the outlines
behind, as rules hardly look back. The second reading may have found more items at the end of one
list of associated items, and its rules may nest deeper.

* `Grown`: an outline and the same with more items at the end of one list;
* `Alike`: two states that differ in such a list only, or not at all;
* `alike_solve`: what is read from the one without a fault is read from the other.
-/

namespace Docsmith.Source

namespace Outline

/-- The last thing in the outline is a token. -/
inductive EndsInToken : Outline → Prop
  | leaf (kind : TokenKind) (width : Nat) : EndsInToken (.leaf kind (width + 1))
  | node (kind : NodeKind) (front : List Outline) {last : Outline} : EndsInToken last →
      EndsInToken (.node kind (front ++ [last]))

/-- The second outline has the items `new` at the end of one list of associated items. In both
outlines `j` tokens stand behind the brace that closes the list. -/
inductive Grown (new : List Outline) : Nat → Outline → Outline → Prop
  | here (front : List Outline) {last : Outline} : EndsInToken last →
      Grown new 0 (.node .assocItemList (front ++ [last] ++ [.leaf .rCurly 1]))
        (.node .assocItemList (front ++ [last] ++ new ++ [.leaf .rCurly 1]))
  | inside {j : Nat} {o o' : Outline} (kind : NodeKind) (front back : List Outline) :
      Grown new j o o' → Grown new (j + sizeAll back) (.node kind (front ++ o :: back))
        (.node kind (front ++ o' :: back))

/-- One of the outlines has grown. -/
inductive GrownAll (new : List Outline) : Nat → List Outline → List Outline → Prop
  | mk {j : Nat} {o o' : Outline} (front back : List Outline) : Grown new j o o' →
      GrownAll new (j + sizeAll back) (front ++ o :: back) (front ++ o' :: back)

namespace Grown

variable {new : List Outline} {j : Nat} {o' : Outline}

/-- What grows is a node, and stays one of its kind. More may stand at its front. -/
theorem exists_node {o : Outline} (h : Grown new j o o') :
    ∃ kind cs cs', o = .node kind cs ∧ o' = .node kind cs' ∧
      ∀ front, Grown new j (.node kind (front ++ cs)) (.node kind (front ++ cs')) := by
  cases h with
  | here cs hlast =>
    refine ⟨_, _, _, rfl, rfl, fun front => ?_⟩
    simp only [← List.append_assoc]
    exact .here (front ++ cs) hlast
  | inside kind cs back h =>
    refine ⟨_, _, _, rfl, rfl, fun front => ?_⟩
    simp only [← List.append_assoc]
    exact .inside kind (front ++ cs) back h

end Grown

namespace GrownAll

variable {new os os' : List Outline} {o o' : Outline} {j : Nat}

theorem single (h : Grown new j o o') : GrownAll new j [o] [o'] :=
  .mk [] [] h

theorem inside (kind : NodeKind) (h : GrownAll new j os os') :
    Grown new j (.node kind os) (.node kind os') := by
  cases h with
  | mk front back h => exact .inside kind front back h

theorem behind (front : List Outline) (h : GrownAll new j os os') :
    GrownAll new j (front ++ os) (front ++ os') := by
  cases h with
  | mk front' back h =>
    rw [← List.append_assoc, ← List.append_assoc]
    exact .mk (front ++ front') back h

theorem before (back : List Outline) (h : GrownAll new j os os') :
    GrownAll new (j + sizeAll back) (os ++ back) (os' ++ back) := by
  cases h with
  | mk front back' h =>
    rw [List.append_assoc, List.append_assoc, List.cons_append, List.cons_append, Nat.add_assoc,
      ← sizeAll_append]
    exact .mk front (back' ++ back) h

/-- The newest outline has grown, or one of the older. -/
theorem newest {siblings siblings' : List Outline}
    (h : GrownAll new j siblings.reverse siblings'.reverse) :
    (∃ o o' older, siblings = o :: older ∧ siblings' = o' :: older ∧ Grown new j o o') ∨
      ∃ o older older' i, siblings = o :: older ∧ siblings' = o :: older' ∧
        GrownAll new i older.reverse older'.reverse ∧ j = i + o.size := by
  generalize hall : siblings.reverse = all at h
  generalize hall' : siblings'.reverse = all' at h
  rw [List.reverse_eq_iff] at hall hall'
  cases h with
  | @mk i p p' front back h =>
    rcases List.eq_nil_or_concat back with rfl | ⟨back, last, rfl⟩
    · refine .inl ⟨p, p', front.reverse, ?_, ?_, h⟩
      · simpa using hall
      · simpa using hall'
    · refine .inr ⟨last, (front ++ p :: back).reverse, (front ++ p' :: back).reverse,
        i + sizeAll back, ?_, ?_, ?_, ?_⟩
      · simpa using hall
      · simpa using hall'
      · rw [List.reverse_reverse, List.reverse_reverse]
        exact .mk front back h
      · simp [sizeAll_append, sizeAll, Nat.add_assoc]

end GrownAll

end Outline

namespace Grammar

open TokenKind Outline

variable {α β : Type} {S T : Goal → Step Outcome} {new : List Outline} {N : Nat}

/-- Two states with the same input left. If a list has grown in the second, `N` tokens follow it,
and some of these are still to be read; else the states are the same. -/
inductive Alike (new : List Outline) (N : Nat) : Bool → State → State → Prop
  | same (s : State) : Alike new N false s s
  | grown {j : Nat} {siblings siblings' : List Outline} (rest : List Input)
      (faults : List String) : j + rest.length = N →
      GrownAll new j siblings.reverse siblings'.reverse →
      Alike new N true ⟨rest, siblings, faults⟩ ⟨rest, siblings', faults⟩

/-- What the first solver reads without a fault, the second one reads alike. -/
def SolveAlike (new : List Outline) (N : Nat) (S T : Goal → Step Outcome) : Prop :=
  ∀ grown g s t, Alike new N grown s t → (S g s).2.faults = s.faults →
    (T g t).1 = (S g s).1 ∧ Alike new N grown (S g s).2 (T g t).2

/-- What the rule reads without a fault is read alike from a state that is alike. -/
structure Repeats (new : List Outline) (N : Nat) (S T : Goal → Step Outcome) (r : Rule α) :
    Prop where
  moves (s : State) : Moves s (r S s).2
  again {grown : Bool} {s t : State} : Alike new N grown s t → (r S s).2.faults = s.faults →
    (r T t).1 = (r S s).1 ∧ Alike new N grown (r S s).2 (r T t).2

namespace Alike

variable {grown : Bool} {s t u v : State}

theorem rest (h : Alike new N grown s t) : t.rest = s.rest := by
  cases h <;> rfl

theorem faults (h : Alike new N grown s t) : t.faults = s.faults := by
  cases h <;> rfl

theorem of_grown {j : Nat} (hrest : t.rest = s.rest) (hfaults : t.faults = s.faults)
    (hN : j + s.rest.length = N) (h : GrownAll new j s.siblings.reverse t.siblings.reverse) :
    Alike new N true s t := by
  obtain ⟨rest, siblings, faults⟩ := s
  obtain ⟨rest', siblings', faults'⟩ := t
  subst hrest hfaults
  exact .grown _ _ hN h

/-- The same outlines may be added to both. -/
theorem push (h : Alike new N grown s t) {rest : List Input} (added : List Outline)
    (hsize : sizeAll added.reverse + rest.length = s.rest.length) (faults : List String) :
    Alike new N grown ⟨rest, added ++ s.siblings, faults⟩ ⟨rest, added ++ t.siblings, faults⟩ := by
  cases h with
  | same => exact .same _
  | @grown j siblings siblings' rest' faults' hN hg =>
    dsimp only at hsize ⊢
    refine .grown (j := j + sizeAll added.reverse) _ _ (by omega) ?_
    rw [List.reverse_append, List.reverse_append]
    exact hg.before added.reverse

theorem behind {k : TokenKind} (h : Alike new N grown s t)
    (hk : startsWith k.parts (ahead s.rest) = true) :
    Alike new N grown (s.behind k) (t.behind k) := by
  have hsize := (moves_behind hk).size
  simp only [State.behind, List.reverse_cons, sizeAll_append] at hsize
  have hsize : sizeAll [.leaf k k.parts.length] + (s.rest.drop k.parts.length).length =
      s.rest.length := by omega
  have := h.push [.leaf k k.parts.length] hsize s.faults
  rwa [State.behind, State.behind, h.rest, h.faults]

/-- What is collected from nothing is the same in both. -/
theorem gather (h : Alike new N grown s t) (kind : Option NodeKind)
    (hu : Moves { s with siblings := [] } u) :
    Alike new N grown { u with siblings := gathered s.siblings kind u.siblings }
      { u with siblings := gathered t.siblings kind u.siblings } := by
  have hsize := hu.size
  rw [List.reverse_nil, sizeAll, Nat.zero_add] at hsize
  cases kind with
  | none => exact h.push u.siblings hsize u.faults
  | some k =>
    refine h.push [.node k u.siblings.reverse] ?_ u.faults
    simpa [sizeAll, size] using hsize

theorem enclose (h : Alike new N grown s t) (kind : NodeKind) :
    Alike new N grown { s with siblings := [.node kind s.siblings.reverse] }
      { t with siblings := [.node kind t.siblings.reverse] } := by
  cases h with
  | same => exact .same _
  | grown rest faults hN hg => exact .grown _ _ hN (.single (hg.inside kind))

theorem eq (h : Alike new N false s t) : t = s := by
  cases h
  rfl

theorem absorb (h : Alike new N grown s t) :
    Alike new N grown { s with siblings := absorbed s.siblings }
      { t with siblings := absorbed t.siblings } := by
  cases h with
  | same => exact .same _
  | @grown j siblings siblings' rest faults hN hg =>
    rcases hg.newest with ⟨o, o', older, rfl, rfl, hgrown⟩ | ⟨o, older, older', i, rfl, rfl, hgrown, rfl⟩
    · obtain ⟨kind, cs, cs', rfl, rfl, hfront⟩ := hgrown.exists_node
      rw [absorbed, absorbed]
      split
      · exact .grown _ _ hN (.single (hfront older.reverse))
      · exact .grown _ _ hN hg
    · cases o with
      | leaf kind width => exact .grown _ _ hN hg
      | node kind cs =>
        rw [absorbed, absorbed]
        split
        · exact .grown _ _ hN (.single ((hgrown.before cs).inside kind))
        · exact .grown _ _ hN hg

/-- The same older outlines may stand in front of both. -/
theorem beside (h : Alike new N grown s t) (older : List Outline) :
    Alike new N grown { s with siblings := s.siblings ++ older }
      { t with siblings := t.siblings ++ older } := by
  cases h with
  | same => exact .same _
  | grown rest faults hN hg =>
    refine .grown _ _ hN ?_
    rw [List.reverse_append, List.reverse_append]
    exact hg.behind older.reverse

/-- The same outlines may be put into a node behind both. -/
theorem onto {i : Nat} {older older' : List Outline}
    (h : GrownAll new i older.reverse older'.reverse) (kind : NodeKind)
    (hN : i + (sizeAll u.siblings.reverse + u.rest.length) = N) :
    Alike new N true { u with siblings := .node kind u.siblings.reverse :: older }
      { u with siblings := .node kind u.siblings.reverse :: older' } := by
  refine .grown (j := i + sizeAll [.node kind u.siblings.reverse]) _ _ ?_ ?_
  · rw [sizeAll, sizeAll, size]
    omega
  · rw [List.reverse_cons, List.reverse_cons]
    exact h.before _

theorem kindOfNewest (h : Alike new N grown s t) :
    kindOfNewest t.siblings = kindOfNewest s.siblings := by
  cases h with
  | same => rfl
  | @grown j siblings siblings' rest faults hN hg =>
    rcases hg.newest with ⟨o, o', older, rfl, rfl, hgrown⟩ | ⟨o, older, older', i, rfl, rfl, -⟩
    · obtain ⟨kind, cs, cs', rfl, rfl, -⟩ := hgrown.exists_node
      rfl
    · cases o <;> rfl

end Alike

theorem noting_ne {s t : State} {message : String} (h : s.faults <:+ t.faults) :
    (t.noting message).faults ≠ s.faults := by
  intro hs
  have := hs ▸ h.length_le
  simp only [State.noting, List.length_cons] at this
  omega

namespace Repeats

variable {x : Rule α} {f : α → Rule β}

theorem pure (a : α) : Repeats new N S T (pure a) where
  moves := .refl
  again h _ := ⟨rfl, h⟩

theorem bind (hx : Repeats new N S T x) (hf : ∀ a, Repeats new N S T (f a)) :
    Repeats new N S T (x >>= f) where
  moves s := (hx.moves s).trans ((hf _).moves _)
  again {_ s t} h hc := by
    obtain ⟨hx', hf'⟩ := (hx.moves s).clean ((hf _).moves _) hc
    obtain ⟨ha, ht⟩ := hx.again h hx'
    rw [bind_apply, bind_apply, ha]
    exact (hf _).again ht hf'

theorem look (d : List Input → β) : Repeats new N S T (look d) where
  moves := .refl
  again h _ := by rw [look_apply, look_apply, h.rest]; exact ⟨rfl, h⟩

theorem fault (message : String) : Repeats new N S T (fault message) where
  moves := .noting message
  again _ hc := absurd hc (noting_ne (List.suffix_refl _))

theorem take (k : TokenKind) : Repeats new N S T (take k) where
  moves := moves_take k
  again {_ s t} h hc := by
    rw [take_apply] at hc
    rw [take_apply, take_apply, h.rest]
    split at hc
    · rename_i hk
      rw [if_pos hk, if_pos hk]
      exact ⟨rfl, h.behind hk⟩
    · exact absurd hc (noting_ne (List.suffix_refl _))

theorem need (k : TokenKind) : Repeats new N S T (need k) where
  moves := moves_need k
  again {_ s t} h hc := by
    rw [need_apply] at hc
    rw [need_apply, need_apply, h.rest]
    split at hc
    · rename_i hk
      rw [if_pos hk, if_pos hk]
      exact ⟨rfl, h.behind hk⟩
    · exact absurd hc (noting_ne (List.suffix_refl _))

theorem takeAny : Repeats new N S T takeAny where
  moves := moves_takeAny
  again {_ s t} h _ := by
    cases h with
    | same => exact ⟨rfl, .same _⟩
    | @grown j siblings siblings' rest faults hN hg =>
      have h := Alike.grown rest faults hN hg
      cases rest with
      | nil => exact ⟨rfl, h⟩
      | cons u rest =>
        refine ⟨rfl, h.push [.leaf u.kind 1] ?_ faults⟩
        simp [sizeAll, size, Nat.add_comm]

theorem ite {c : Prop} [Decidable c] {y : Rule α} (hx : Repeats new N S T x)
    (hy : Repeats new N S T y) : Repeats new N S T (if c then x else y) := by
  split <;> assumption

theorem takeOne (wanted : TokenKind → Bool) : Repeats new N S T (takeOne wanted) where
  moves := moves_takeOne wanted
  again {_ s t} h hc := by
    rw [takeOne_apply] at hc
    rw [takeOne_apply, takeOne_apply, h.rest]
    split at hc
    · rename_i hw
      rw [if_pos hw, if_pos hw]
      exact takeAny.again h hc
    · exact absurd hc (noting_ne (List.suffix_refl _))

theorem group {body : Rule (Option NodeKind × α)} (h : Repeats new N S T body) :
    Repeats new N S T (group body) where
  moves s := (h.moves { s with siblings := [] }).gather _ rfl
  again {_ s t} hst hc := by
    have hsame : { t with siblings := [] } = { s with siblings := [] } := by
      rw [hst.rest, hst.faults]
    obtain ⟨ha, hu⟩ := h.again (.same { s with siblings := [] }) hc
    rw [group_apply, group_apply, hsame, ha, hu.eq]
    exact ⟨rfl, hst.gather _ (h.moves _)⟩

theorem node (kind : NodeKind) (h : Repeats new N S T x) : Repeats new N S T (node kind x) :=
  group (bind h fun _ => pure _)

theorem around (kind : NodeKind) (h : Repeats new N S T x) :
    Repeats new N S T (around kind x) where
  moves s := (h.moves { s with siblings := s.siblings.take 1 }).gather (some kind)
    (List.take_append_drop 1 s.siblings).symm
  again {_ s t} hst hc := by
    rw [around_apply, around_apply]
    cases hst with
    | same =>
      obtain ⟨ha, hu⟩ := h.again (.same { s with siblings := s.siblings.take 1 }) hc
      rw [ha, hu.eq]
      exact ⟨rfl, .same _⟩
    | @grown j siblings siblings' rest faults hN hg =>
      rcases hg.newest with ⟨o, o', older, rfl, rfl, hgrown⟩ |
        ⟨o, older, older', i, rfl, rfl, hgrown, rfl⟩
      · have hstart : Alike new N true ⟨rest, [o], faults⟩ ⟨rest, [o'], faults⟩ :=
          .grown rest faults hN (.single hgrown)
        obtain ⟨ha, hu⟩ := h.again hstart hc
        exact ⟨ha, (hu.enclose kind).beside older⟩
      · obtain ⟨ha, hu⟩ := h.again (.same ⟨rest, [o], faults⟩) hc
        have hsize := (h.moves ⟨rest, [o], faults⟩).size
        rw [List.reverse_singleton, sizeAll, sizeAll] at hsize
        have hx : x T ⟨rest, [o], faults⟩ = x S ⟨rest, [o], faults⟩ := Prod.ext ha hu.eq
        simp only [List.take_succ_cons, List.take_zero, List.drop_succ_cons, List.drop_zero, hx]
        refine ⟨trivial, .onto hgrown kind ?_⟩
        rw [hsize, ← hN]
        exact (Nat.add_assoc i o.size rest.length).symm

theorem enclose (kind : NodeKind) : Repeats new N S T (enclose kind) where
  moves s := .settle s (leavesAll_enclose kind _) (settles_enclose kind s)
  again h _ := ⟨rfl, h.enclose kind⟩

theorem absorb : Repeats new N S T absorb where
  moves s := by
    rw [absorb_apply]
    exact .settle s (leavesAll_absorbed _) (settles_absorbed s)
  again {_ s t} h _ := by
    rw [absorb_apply, absorb_apply]
    exact ⟨rfl, h.absorb⟩

theorem newest : Repeats new N S T newest where
  moves s := by
    rw [newest_apply]
    exact .refl s
  again {_ s t} h _ := by
    rw [newest_apply, newest_apply]
    exact ⟨h.kindOfNewest, h⟩

/-- A loop repeats if it may run no fewer rounds. -/
theorem iterateUpTo {body : α → Rule (Bool × α)} (h : ∀ a, Repeats new N S T (body a))
    {n m : Nat} (hnm : n ≤ m) (a : α) {grown : Bool} {s t : State} (hst : Alike new N grown s t)
    (hc : (iterateUpTo n a body S s).2.faults = s.faults) :
    (iterateUpTo m a body T t).1 = (iterateUpTo n a body S s).1 ∧
      Alike new N grown (iterateUpTo n a body S s).2 (iterateUpTo m a body T t).2 := by
  induction n generalizing m a s t with
  | zero => exact absurd hc (noting_ne (List.suffix_refl _))
  | succ n ih =>
    obtain ⟨m, rfl⟩ := Nat.exists_eq_succ_of_ne_zero (Nat.ne_of_gt (Nat.lt_of_lt_of_le (Nat.succ_pos n) hnm))
    rw [iterateUpTo_succ] at hc
    rw [iterateUpTo_succ, iterateUpTo_succ]
    split at hc
    · rename_i hmore
      obtain ⟨hround, hrest⟩ := ((h a).moves s).clean (moves_iterateUpTo (fun a => (h a).moves) n _ _) hc
      obtain ⟨ha, hst⟩ := (h a).again hst hround
      rw [ha, if_pos hmore, if_pos hmore]
      exact ih (Nat.le_of_succ_le_succ hnm) _ hst hrest
    · rename_i hmore
      obtain ⟨ha, hst⟩ := (h a).again hst hc
      rw [ha, if_neg hmore, if_neg hmore]
      exact ⟨rfl, hst⟩

theorem iterate (a : α) {body : α → Rule (Bool × α)} (h : ∀ a, Repeats new N S T (body a)) :
    Repeats new N S T (iterate a body) where
  moves s := moves_iterateUpTo (fun a => (h a).moves) _ a s
  again {_ s t} hst hc := iterateUpTo h (Nat.le_of_eq (by rw [hst.rest])) a hst hc

theorem braced (kind : NodeKind) {body : Rule Unit} (h : Repeats new N S T body) :
    Repeats new N S T (braced kind body) :=
  node kind (bind (take _) fun _ => bind h fun _ => need _)

theorem wrapNext (message : String) : Repeats new N S T (wrapNext message) :=
  node .error (bind (fault message) fun _ => takeAny)

end Repeats

/-- What is built from steps is read alike. -/
theorem Built.repeats {r : Rule α} (h : Built r) (hS : ∀ g s, Moves s (S g s).2)
    (hST : SolveAlike new N S T) : Repeats new N S T r := by
  induction h with
  | pure a => exact .pure a
  | bind _ _ hx hf => exact .bind hx hf
  | look d => exact .look d
  | fault message => exact .fault message
  | take _ => exact .take _
  | takeOne _ => exact .takeOne _
  | call g => exact ⟨hS g, fun h hc => hST _ g _ _ h hc⟩
  | nameOf => exact .node .name (.take _)
  | group _ _ hbody => exact .group hbody
  | around _ _ hbody => exact .around _ hbody
  | enclose _ => exact .enclose _
  | absorb => exact .absorb
  | newest => exact .newest
  | iterate a _ hbody => exact .iterate a hbody
  | braced _ _ _ hbody => exact .braced _ hbody
  | members _ hbody => exact .braced _ hbody
  | wrapNext message => exact .wrapNext message

theorem alike_solve {depth depth' : Nat} (h : depth ≤ depth') :
    SolveAlike new N (solve depth) (solve depth') := by
  induction depth generalizing depth' with
  | zero => exact fun _ _ s _ _ hc => absurd hc (noting_ne (t := s) (List.suffix_refl _))
  | succ depth ih =>
    obtain ⟨depth', rfl⟩ := Nat.exists_eq_add_one_of_ne_zero (Nat.ne_zero_of_lt h)
    have hST := ih (Nat.le_of_succ_le_succ h)
    exact fun _ g _ _ hst hc => ((built_ruleOf g).repeats (moves_solve depth) hST).again hst hc

end Grammar

end Docsmith.Source
