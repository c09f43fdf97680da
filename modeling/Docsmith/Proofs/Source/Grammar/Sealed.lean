import Docsmith.Proofs.Source.Grammar.Outlines

/-!
# What follows a sealed token

Rules do not look past some tokens, a semicolon among them. So what a rule reads up to one of these
does not depend on what follows it.

* `Cut`: two states that differ in what follows such a token only;
* `Built.reads`: what is built from steps reads up to it the same whatever follows;
* `readsCalls_solve`: so do the rules of all goals.
-/

namespace Docsmith.Source.Grammar

open TokenKind Outline Insertion

variable {α β : Type} {S T : Goal → Step Outcome} {s t : State} {front x y : List Input}

/-- The last of some tokens is one that no rule looks past. -/
def Sealed (front : List Input) : Prop := ∃ us u, front = us ++ [u] ∧ u.kind.seals = true

namespace Sealed

theorem ne_nil (h : Sealed front) : front ≠ [] := by
  obtain ⟨us, u, rfl, -⟩ := h
  simp

theorem drop (h : Sealed front) {n : Nat} (hn : n < front.length) : Sealed (front.drop n) := by
  obtain ⟨us, u, rfl, hu⟩ := h
  rw [List.length_append, List.length_singleton] at hn
  exact ⟨us.drop n, u, List.drop_append_of_le_length (by omega), hu⟩

theorem ahead (h : Sealed front) (x : List Input) : ahead (front ++ x) = ahead front := by
  obtain ⟨us, u, rfl, hu⟩ := h
  induction us with
  | nil => rw [List.nil_append, List.singleton_append, ahead_of_seals hu, ahead_of_seals hu]
  | cons v us ih =>
    obtain ⟨w, ws, hws⟩ := List.exists_cons_of_ne_nil (l := us ++ [u]) (by simp)
    rw [hws] at ih
    simp only [List.cons_append, hws] at ih ⊢
    rw [Grammar.ahead.eq_def, Grammar.ahead.eq_def (v :: w :: ws)]
    simp only [ih]

end Sealed

/-- Two states that differ in what follows a sealed token only. -/
inductive Cut (x y : List Input) : State → State → Prop
  | mk {front : List Input} (siblings : List Outline) (faults : List String) : Sealed front →
      Cut x y ⟨front ++ x, siblings, faults⟩ ⟨front ++ y, siblings, faults⟩

namespace Cut

variable (h : Cut x y s t)
include h

theorem ahead : ahead t.rest = ahead s.rest := by
  obtain ⟨siblings, faults, hfront⟩ := h
  exact (hfront.ahead y).trans (hfront.ahead x).symm

theorem siblings : t.siblings = s.siblings := by
  obtain ⟨siblings, faults, hfront⟩ := h
  rfl

theorem restart (outlines : List Outline) :
    Cut x y { s with siblings := outlines } { t with siblings := outlines } := by
  obtain ⟨siblings, faults, hfront⟩ := h
  exact .mk outlines faults hfront

theorem length_le (hxy : x.length ≤ y.length) : s.rest.length ≤ t.rest.length := by
  obtain ⟨siblings, faults, hfront⟩ := h
  simp only [List.length_append]
  omega

/-- Tokens in front of the last may be taken. -/
theorem drop {n : Nat} (hn : x.length < (s.rest.drop n).length) (siblings : List Outline) :
    Cut x y ⟨s.rest.drop n, siblings, s.faults⟩ ⟨t.rest.drop n, siblings, t.faults⟩ := by
  obtain @⟨front, _, faults, hfront⟩ := h
  simp only [List.length_drop, List.length_append] at hn
  have hn' : n < front.length := by omega
  rw [List.drop_append_of_le_length (Nat.le_of_lt hn'),
    List.drop_append_of_le_length (Nat.le_of_lt hn')]
  exact .mk siblings faults (hfront.drop hn')

theorem behind {k : TokenKind} (hn : x.length < (s.behind k).rest.length) :
    Cut x y (s.behind k) (t.behind k) := by
  rw [State.behind, State.behind, h.siblings]
  exact h.drop hn _

end Cut

/-- The rule reads the same from states that differ behind a sealed token, if it does not come to
it and leaves no fault. -/
structure ReadsUpTo (x y : List Input) (S T : Goal → Step Outcome) (r : Rule α) : Prop where
  moves (s : State) : Moves s (r S s).2
  again {s t : State} : Cut x y s t → (r S s).2.faults = s.faults →
    x.length < (r S s).2.rest.length → (r T t).1 = (r S s).1 ∧ Cut x y (r S s).2 (r T t).2

/-- The same for the rules of all goals. -/
def ReadsCalls (x y : List Input) (S T : Goal → Step Outcome) : Prop :=
  ∀ g, ReadsUpTo x y S T (call g)

namespace ReadsUpTo

variable {r : Rule α} {f : α → Rule β}

theorem pure (a : α) : ReadsUpTo x y S T (pure a) where
  moves := .refl
  again h _ _ := ⟨rfl, h⟩

theorem bind (hx : ReadsUpTo x y S T r) (hf : ∀ a, ReadsUpTo x y S T (f a)) :
    ReadsUpTo x y S T (r >>= f) where
  moves s := (hx.moves s).trans ((hf _).moves _)
  again {s t} h hc hn := by
    obtain ⟨hcx, hcf⟩ := (hx.moves s).clean ((hf _).moves _) hc
    have hle := ((hf (r S s).1).moves (r S s).2).rest.length_le
    obtain ⟨ha, ht⟩ := hx.again h hcx (Nat.lt_of_lt_of_le hn hle)
    rw [bind_apply, bind_apply, ha]
    exact (hf _).again ht hcf hn

theorem look (d : List Input → β) : ReadsUpTo x y S T (look d) where
  moves := .refl
  again h _ _ := by
    rw [look_apply, look_apply, h.ahead]
    exact ⟨rfl, h⟩

theorem fault (message : String) : ReadsUpTo x y S T (fault message) where
  moves := .noting message
  again _ hc := absurd hc (noting_ne (List.suffix_refl _))

theorem take (k : TokenKind) : ReadsUpTo x y S T (take k) where
  moves := moves_take k
  again {s t} h hc hn := by
    rw [take_apply] at hc hn
    rw [take_apply, take_apply, h.ahead]
    split at hc
    · rename_i hk
      rw [if_pos hk] at hn
      rw [if_pos hk, if_pos hk]
      exact ⟨rfl, h.behind hn⟩
    · exact absurd hc (noting_ne (List.suffix_refl _))

theorem need (k : TokenKind) : ReadsUpTo x y S T (need k) where
  moves := moves_need k
  again {s t} h hc hn := by
    rw [need_apply] at hc hn
    rw [need_apply, need_apply, h.ahead]
    split at hc
    · rename_i hk
      rw [if_pos hk] at hn
      rw [if_pos hk, if_pos hk]
      exact ⟨rfl, h.behind hn⟩
    · exact absurd hc (noting_ne (List.suffix_refl _))

theorem takeAny : ReadsUpTo x y S T takeAny where
  moves := moves_takeAny
  again {s t} h _ hn := by
    obtain @⟨front, siblings, faults, hfront⟩ := h
    obtain ⟨u, us, rfl⟩ := List.exists_cons_of_ne_nil hfront.ne_nil
    refine ⟨rfl, .mk _ faults (hfront.drop (n := 1) ?_)⟩
    change x.length < (us ++ x).length at hn
    rw [List.length_append] at hn
    rw [List.length_cons]
    omega

theorem takeOne (wanted : TokenKind → Bool) : ReadsUpTo x y S T (takeOne wanted) where
  moves := moves_takeOne wanted
  again {s t} h hc hn := by
    rw [takeOne_apply] at hc hn
    rw [takeOne_apply, takeOne_apply, h.ahead]
    split at hc
    · rename_i hw
      rw [if_pos hw] at hn
      rw [if_pos hw, if_pos hw]
      exact takeAny.again h hc hn
    · exact absurd hc (noting_ne (List.suffix_refl _))

theorem group {body : Rule (Option NodeKind × α)} (h : ReadsUpTo x y S T body) :
    ReadsUpTo x y S T (group body) where
  moves s := (h.moves { s with siblings := [] }).gather _ rfl
  again {s t} hst hc hn := by
    obtain ⟨ha, ht⟩ := h.again (hst.restart []) hc hn
    rw [group_apply, group_apply, hst.siblings, ha, ht.siblings]
    exact ⟨rfl, ht.restart _⟩

theorem node (kind : NodeKind) (h : ReadsUpTo x y S T r) : ReadsUpTo x y S T (node kind r) :=
  group (bind h fun _ => pure _)

theorem around (kind : NodeKind) (h : ReadsUpTo x y S T r) :
    ReadsUpTo x y S T (around kind r) where
  moves s := (h.moves { s with siblings := s.siblings.take 1 }).gather (some kind)
    (List.take_append_drop 1 s.siblings).symm
  again {s t} hst hc hn := by
    obtain ⟨ha, ht⟩ := h.again (hst.restart (s.siblings.take 1)) hc hn
    rw [around_apply, around_apply, hst.siblings, ha, ht.siblings]
    exact ⟨rfl, ht.restart _⟩

theorem enclose (kind : NodeKind) : ReadsUpTo x y S T (enclose kind) where
  moves s := .settle s (leavesAll_enclose kind _) (settles_enclose kind s)
  again h _ _ := by
    rw [enclose_apply, enclose_apply, h.siblings]
    exact ⟨rfl, h.restart _⟩

theorem absorb : ReadsUpTo x y S T absorb where
  moves s := by
    rw [absorb_apply]
    exact .settle s (leavesAll_absorbed _) (settles_absorbed s)
  again h _ _ := by
    rw [absorb_apply, absorb_apply, h.siblings]
    exact ⟨rfl, h.restart _⟩

theorem newest : ReadsUpTo x y S T newest where
  moves s := by
    rw [newest_apply]
    exact .refl s
  again h _ _ := by
    rw [newest_apply, newest_apply, h.siblings]
    exact ⟨rfl, h⟩

/-- A loop may run more rounds in the second state. -/
theorem iterateUpTo {body : α → Rule (Bool × α)} (h : ∀ a, ReadsUpTo x y S T (body a)) {n m : Nat}
    (hnm : n ≤ m) (a : α) (hst : Cut x y s t) (hc : (iterateUpTo n a body S s).2.faults = s.faults)
    (hn : x.length < (Grammar.iterateUpTo n a body S s).2.rest.length) :
    (Grammar.iterateUpTo m a body T t).1 = (Grammar.iterateUpTo n a body S s).1 ∧
      Cut x y (Grammar.iterateUpTo n a body S s).2 (Grammar.iterateUpTo m a body T t).2 := by
  induction n generalizing m a s t with
  | zero => exact absurd hc (noting_ne (List.suffix_refl _))
  | succ n ih =>
    obtain ⟨m, rfl⟩ := Nat.exists_eq_add_one_of_ne_zero (Nat.ne_zero_of_lt hnm)
    rw [iterateUpTo_succ] at hc hn
    rw [iterateUpTo_succ, iterateUpTo_succ]
    split at hc
    · rename_i hmore
      rw [if_pos hmore] at hn ⊢
      have hloop := moves_iterateUpTo (fun a => (h a).moves) n (body a S s).1.2 (body a S s).2
      obtain ⟨hround, hrest⟩ := ((h a).moves s).clean hloop hc
      obtain ⟨ha, ht⟩ := (h a).again hst hround (Nat.lt_of_lt_of_le hn hloop.rest.length_le)
      rw [ha, if_pos hmore]
      exact ih (Nat.le_of_succ_le_succ hnm) _ ht hrest hn
    · rename_i hmore
      rw [if_neg hmore] at hn ⊢
      obtain ⟨ha, ht⟩ := (h a).again hst hc hn
      rw [ha, if_neg hmore]
      exact ⟨rfl, ht⟩

theorem iterate (hxy : x.length ≤ y.length) (a : α) {body : α → Rule (Bool × α)}
    (h : ∀ a, ReadsUpTo x y S T (body a)) : ReadsUpTo x y S T (iterate a body) where
  moves s := moves_iterateUpTo (fun a => (h a).moves) _ a s
  again {s t} hst hc hn := by
    have hle := hst.length_le hxy
    exact iterateUpTo h (by omega) a hst hc hn

theorem braced (kind : NodeKind) {body : Rule Unit} (h : ReadsUpTo x y S T body) :
    ReadsUpTo x y S T (braced kind body) :=
  node kind (bind (take _) fun _ => bind h fun _ => need _)

theorem wrapNext (message : String) : ReadsUpTo x y S T (wrapNext message) :=
  node .error (bind (fault message) fun _ => takeAny)

end ReadsUpTo

/-- What is built from steps reads up to a sealed token the same whatever follows. -/
theorem Built.reads {r : Rule α} (h : Built r) (hxy : x.length ≤ y.length)
    (hST : ReadsCalls x y S T) : ReadsUpTo x y S T r := by
  induction h with
  | pure a => exact .pure a
  | bind _ _ hx hf => exact .bind hx hf
  | look d => exact .look d
  | fault message => exact .fault message
  | take _ => exact .take _
  | takeOne _ => exact .takeOne _
  | call g => exact hST g
  | nameOf => exact .node .name (.take _)
  | group _ _ hbody => exact .group hbody
  | around _ _ hbody => exact .around _ hbody
  | enclose _ => exact .enclose _
  | absorb => exact .absorb
  | newest => exact .newest
  | iterate a _ hbody => exact .iterate hxy a hbody
  | braced _ _ _ hbody => exact .braced _ hbody
  | members _ hbody => exact .braced _ hbody
  | wrapNext message => exact .wrapNext message

theorem readsCalls_solve (hxy : x.length ≤ y.length) {depth depth' : Nat} (h : depth ≤ depth') :
    ReadsCalls x y (solve depth) (solve depth') := by
  induction depth generalizing depth' with
  | zero =>
    exact fun g => ⟨moves_solve 0 g, fun _ hc => absurd hc (noting_ne (List.suffix_refl _))⟩
  | succ depth ih =>
    obtain ⟨depth', rfl⟩ := Nat.exists_eq_add_one_of_ne_zero (Nat.ne_zero_of_lt h)
    have hST := ih (Nat.le_of_succ_le_succ h)
    intro g
    have hg := (built_ruleOf g).reads hxy hST
    exact ⟨hg.moves, hg.again⟩

end Docsmith.Source.Grammar
