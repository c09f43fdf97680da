import Docsmith.Proofs.Source.Grammar.Rules
import Mathlib.Data.List.Forall2

/-!
# What rules do to the state

A rule only reads on: the input it leaves is the end of the input it has found, it takes back no
fault, and the tokens it takes are the tokens it adds to the outlines. Where a token stands in a
node, it stays there.

* `Built.moves`: what is built from steps reads on;
* `moves_solve`: so do the rules of all goals.
-/

namespace Docsmith.Source

namespace Outline

mutual

/-- The number of tokens of an outline. -/
def size : Outline → Nat
  | .leaf _ width => width
  | .node _ cs => sizeAll cs

def sizeAll : List Outline → Nat
  | [] => 0
  | o :: os => o.size + sizeAll os

end

mutual

/-- The leaves of an outline. -/
def leaves : Outline → List (TokenKind × Nat)
  | .leaf kind width => [(kind, width)]
  | .node _ cs => leavesAll cs

def leavesAll : List Outline → List (TokenKind × Nat)
  | [] => []
  | o :: os => o.leaves ++ leavesAll os

end

mutual

/-- For each token of an outline, the kind of the node it stands directly in. Outside of all nodes
that is `outer`. -/
def holders (outer : Option NodeKind) : Outline → List (Option NodeKind)
  | .leaf _ width => List.replicate width outer
  | .node kind cs => holdersAll (some kind) cs

def holdersAll (outer : Option NodeKind) : List Outline → List (Option NodeKind)
  | [] => []
  | o :: os => o.holders outer ++ holdersAll outer os

end

/-- A token that stands in a node stays there. -/
def Settles (a b : Option NodeKind) : Prop := a = none ∨ a = b

theorem sizeAll_append (os ps : List Outline) : sizeAll (os ++ ps) = sizeAll os + sizeAll ps := by
  induction os with
  | nil => simp [sizeAll]
  | cons o os ih => simp only [List.cons_append, sizeAll, ih, Nat.add_assoc]

theorem leavesAll_append (os ps : List Outline) :
    leavesAll (os ++ ps) = leavesAll os ++ leavesAll ps := by
  induction os with
  | nil => rfl
  | cons o os ih => simp only [List.cons_append, leavesAll, ih, List.append_assoc]

theorem holdersAll_append (outer : Option NodeKind) (os ps : List Outline) :
    holdersAll outer (os ++ ps) = holdersAll outer os ++ holdersAll outer ps := by
  induction os with
  | nil => rfl
  | cons o os ih => simp only [List.cons_append, holdersAll, ih, List.append_assoc]

mutual

theorem length_holders (outer : Option NodeKind) :
    ∀ o : Outline, (o.holders outer).length = o.size
  | .leaf _ _ => List.length_replicate
  | .node kind cs => length_holdersAll (some kind) cs

theorem length_holdersAll (outer : Option NodeKind) :
    ∀ os : List Outline, (holdersAll outer os).length = sizeAll os
  | [] => rfl
  | o :: os => by
    rw [holdersAll, List.length_append, length_holders, length_holdersAll, sizeAll]

end

theorem Settles.refl (a : Option NodeKind) : Settles a a := .inr rfl

theorem Settles.trans {a b c : Option NodeKind} (h : Settles a b) (h' : Settles b c) :
    Settles a c := by
  rcases h with h | rfl
  · exact .inl h
  · exact h'

theorem settles_refl (hs : List (Option NodeKind)) : List.Forall₂ Settles hs hs :=
  List.forall₂_same.2 fun a _ => .refl a

theorem settles_trans {as bs cs : List (Option NodeKind)} (h : List.Forall₂ Settles as bs)
    (h' : List.Forall₂ Settles bs cs) : List.Forall₂ Settles as cs := by
  induction h generalizing cs with
  | nil => exact h'
  | cons hab _ ih =>
    cases h' with
    | cons hbc h' => exact .cons (hab.trans hbc) (ih h')

theorem settles_append {as bs cs : List (Option NodeKind)}
    (h : List.Forall₂ Settles (as ++ bs) cs) :
    ∃ ds es, cs = ds ++ es ∧ List.Forall₂ Settles as ds ∧ List.Forall₂ Settles bs es := by
  induction as generalizing cs with
  | nil => exact ⟨[], cs, rfl, .nil, h⟩
  | cons a as ih =>
    cases h with
    | cons hac h =>
      obtain ⟨ds, es, rfl, hds, hes⟩ := ih h
      exact ⟨_ :: ds, es, rfl, .cons hac hds, hes⟩

theorem settles_holdersAll (outer : Option NodeKind) (os : List Outline) :
    List.Forall₂ Settles (holdersAll none os) (holdersAll outer os) := by
  induction os with
  | nil => exact .nil
  | cons o os ih =>
    refine List.rel_append ?_ ih
    cases o with
    | leaf kind width =>
      rw [holders, holders]
      induction width with
      | zero => exact .nil
      | succ width ih => exact .cons (.inl rfl) ih
    | node kind cs => exact settles_refl _

end Outline

namespace Grammar

open TokenKind Outline

variable {α β : Type} {S : Goal → Step Outcome} {s t u : State}

/-! ## Steps applied -/

/-- The state behind the tokens of `k`. -/
def State.behind (k : TokenKind) (s : State) : State :=
  { s with
    rest := s.rest.drop k.parts.length
    siblings := .leaf k k.parts.length :: s.siblings }

def State.noting (message : String) (s : State) : State :=
  { s with faults := message :: s.faults }

section

variable (S : Goal → Step Outcome) (s : State)

theorem pure_apply (a : α) : (pure a : Rule α) S s = (a, s) := rfl

theorem bind_apply (x : Rule α) (f : α → Rule β) :
    (x >>= f) S s = f (x S s).1 S (x S s).2 := rfl

theorem look_apply (d : List Input → β) : look d S s = (d (ahead s.rest), s) := rfl

theorem fault_apply (message : String) :
    fault message S s = ((), s.noting message) := rfl

theorem sees_apply (k : TokenKind) : sees k S s = (startsWith k.parts (ahead s.rest), s) := rfl

theorem take_apply (k : TokenKind) : take k S s =
    if startsWith k.parts (ahead s.rest) then ((), s.behind k)
    else ((), s.noting "unexpected token") := by
  rw [take, bind_apply, sees_apply]
  dsimp only
  split <;> rfl

theorem eat_apply (k : TokenKind) : eat k S s =
    if startsWith k.parts (ahead s.rest) then (true, s.behind k) else (false, s) := by
  rw [eat, bind_apply, sees_apply]
  dsimp only
  split
  · rename_i h
    rw [bind_apply, take_apply, if_pos h]
    rfl
  · rfl

theorem expect_apply (k : TokenKind) : expect k S s =
    if startsWith k.parts (ahead s.rest) then (true, s.behind k)
    else (false, s.noting "unexpected token") := by
  rw [expect, bind_apply, eat_apply]
  split <;> rfl

theorem need_apply (k : TokenKind) : need k S s =
    if startsWith k.parts (ahead s.rest) then ((), s.behind k)
    else ((), s.noting "unexpected token") := by
  change ((), (expect k S s).2) = _
  rw [expect_apply]
  split <;> rfl

theorem takeOne_apply (wanted : TokenKind → Bool) : takeOne wanted S s =
    if wanted (((ahead s.rest)[0]?.map (·.kind)).getD .eof) then takeAny S s
    else ((), s.noting "unexpected token") := by
  rw [takeOne, bind_apply]
  change (if wanted (((ahead s.rest)[0]?.map (·.kind)).getD .eof) then _ else _ : Rule Unit) S s = _
  split <;> rfl

/-- What collecting `inner` behind `outer` leaves. -/
def gathered (outer : List Outline) (kind : Option NodeKind) (inner : List Outline) :
    List Outline :=
  match kind with
  | some k => .node k inner.reverse :: outer
  | none => inner ++ outer

theorem group_apply (body : Rule (Option NodeKind × α)) : group body S s =
    ((body S { s with siblings := [] }).1.2,
      { (body S { s with siblings := [] }).2 with
        siblings := gathered s.siblings (body S { s with siblings := [] }).1.1
          (body S { s with siblings := [] }).2.siblings }) := rfl

theorem node_apply (kind : NodeKind) (body : Rule α) : node kind body S s =
    ((body S { s with siblings := [] }).1,
      { (body S { s with siblings := [] }).2 with
        siblings := .node kind (body S { s with siblings := [] }).2.siblings.reverse
          :: s.siblings }) := rfl

theorem around_apply (kind : NodeKind) (body : Rule α) : around kind body S s =
    ((body S { s with siblings := s.siblings.take 1 }).1,
      { (body S { s with siblings := s.siblings.take 1 }).2 with
        siblings := .node kind (body S { s with siblings := s.siblings.take 1 }).2.siblings.reverse
          :: s.siblings.drop 1 }) := rfl

theorem enclose_apply (kind : NodeKind) : enclose kind S s =
    ((), { s with siblings := [.node kind s.siblings.reverse] }) := rfl

/-- What moving the older outlines into the newest leaves. -/
def absorbed (siblings : List Outline) : List Outline :=
  match siblings with
  | .node k cs :: older => if k.isExpr then [.node k (older.reverse ++ cs)] else siblings
  | _ => siblings

theorem absorb_apply : absorb S s = ((), { s with siblings := absorbed s.siblings }) := by
  obtain ⟨rest, siblings, faults⟩ := s
  match siblings with
  | [] => rfl
  | .leaf _ _ :: _ => rfl
  | .node k cs :: older =>
    change ((), if k.isExpr = true then _ else _) = _
    rw [absorbed]
    split <;> rfl

/-- The kind of the newest of some outlines. -/
def kindOfNewest (siblings : List Outline) : Option NodeKind :=
  match siblings with
  | .node k _ :: _ => some k
  | _ => none

theorem newest_apply : newest S s = (kindOfNewest s.siblings, s) := by
  obtain ⟨rest, siblings, faults⟩ := s
  match siblings with
  | [] => rfl
  | .leaf _ _ :: _ => rfl
  | .node _ _ :: _ => rfl

theorem iterate_apply (a : α) (body : α → Rule (Bool × α)) :
    iterate a body S s = iterateUpTo (2 * s.rest.length + 2) a body S s := rfl

theorem iterateUpTo_succ (n : Nat) (a : α) (body : α → Rule (Bool × α)) :
    iterateUpTo (n + 1) a body S s =
      if (body a S s).1.1 then iterateUpTo n (body a S s).1.2 body S (body a S s).2
      else ((body a S s).1.2, (body a S s).2) := by
  rw [iterateUpTo, bind_apply]
  cases h : (body a S s).1.1 <;> simp only [h] <;> rfl

end

/-! ## The input ahead -/

theorem ahead_isPrefix (ts : List Input) : ahead ts <+: ts := by
  induction ts with
  | nil => exact List.prefix_refl _
  | cons t ts ih =>
    cases ts with
    | nil => exact List.prefix_refl _
    | cons u ts =>
      rw [ahead.eq_def]
      dsimp only
      split
      · exact ⟨u :: ts, rfl⟩
      · exact (List.prefix_cons_inj t).2 ih

theorem length_le_of_continuesWith {ks : List TokenKind} {ts : List Input}
    (h : continuesWith ks ts = true) : ks.length ≤ ts.length := by
  induction ks generalizing ts with
  | nil => simp
  | cons k ks ih =>
    cases ts with
    | nil => simp [continuesWith] at h
    | cons t ts =>
      rw [continuesWith, Bool.and_eq_true] at h
      simpa using ih h.2

theorem length_le_of_startsWith {ks : List TokenKind} {ts : List Input}
    (h : startsWith ks ts = true) : ks.length ≤ ts.length := by
  cases ks with
  | nil => simp
  | cons k ks =>
    cases ts with
    | nil => simp [startsWith] at h
    | cons t ts =>
      rw [startsWith, Bool.and_eq_true] at h
      simpa using length_le_of_continuesWith h.2

theorem glued_of_continuesWith {ks : List TokenKind} {ts : List Input}
    (h : continuesWith ks ts = true) :
    ∃ us rest, ts = us ++ rest ∧ us.length = ks.length ∧ ∀ u ∈ us, u.glued = true := by
  induction ks generalizing ts with
  | nil => exact ⟨[], ts, rfl, rfl, fun _ h => absurd h List.not_mem_nil⟩
  | cons k ks ih =>
    cases ts with
    | nil => simp [continuesWith] at h
    | cons t ts =>
      simp only [continuesWith, Bool.and_eq_true] at h
      obtain ⟨us, rest, rfl, hlength, hglued⟩ := ih h.2
      exact ⟨t :: us, rest, rfl, congrArg Nat.succ hlength, List.forall_mem_cons.2 ⟨h.1.2, hglued⟩⟩

theorem exists_parts (k : TokenKind) : ∃ l ls, k.parts = l :: ls ∧ l.isTrivia = k.isTrivia := by
  cases k <;> exact ⟨_, _, rfl, rfl⟩

/-- The first of the tokens a leaf of the kind is joined from. -/
def Heads (u kind : TokenKind) : Prop := u = kind ∨ kind.parts.head? = some u

theorem Heads.isTrivia {u kind : TokenKind} (h : Heads u kind) : u.isTrivia = kind.isTrivia := by
  rcases h with rfl | h
  · rfl
  · obtain ⟨l, ls, hparts, hl⟩ := exists_parts kind
    rw [hparts, List.head?_cons, Option.some_inj] at h
    rw [← h, hl]

/-- The tokens of `k`, which the input starts with. -/
theorem taken_of_startsWith {k : TokenKind} {ts : List Input}
    (h : startsWith k.parts (ahead ts) = true) :
    ∃ u us rest, ts = u :: us ++ rest ∧ us.length + 1 = k.parts.length ∧
      Heads u.kind k ∧ ∀ v ∈ us, v.glued = true := by
  obtain ⟨l, ls, hparts, -⟩ := exists_parts k
  obtain ⟨more, hmore⟩ := ahead_isPrefix ts
  generalize ahead ts = seen at h hmore
  rw [hparts] at h
  cases seen with
  | nil => simp [startsWith] at h
  | cons u seen =>
    rw [startsWith, Bool.and_eq_true, decide_eq_true_eq] at h
    obtain ⟨us, rest, rfl, hlength, hglued⟩ := glued_of_continuesWith h.2
    refine ⟨u, us, rest ++ more, ?_, ?_, .inr ?_, hglued⟩
    rotate_left
    · rw [hparts, hlength, List.length_cons]
    · rw [hparts, h.1, List.head?_cons]
    rw [← hmore, List.cons_append, List.cons_append, List.append_assoc]

/-! ## Reading on -/

/-- The leaves cover the input: each takes a token, and those glued to it that it is joined from. -/
inductive Covers : List (TokenKind × Nat) → List Input → Prop
  | nil : Covers [] []
  | cons {kind : TokenKind} {u : Input} {us rest : List Input} {ls : List (TokenKind × Nat)} :
      Heads u.kind kind → (∀ v ∈ us, v.glued = true) → Covers ls rest →
      Covers ((kind, us.length + 1) :: ls) (u :: us ++ rest)

theorem Covers.append {ls ms : List (TokenKind × Nat)} {us vs : List Input} (h : Covers ls us)
    (h' : Covers ms vs) : Covers (ls ++ ms) (us ++ vs) := by
  induction h with
  | nil => exact h'
  | cons hkind hglued _ ih =>
    rw [List.append_assoc]
    exact .cons hkind hglued ih

/-- The holders of the tokens that have been taken. -/
def State.holders (s : State) : List (Option NodeKind) := holdersAll none s.siblings.reverse

theorem holders_gathered (outer : List Outline) (kind : Option NodeKind) (inner : List Outline) :
    ∃ settled, List.Forall₂ Settles (holdersAll none inner.reverse) settled ∧
      holdersAll none (gathered outer kind inner).reverse =
        holdersAll none outer.reverse ++ settled := by
  cases kind with
  | none =>
    refine ⟨_, settles_refl _, ?_⟩
    simp [gathered, holdersAll_append]
  | some k =>
    refine ⟨_, settles_holdersAll (some k) _, ?_⟩
    simp [gathered, holdersAll_append, holdersAll, Outline.holders]

/-- The state `t` is reached from `s` by reading on. -/
structure Moves (s t : State) : Prop where
  covers : ∃ taken added, s.rest = taken ++ t.rest ∧
    leavesAll t.siblings.reverse = leavesAll s.siblings.reverse ++ added ∧ Covers added taken
  faults : s.faults <:+ t.faults
  holders : ∃ old new, t.holders = old ++ new ∧ List.Forall₂ Settles s.holders old ∧
    new.length + t.rest.length = s.rest.length

namespace Moves

theorem rest (h : Moves s t) : t.rest <:+ s.rest := by
  obtain ⟨taken, -, hs, -⟩ := h.covers
  exact ⟨taken, hs.symm⟩

theorem refl (s : State) : Moves s s :=
  ⟨⟨[], [], rfl, (List.append_nil _).symm, .nil⟩, List.suffix_refl _, s.holders, [],
    (List.append_nil _).symm, settles_refl _, Nat.zero_add _⟩

theorem trans (h : Moves s t) (h' : Moves t u) : Moves s u := by
  obtain ⟨taken, leaves, hs, hleaves, hcovers⟩ := h.covers
  obtain ⟨taken', leaves', hs', hleaves', hcovers'⟩ := h'.covers
  obtain ⟨old, new, ht, hold, hnew⟩ := h.holders
  obtain ⟨old', new', hu, hold', hnew'⟩ := h'.holders
  rw [ht] at hold'
  obtain ⟨settled, added, rfl, hsettled, hadded⟩ := settles_append hold'
  refine ⟨⟨taken ++ taken', leaves ++ leaves', ?_, ?_, hcovers.append hcovers'⟩,
    h.faults.trans h'.faults, settled, added ++ new', ?_, settles_trans hold hsettled, ?_⟩
  · rw [hs, hs', List.append_assoc]
  · rw [hleaves', hleaves, List.append_assoc]
  · rw [hu, List.append_assoc]
  · rw [List.length_append, ← hadded.length_eq]
    omega

theorem noting (message : String) (s : State) : Moves s (s.noting message) :=
  ⟨(refl s).covers, List.suffix_cons _ _, (refl s).holders⟩

/-- A leaf is added for tokens that are taken. -/
theorem leaf {kind : TokenKind} {u : Input} {us rest : List Input}
    (hrest : s.rest = u :: us ++ rest) (hkind : Heads u.kind kind)
    (hglued : ∀ v ∈ us, v.glued = true) :
    Moves s { s with rest := rest, siblings := .leaf kind (us.length + 1) :: s.siblings } := by
  refine ⟨⟨u :: us, [(kind, us.length + 1)], hrest, ?_, ?_⟩, List.suffix_refl _, s.holders,
    List.replicate (us.length + 1) none, ?_, settles_refl _, ?_⟩
  · simp [leavesAll_append, leavesAll, Outline.leaves]
  · simpa using Covers.cons hkind hglued .nil
  · simp [State.holders, holdersAll_append, holdersAll, Outline.holders]
  · rw [hrest, List.length_append, List.length_replicate, List.length_cons]

/-- Outlines may be collected in nodes. -/
theorem settle (s : State) {siblings : List Outline}
    (hleaves : leavesAll siblings.reverse = leavesAll s.siblings.reverse)
    (h : List.Forall₂ Settles s.holders (holdersAll none siblings.reverse)) :
    Moves s { s with siblings := siblings } :=
  ⟨⟨[], [], rfl, by rw [hleaves, List.append_nil], .nil⟩, List.suffix_refl _, _, [],
    (List.append_nil _).symm, h, Nat.zero_add _⟩

theorem leavesAll_gathered (outer : List Outline) (kind : Option NodeKind) (inner : List Outline) :
    leavesAll (gathered outer kind inner).reverse =
      leavesAll outer.reverse ++ leavesAll inner.reverse := by
  cases kind <;> simp [gathered, leavesAll_append, leavesAll, Outline.leaves]

/-- What is added to the newest outlines is added to all. -/
theorem gather {inner outer : List Outline} (kind : Option NodeKind)
    (hs : s.siblings = inner ++ outer) (h : Moves { s with siblings := inner } t) :
    Moves s { t with siblings := gathered outer kind t.siblings } := by
  obtain ⟨taken, leaves, hrest, hleaves, hcovers⟩ := h.covers
  obtain ⟨old, new, ht, hold, hnew⟩ := h.holders
  obtain ⟨settled, hsettled, hall⟩ := holders_gathered outer kind t.siblings
  rw [← State.holders, ht] at hsettled
  obtain ⟨first, added, rfl, hfirst, hadded⟩ := settles_append hsettled
  refine ⟨⟨taken, leaves, hrest, ?_, hcovers⟩, h.faults,
    holdersAll none outer.reverse ++ first, added, ?_, ?_, ?_⟩
  · rw [leavesAll_gathered, hleaves, hs, List.reverse_append, leavesAll_append, List.append_assoc]
  · simp only [State.holders, hall, List.append_assoc]
  · simp only [State.holders, hs, List.reverse_append, holdersAll_append]
    exact List.rel_append (settles_refl _) (settles_trans hold hfirst)
  · rw [← hadded.length_eq]
    exact hnew

/-- The tokens taken are the tokens added. -/
theorem size (h : Moves s t) : sizeAll t.siblings.reverse + t.rest.length =
    sizeAll s.siblings.reverse + s.rest.length := by
  obtain ⟨old, new, ht, hold, hnew⟩ := h.holders
  have hlength := congrArg List.length ht
  rw [List.length_append, ← hold.length_eq, State.holders, State.holders, length_holdersAll,
    length_holdersAll] at hlength
  omega

/-- What leaves no fault behind has had none on its way. -/
theorem clean (h : Moves s t) (h' : Moves t u) (hu : u.faults = s.faults) :
    t.faults = s.faults ∧ u.faults = t.faults := by
  have ht : t.faults = s.faults :=
    h.faults.eq_of_length_le (hu ▸ h'.faults.length_le) |>.symm
  exact ⟨ht, hu.trans ht.symm⟩

end Moves

variable {r : Rule α}

theorem moves_takeAny (s : State) : Moves s (takeAny S s).2 := by
  obtain ⟨rest, siblings, faults⟩ := s
  cases rest with
  | nil => exact .refl _
  | cons t rest =>
    have hnone : ∀ v ∈ ([] : List Input), v.glued = true := fun _ h => absurd h List.not_mem_nil
    exact Moves.leaf rfl (.inl rfl) hnone

theorem moves_takeOne (wanted : TokenKind → Bool) (s : State) : Moves s (takeOne wanted S s).2 := by
  rw [takeOne_apply]
  split
  · exact moves_takeAny s
  · exact .noting _ s

theorem moves_iterateUpTo {body : α → Rule (Bool × α)} (h : ∀ a s, Moves s (body a S s).2)
    (n : Nat) (a : α) (s : State) : Moves s (iterateUpTo n a body S s).2 := by
  induction n generalizing a s with
  | zero => exact .noting _ s
  | succ n ih =>
    rw [iterateUpTo_succ]
    split
    · exact (h a s).trans (ih _ _)
    · exact h a s

theorem moves_node (kind : NodeKind) {body : Rule α} (h : ∀ s, Moves s (body S s).2) (s : State) :
    Moves s (node kind body S s).2 :=
  (h { s with siblings := [] }).gather (some kind) rfl

theorem moves_behind {k : TokenKind} (h : startsWith k.parts (ahead s.rest) = true) :
    Moves s (s.behind k) := by
  obtain ⟨u, us, rest, hrest, hlength, hkind, hglued⟩ := taken_of_startsWith h
  have hmoves := Moves.leaf (s := s) hrest hkind hglued
  have hdrop : s.rest.drop k.parts.length = rest := by
    rw [hrest, ← hlength]
    exact List.drop_left' rfl
  rwa [hlength, ← hdrop] at hmoves

theorem moves_take (k : TokenKind) (s : State) : Moves s (take k S s).2 := by
  rw [take_apply]
  split
  · exact moves_behind ‹_›
  · exact .noting _ s

theorem moves_need (k : TokenKind) (s : State) : Moves s (need k S s).2 := by
  rw [need_apply]
  split
  · exact moves_behind ‹_›
  · exact .noting _ s

theorem moves_braced (kind : NodeKind) {body : Rule Unit} (h : ∀ s, Moves s (body S s).2)
    (s : State) : Moves s (braced kind body S s).2 := by
  refine moves_node kind (fun s => ?_) s
  have htake := moves_take .lCurly s (S := S)
  exact (htake.trans (h _)).trans (moves_need .rCurly _)

theorem leavesAll_enclose (kind : NodeKind) (os : List Outline) :
    leavesAll [Outline.node kind os.reverse].reverse = leavesAll os.reverse := by
  simp [leavesAll, Outline.leaves]

theorem leavesAll_absorbed (os : List Outline) :
    leavesAll (absorbed os).reverse = leavesAll os.reverse := by
  match os with
  | [] => rfl
  | .leaf _ _ :: _ => rfl
  | .node _ _ :: _ =>
    rw [absorbed]
    split
    · simp [leavesAll_append, leavesAll, Outline.leaves]
    · rfl

theorem settles_enclose (kind : NodeKind) (s : State) : List.Forall₂ Settles s.holders
    (holdersAll none [Outline.node kind s.siblings.reverse].reverse) := by
  rw [List.reverse_singleton, holdersAll, holdersAll, List.append_nil]
  exact settles_holdersAll (some kind) _

theorem settles_absorbed (s : State) :
    List.Forall₂ Settles s.holders (holdersAll none (absorbed s.siblings).reverse) := by
  obtain ⟨rest, siblings, faults⟩ := s
  match siblings with
  | [] => exact settles_refl _
  | .leaf _ _ :: _ => exact settles_refl _
  | .node k cs :: older =>
    rw [absorbed]
    split
    · simp only [State.holders, List.reverse_cons, List.reverse_nil, List.nil_append,
        holdersAll_append, holdersAll, Outline.holders, List.append_nil]
      exact List.rel_append (settles_holdersAll _ _) (settles_refl _)
    · exact settles_refl _

/-- What is built from steps reads on. -/
theorem Built.moves (h : Built r) (hS : ∀ g s, Moves s (S g s).2) (s : State) :
    Moves s (r S s).2 := by
  induction h generalizing s with
  | pure a => exact .refl s
  | bind _ _ hx hf => exact (hx s).trans (hf _ _)
  | look d => exact .refl s
  | fault message => exact .noting message s
  | take _ => exact moves_take _ s
  | takeOne _ => exact moves_takeOne _ s
  | call g => exact hS g s
  | nameOf => exact moves_node .name (moves_take _) s
  | group _ _ hbody => exact (hbody { s with siblings := [] }).gather _ rfl
  | @around _ kind _ _ _ hbody =>
    rw [around_apply]
    exact (hbody { s with siblings := s.siblings.take 1 }).gather (some kind)
      (List.take_append_drop 1 s.siblings).symm
  | enclose _ => exact .settle s (leavesAll_enclose _ _) (settles_enclose _ s)
  | absorb =>
    rw [absorb_apply]
    exact .settle s (leavesAll_absorbed _) (settles_absorbed s)
  | newest =>
    rw [newest_apply]
    exact .refl s
  | iterate a _ hbody => exact moves_iterateUpTo hbody _ a s
  | braced _ _ _ hbody => exact moves_braced _ hbody s
  | members _ hbody => exact moves_braced _ hbody s
  | wrapNext message =>
    exact moves_node .error (fun s => (Moves.noting message s).trans (moves_takeAny (S := S) _)) s

/-- A fault stays, whatever follows. -/
theorem faults_bind {message : String} {f : Unit → Rule β} (hf : ∀ s, Moves s (f () S s).2)
    (s : State) : ((fault message >>= f) S s).2.faults ≠ s.faults := by
  intro hc
  have hlength := (hf (s.noting message)).faults.length_le
  rw [bind_apply, fault_apply] at hc
  rw [hc, State.noting, List.length_cons] at hlength
  omega

theorem moves_solve (depth : Nat) (g : Goal) (s : State) : Moves s (solve depth g s).2 := by
  induction depth generalizing g s with
  | zero => exact .noting _ s
  | succ depth ih => exact (built_ruleOf g).moves ih s

end Grammar

end Docsmith.Source
