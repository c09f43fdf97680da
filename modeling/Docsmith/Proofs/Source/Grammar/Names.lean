import Docsmith.Proofs.Source.Grammar.Outlines

/-!
# Names in outlines

Where a file is read without a fault, every name in its outlines is one identifier: a name is a node
around an identifier, and no other node is made one.

* `Built.named`: a rule that leaves no fault leaves such outlines;
* `named_outlineOf`: so does reading a file.
-/

namespace Docsmith.Source

namespace Outline

/-- Every name in the outline is one identifier. -/
inductive Named : Outline → Prop
  | leaf (kind : TokenKind) (width : Nat) : Named (.leaf kind width)
  | node {kind : NodeKind} {cs : List Outline} : (kind = .name → cs = [.leaf .ident 1]) →
      (∀ c ∈ cs, Named c) → Named (.node kind cs)

/-- Every name in the outlines is one identifier. -/
abbrev NamedAll (os : List Outline) : Prop := ∀ o ∈ os, o.Named

theorem NamedAll.nil : NamedAll [] := fun _ h => nomatch h

variable {kind : NodeKind} {cs older : List Outline}

/-- A node that is no name. -/
theorem Named.of_ne (hk : kind ≠ .name) (h : NamedAll cs) : Named (.node kind cs) :=
  .node (absurd · hk) h

theorem Named.inside (h : Named (.node kind cs)) : NamedAll cs := by
  cases h with
  | node _ hcs => exact hcs

theorem Named.reverse (hk : kind ≠ .name) (h : NamedAll cs) : Named (.node kind cs.reverse) :=
  .of_ne hk fun c hc => h c (List.mem_reverse.1 hc)

end Outline

namespace Grammar

open TokenKind Outline

variable {α : Type} {S : Goal → Step Outcome} {s : State} {r : Rule α}

theorem ne_name_of_isUnnamed {kind : NodeKind} (h : isUnnamed kind = true) : kind ≠ .name := by
  rintro rfl
  cases h

theorem ne_name_of_isExpr {kind : NodeKind} (h : kind.isExpr = true) : kind ≠ .name := by
  rintro rfl
  cases h

/-- The rule leaves names that are identifiers, unless it leaves a fault. -/
def Names (S : Goal → Step Outcome) (r : Rule α) : Prop :=
  ∀ s, NamedAll s.siblings → (r S s).2.faults = s.faults → NamedAll (r S s).2.siblings

theorem namedAll_behind (k : TokenKind) (h : NamedAll s.siblings) :
    NamedAll (s.behind k).siblings :=
  List.forall_mem_cons.2 ⟨.leaf _ _, h⟩

theorem namedAll_takeAny (h : NamedAll s.siblings) : NamedAll (takeAny S s).2.siblings := by
  obtain ⟨rest, siblings, faults⟩ := s
  cases rest with
  | nil => exact h
  | cons t rest => exact List.forall_mem_cons.2 ⟨.leaf _ _, h⟩

theorem namedAll_gathered {outer inner : List Outline} {kind : Option NodeKind}
    (hk : isUnnamed? kind = true) (ho : NamedAll outer) (hi : NamedAll inner) :
    NamedAll (gathered outer kind inner) := by
  cases kind with
  | none => exact List.forall_mem_append.2 ⟨hi, ho⟩
  | some kind =>
    have hne : kind ≠ .name := by
      rintro rfl
      cases hk
    exact List.forall_mem_cons.2 ⟨.reverse hne hi, ho⟩

theorem namedAll_absorbed {os : List Outline} (h : NamedAll os) : NamedAll (absorbed os) := by
  match os with
  | [] => exact h
  | .leaf _ _ :: _ => exact h
  | .node k cs :: older =>
    rw [absorbed]
    split
    · rename_i hk
      obtain ⟨hnode, holder⟩ := List.forall_mem_cons.1 h
      have hall : NamedAll (older.reverse ++ cs) :=
        List.forall_mem_append.2 ⟨fun o ho => holder o (List.mem_reverse.1 ho), hnode.inside⟩
      exact List.forall_mem_singleton.2 (.of_ne (ne_name_of_isExpr hk) hall)
    · exact h

theorem names_take (k : TokenKind) : Names S (take k) := by
  intro s h hc
  rw [take_apply] at hc ⊢
  split
  · exact namedAll_behind k h
  · exact h

theorem names_takeOne (wanted : TokenKind → Bool) : Names S (takeOne wanted) := by
  intro s h hc
  rw [takeOne_apply] at hc ⊢
  split
  · exact namedAll_takeAny h
  · exact h

theorem names_need (k : TokenKind) : Names S (need k) := by
  intro s h hc
  rw [need_apply] at hc ⊢
  split
  · exact namedAll_behind k h
  · exact h

/-- A name is a node around one identifier, or there is none. -/
theorem names_name : Names S (node .name (take ident)) := by
  intro s h hc
  rw [node_apply, take_apply] at hc ⊢
  split
  · refine List.forall_mem_cons.2 ⟨.node (fun _ => rfl) ?_, h⟩
    exact List.forall_mem_singleton.2 (.leaf _ _)
  · rename_i hsees
    rw [if_neg hsees] at hc
    exact absurd hc (List.cons_ne_self _ _)

theorem Names.bind {β : Type} {x : Rule α} {f : α → Rule β} (hx : ∀ s, Moves s (x S s).2)
    (hf : ∀ a s, Moves s (f a S s).2) (nx : Names S x) (nf : ∀ a, Names S (f a)) :
    Names S (x >>= f) := by
  intro s h hc
  rw [bind_apply] at hc ⊢
  obtain ⟨hfirst, hsecond⟩ := (hx s).clean (hf _ _) hc
  exact nf _ _ (nx s h hfirst) hsecond

theorem Names.node {kind : NodeKind} (hk : kind ≠ .name) (h : Names S r) :
    Names S (node kind r) := by
  intro s hs hc
  rw [node_apply] at hc ⊢
  exact List.forall_mem_cons.2 ⟨.reverse hk (h { s with siblings := [] } .nil hc), hs⟩

theorem Names.around {kind : NodeKind} (hk : kind ≠ .name) (h : Names S r) :
    Names S (around kind r) := by
  intro s hs hc
  rw [around_apply] at hc ⊢
  have hfirst : NamedAll (s.siblings.take 1) := fun o ho => hs o (List.mem_of_mem_take ho)
  have hrest : NamedAll (s.siblings.drop 1) := fun o ho => hs o (List.mem_of_mem_drop ho)
  exact List.forall_mem_cons.2
    ⟨.reverse hk (h { s with siblings := s.siblings.take 1 } hfirst hc), hrest⟩

theorem Names.iterateUpTo {body : α → Rule (Bool × α)} (hm : ∀ a s, Moves s (body a S s).2)
    (h : ∀ a, Names S (body a)) (n : Nat) (a : α) : Names S (iterateUpTo n a body) := by
  intro s hs hc
  induction n generalizing a s with
  | zero => exact hs
  | succ n ih =>
    rw [iterateUpTo_succ] at hc ⊢
    split
    · rename_i hmore
      rw [if_pos hmore] at hc
      obtain ⟨hround, hrest⟩ := (hm a s).clean (moves_iterateUpTo hm n _ _) hc
      exact ih _ _ (h a s hs hround) hrest
    · rename_i hmore
      rw [if_neg hmore] at hc
      exact h a s hs hc

theorem Names.braced {kind : NodeKind} {body : Rule Unit} (hk : kind ≠ .name)
    (hm : ∀ s, Moves s (body S s).2) (h : Names S body) : Names S (braced kind body) :=
  .node hk (.bind (moves_take .lCurly) (fun _ s => (hm s).trans (moves_need .rCurly _))
    (names_take _) fun _ => .bind hm (fun _ => moves_need .rCurly) h fun _ => names_need _)

/-- A rule that leaves no fault leaves names that are identifiers. -/
theorem Built.named (h : Built r) (hS : ∀ g s, Moves s (S g s).2) (hN : ∀ g, Names S (Grammar.call g)) :
    Names S r := by
  induction h with
  | pure a => exact fun s h _ => h
  | bind hx hf ihx ihf => exact .bind (hx.moves hS) (fun a => (hf a).moves hS) ihx ihf
  | look d => exact fun s h _ => h
  | fault message => exact fun s h _ => h
  | take _ => exact names_take _
  | takeOne _ => exact names_takeOne _
  | call g => exact hN g
  | nameOf => exact names_name
  | @group _ body _ ha ih =>
    intro s hs hc
    rw [group_apply] at hc ⊢
    exact namedAll_gathered (ha.holds S { s with siblings := [] }) hs
      (ih { s with siblings := [] } NamedAll.nil hc)
  | around hk _ ih => exact .around (ne_name_of_isUnnamed hk) ih
  | enclose hk =>
    exact fun s h _ => List.forall_mem_singleton.2 (.reverse (ne_name_of_isUnnamed hk) h)
  | absorb =>
    intro s h _
    rw [absorb_apply]
    exact namedAll_absorbed h
  | newest =>
    intro s h _
    rwa [newest_apply]
  | iterate a hb ih =>
    intro s h hc
    exact Names.iterateUpTo (fun a => (hb a).moves hS) ih _ a s h hc
  | braced _ hk hb ih => exact .braced (ne_name_of_isUnnamed hk) (hb.moves hS) ih
  | members hb ih => exact .braced (by decide) (hb.moves hS) ih
  | wrapNext message =>
    refine .node (by decide) fun s h _ => ?_
    exact namedAll_takeAny (s := s.noting message) h

theorem names_solve (depth : Nat) (g : Goal) : Names (solve depth) (call g) := by
  induction depth generalizing g with
  | zero => exact fun s h _ => h
  | succ depth ih => exact (built_ruleOf g).named (moves_solve depth) ih

/-- Every name in the outlines of a file without a fault is one identifier. -/
theorem named_outlineOf {input : List Input} (hc : (outlineOf input).2 = []) :
    NamedAll (outlineOf input).1 := by
  have hbuilt : Built fileItems := inferInstance
  have h := hbuilt.named (moves_solve (8 * (input.length + 2))) (names_solve _) ⟨input, [], []⟩ .nil
    (faults_fileEnd hc)
  rw [outlineOf_eq]
  exact fun o ho => h o (List.mem_reverse.1 ho)

end Grammar

end Docsmith.Source
