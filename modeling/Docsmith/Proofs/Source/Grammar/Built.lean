import Docsmith.Source.Grammar

/-!
# Steps of rules

The rules of the grammar are built from few steps: they look at the input as far as rules look, take
tokens, build nodes and call other rules. A closing brace is taken in two ways only: at the end of a
list in braces, and as a fault. A name is a node around one identifier.

* `Answers`: what a rule answers;
* `Built`: what is built from these steps.
-/

namespace Docsmith.Source.Grammar

open TokenKind

/-- All that a rule may answer at its end has a property that is found by computing it. -/
class inductive Answers : {α : Type} → (α → Bool) → Rule α → Prop
  | pure {α : Type} {p : α → Bool} {a : α} : p a = true → Answers p (pure a)
  | bind {α β : Type} {p : α → Bool} {x : Rule β} {f : β → Rule α} :
      (∀ b, Answers p (f b)) → Answers p (x >>= f)
  | pass {α β : Type} {p : α → Bool} {q : β → Bool} {x : Rule β} {f : β → Rule α} :
      Answers q x → (∀ b, q b = true → Answers p (f b)) → Answers p (x >>= f)

/-- Every kind but that of names. -/
@[reducible] def isUnnamed (kind : NodeKind) : Bool :=
  match kind with
  | .name => false
  | _ => true

@[reducible] def isUnnamed? (kind : Option NodeKind) : Bool :=
  match kind with
  | some .name => false
  | _ => true

/-- What is collected is not collected as a name. -/
@[reducible] def leavesUnnamed {α : Type} (answer : Option NodeKind × α) : Bool :=
  isUnnamed? answer.1

/-- A rule that is built from the steps of the grammar. Lists of associated items stand apart, as
other rules cannot be told where they end, and so do names. -/
class inductive Built : {α : Type} → Rule α → Prop
  | pure {α : Type} (a : α) : Built (pure a : Rule α)
  | bind {α β : Type} {x : Rule α} {f : α → Rule β} :
      Built x → (∀ a, Built (f a)) → Built (x >>= f)
  | look {β : Type} (d : List Input → β) : Built (look d)
  | fault (message : String) : Built (fault message)
  | take {k : TokenKind} : rCurly ∉ k.parts → Built (take k)
  | takeOne {wanted : TokenKind → Bool} : wanted rCurly = false → Built (takeOne wanted)
  | call (g : Goal) : Built (call g)
  | nameOf : Built (node .name (take ident))
  | group {α : Type} {body : Rule (Option NodeKind × α)} :
      Built body → Answers leavesUnnamed body → Built (group body)
  | around {α : Type} {kind : NodeKind} {body : Rule α} :
      isUnnamed kind = true → Built body → Built (around kind body)
  | enclose {kind : NodeKind} : isUnnamed kind = true → Built (enclose kind)
  | absorb : Built absorb
  | newest : Built newest
  | iterate {α : Type} (a : α) {body : α → Rule (Bool × α)} : (∀ a, Built (body a)) →
      Built (iterate a body)
  | braced {kind : NodeKind} {body : Rule Unit} : kind ≠ .assocItemList → isUnnamed kind = true →
      Built body → Built (braced kind body)
  | members : Built (members true false) → Built (memberList .assocItemList true false)
  | wrapNext (message : String) : Built (wrapNext message)

attribute [instance] Built.pure Built.look Built.fault Built.call Built.absorb Built.newest
  Built.wrapNext

/-- A truth that is found by computing it. -/
class Holds (b : Bool) : Prop where
  eq : b = true

instance : Holds true := ⟨rfl⟩

section

variable {α β : Type} {p : α → Bool} {x y : Rule α}

theorem Answers.holds (h : Answers p x) (S : Goal → Step Outcome) (s : State) :
    p (x S s).1 = true := by
  induction h generalizing s with
  | pure h => exact h
  | bind _ ih => exact ih _ _
  | pass _ _ hx ih => exact ih _ (hx s) _

instance {a : α} [h : Holds (p a)] : Answers p (pure a) := .pure h.eq

instance {z : Rule β} {f : β → Rule α} [h : ∀ b, Answers p (f b)] : Answers p (z >>= f) := .bind h

theorem Answers.ite {c : Prop} [Decidable c] (hx : Answers p x) (hy : Answers p y) :
    Answers p (if c then x else y) := by
  split <;> assumption

instance {c : Prop} [Decidable c] [hx : Answers p x] [hy : Answers p y] :
    Answers p (if c then x else y) :=
  .ite hx hy

theorem isUnnamed?_some {kind : NodeKind} (h : isUnnamed kind = true) :
    isUnnamed? (some kind) = true := by
  cases kind <;> first | rfl | cases h

instance {z : Rule NodeKind} {a : α} [h : Answers isUnnamed z] :
    Answers leavesUnnamed (z >>= fun kind => pure (some kind, a)) :=
  .pass h fun _ hk => .pure (isUnnamed?_some hk)

instance {z : Rule NodeKind} [h : Answers isUnnamed z] :
    Answers isUnnamed? (z >>= fun kind => pure (some kind)) :=
  .pass h fun _ hk => .pure (isUnnamed?_some hk)

instance {z : Rule (Option NodeKind)} {f : Option NodeKind → α} [h : Answers isUnnamed? z] :
    Answers leavesUnnamed (z >>= fun kind => pure (kind, f kind)) :=
  .pass h fun _ hk => .pure hk

instance {c : Prop} [Decidable c] {a b : α} [ha : Holds (p a)] [hb : Holds (p b)] :
    Holds (p (if c then a else b)) := by
  split <;> assumption

instance {c : Prop} [Decidable c] {p : α × β → Bool} {a a' : α} {b : β} [ha : Holds (p (a, b))]
    [hb : Holds (p (a', b))] : Holds (p (if c then a else a', b)) := by
  split <;> assumption

end

section

variable {α β : Type} {x y : Rule α}

instance {f : α → Rule β} [hx : Built x] [hf : ∀ a, Built (f a)] : Built (x >>= f) := .bind hx hf

theorem Built.ite {c : Prop} [Decidable c] (hx : Built x) (hy : Built y) :
    Built (if c then x else y) := by
  split <;> assumption

instance {c : Prop} [Decidable c] [hx : Built x] [hy : Built y] : Built (if c then x else y) :=
  .ite hx hy

theorem Built.discard (h : Built x) : Built (discard x) := .bind h fun _ => .pure ()

instance [h : Built x] : Built (discard x) := h.discard

instance {body : Rule (Option NodeKind × α)} [h : Built body] [ha : Answers leavesUnnamed body] :
    Built (group body) :=
  .group h ha

instance : Built (node .name (take ident)) := .nameOf

instance {kind : NodeKind} [h : Holds (isUnnamed kind)] [Built x] : Built (node kind x) := by
  have (a : α) : Holds (leavesUnnamed (some kind, a)) := ⟨isUnnamed?_some h.eq⟩
  unfold node; infer_instance

theorem Built.nodeOf {body : Rule NodeKind} (h : Built body) (ha : Answers isUnnamed body) :
    Built (nodeOf body) := by
  unfold Grammar.nodeOf; infer_instance

instance {body : Rule NodeKind} [h : Built body] [ha : Answers isUnnamed body] :
    Built (nodeOf body) :=
  h.nodeOf ha

theorem Built.nodeIf {body : Rule (Option NodeKind)} (h : Built body)
    (ha : Answers isUnnamed? body) : Built (nodeIf body) := by
  unfold Grammar.nodeIf; infer_instance

instance {body : Rule (Option NodeKind)} [h : Built body] [ha : Answers isUnnamed? body] :
    Built (nodeIf body) :=
  h.nodeIf ha

instance {kind : NodeKind} [h : Holds (isUnnamed kind)] [hx : Built x] : Built (around kind x) :=
  .around h.eq hx

instance {kind : NodeKind} [h : Holds (isUnnamed kind)] : Built (enclose kind) := .enclose h.eq

instance {a : α} {body : α → Rule (Bool × α)} [h : ∀ a, Built (body a)] : Built (iterate a body) :=
  .iterate a h

instance {body : Rule Bool} [Built body] : Built (repeatWhile body) := by
  unfold repeatWhile; infer_instance

instance (n : Nat) : Built (nth n) := by unfold nth; infer_instance
instance : Built current := by unfold current; infer_instance
instance (n : Nat) (k : TokenKind) : Built (seesAt n k) := by unfold seesAt; infer_instance
instance (k : TokenKind) : Built (sees k) := by unfold sees; infer_instance
instance (p : TokenKind → Bool) : Built (seesAny p) := by unfold seesAny; infer_instance
instance (n : Nat) (w : String) : Built (seesWordAt n w) := by unfold seesWordAt; infer_instance
instance (w : String) : Built (seesWord w) := by unfold seesWord; infer_instance
instance : Built seesEnd := by unfold seesEnd; infer_instance
instance (g : Goal) : Built (run g) := by unfold run; infer_instance

instance {β : Type} (kind : β → TokenKind) (bs : List β) : Built (firstSeen kind bs) := by
  induction bs with
  | nil => unfold firstSeen; infer_instance
  | cons b bs ih => unfold firstSeen; infer_instance

/-- What follows the first of some tokens need only be known for these. -/
theorem Built.firstSeen_bind {γ : Type} {kind : γ → TokenKind} {cs : List γ}
    {f : Option γ → Rule β} (hn : Built (f none)) (hs : ∀ c ∈ cs, Built (f (some c))) :
    Built (firstSeen kind cs >>= f) := by
  induction cs with
  | nil =>
    unfold firstSeen
    rwa [pure_bind]
  | cons c cs ih =>
    obtain ⟨hc, hcs⟩ := List.forall_mem_cons.1 hs
    unfold firstSeen
    rw [bind_assoc]
    refine .bind inferInstance fun seen => ?_
    cases seen with
    | true => exact (pure_bind (some c) f).symm ▸ hc
    | false => exact ih hcs

instance (close : TokenKind) {body : Rule Bool} [Built body] : Built (untilSees close body) := by
  unfold untilSees; infer_instance

end

/-! ## Tokens -/

@[reducible] def isOpen (k : TokenKind) : Bool :=
  match k with
  | rCurly => false
  | _ => true

@[reducible] def isPlainList (kind : NodeKind) : Bool :=
  match kind with
  | .assocItemList => false
  | _ => true

theorem not_mem_parts {k : TokenKind} (h : isOpen k = true) : rCurly ∉ k.parts := by
  cases k <;> first | decide | cases h

theorem ne_assocItemList {kind : NodeKind} (h : isPlainList kind = true) :
    kind ≠ .assocItemList := by
  rintro rfl
  cases h

section

variable {k : TokenKind} [h : Holds (isOpen k)]

instance : Built (take k) := .take (not_mem_parts h.eq)
instance : Built (eat k) := by unfold eat; infer_instance
instance : Built (skip k) := by unfold skip; infer_instance
instance : Built (expect k) := by unfold expect; infer_instance
instance : Built (need k) := by unfold need; infer_instance

end

instance {kind : NodeKind} {body : Rule Unit} [h : Holds (isPlainList kind)]
    [hn : Holds (isUnnamed kind)] [hb : Built body] : Built (braced kind body) :=
  .braced (ne_assocItemList h.eq) hn.eq hb

end Docsmith.Source.Grammar
