import Docsmith.Proofs.Source.Grammar.Lists

/-!
# How items end

An item ends with a semicolon or a closing bracket, and what its rules do behind that is the same
whether a brace follows or another item. So an item that ends in front of the place is read alike
from both inputs.

* `Ending`: the rule reads alike what ends in front of the place;
* `Closes`: what is more, the rule does not start there without a fault;
* `closes_bind`: what closes at its end closes.
-/

namespace Docsmith.Source.Grammar

open TokenKind Outline

namespace Insertion

variable {α β : Type}

/-- The rule reads alike what ends in front of the place. -/
class Ending (I : Insertion) (S T : Goal → Step Outcome) (r : Rule α) : Prop where
  built : Built r
  ends : I.EndsWhen S T (fun _ => True) r

/-- What is more, the rule does not end where it starts if it starts at the place. -/
class Closes (I : Insertion) (S T : Goal → Step Outcome) (r : Rule α) : Prop
    extends I.Ending S T r where
  readsOn : I.ReadsOn S r

/-- The rule does not tell the inputs apart at the place. -/
class Blind (I : Insertion) (S T : Goal → Step Outcome) (r : Rule α) : Prop where
  built : Built r
  blind : I.BlindAt S T r

/-- The rule only looks. -/
class Idle (r : Rule α) : Prop where
  built : Built r
  idle (S : Goal → Step Outcome) (s : State) : (r S s).2 = s

variable {I : Insertion} {S T : Goal → Step Outcome} {s t u v : State} {x y : Rule α}
  {f : α → Rule β}

section

variable {k : TokenKind} [Holds (isOpen k)]

instance : I.Ending S T (take k) := ⟨inferInstance, endsWhen_take k⟩
instance : I.Ending S T (need k) := ⟨inferInstance, endsWhen_need k⟩
instance : I.Ending S T (eat k) := ⟨inferInstance, endsWhen_eat k⟩

end

/-! ## Looking -/

instance (a : α) : Idle (pure a : Rule α) := ⟨inferInstance, fun _ _ => rfl⟩
instance (d : List Input → β) : Idle (look d) := ⟨inferInstance, fun _ _ => rfl⟩

instance [hx : Idle x] [hf : ∀ a, Idle (f a)] : Idle (x >>= f) where
  built := .bind hx.built fun a => (hf a).built
  idle S s := by rw [bind_apply, (hf _).idle, hx.idle]

instance {c : Prop} [Decidable c] [Idle x] [Idle y] : Idle (if c then x else y) := by
  split <;> assumption

instance (n : Nat) : Idle (nth n) := by unfold nth; infer_instance
instance : Idle current := by unfold current; infer_instance
instance (n : Nat) (k : TokenKind) : Idle (seesAt n k) := by unfold seesAt; infer_instance
instance (k : TokenKind) : Idle (sees k) := by unfold sees; infer_instance
instance (p : TokenKind → Bool) : Idle (seesAny p) := by unfold seesAny; infer_instance
instance (n : Nat) (w : String) : Idle (seesWordAt n w) := by unfold seesWordAt; infer_instance
instance (w : String) : Idle (seesWord w) := by unfold seesWord; infer_instance
instance : Idle seesBuiltin := by unfold seesBuiltin; infer_instance

instance : Idle seesUsePath := by
  unfold seesUsePath
  have (k : TokenKind) : Idle (match k with
    | .ident | .selfKw | .superKw | .crateKw => pure true
    | .colon => sees .colon2
    | _ => pure false : Rule Bool) := by split <;> infer_instance
  infer_instance

instance [h : Idle x] : I.Ending S T x where
  built := h.built
  ends s _ hst _ hs _ := absurd (h.idle S s ▸ hs) hst.not_atPlace

instance (message : String) : I.Ending S T (fault message) where
  built := inferInstance
  ends _ _ _ hc := absurd hc (noting_ne (List.suffix_refl _))

/-! ## The place -/

section

variable {k : TokenKind} [Holds (isOther k)] [Holds (isOpen k)]

instance : I.Blind S T (sees k) := ⟨inferInstance, blindAt_sees⟩
instance : I.Blind S T (eat k) := ⟨inferInstance, blindAt_eat⟩

instance : I.Closes S T (take k) where
  readsOn := readsOn_take

instance : I.Closes S T (need k) where
  readsOn := readsOn_need

end

instance (a : α) : I.Blind S T (pure a) := ⟨inferInstance, fun _ _ _ => ⟨rfl, rfl⟩⟩

instance (message : String) : I.Blind S T (fault message) :=
  ⟨inferInstance, fun _ _ hc => absurd hc (noting_ne (List.suffix_refl _))⟩

instance (message : String) : I.Closes S T (fault message) where
  readsOn _ _ hc := absurd hc (noting_ne (List.suffix_refl _))

instance {c : Prop} [Decidable c] [I.Blind S T x] [I.Blind S T y] :
    I.Blind S T (if c then x else y) := by
  split <;> assumption

instance {c : Prop} [Decidable c] [I.Closes S T x] [I.Closes S T y] :
    I.Closes S T (if c then x else y) := by
  split <;> assumption

instance {c : Prop} [Decidable c] [I.Ending S T x] [I.Ending S T y] :
    I.Ending S T (if c then x else y) := by
  split <;> assumption

/-! ## Rules in a row -/

section

variable [hS : I.Solves S T]
include hS

theorem readsOn_bind (hb : Built x) (hm : ∀ a s, Moves s (f a S s).2) (hf : ∀ a, I.ReadsOn S (f a)) :
    I.ReadsOn S (x >>= f) := by
  intro s hs hc
  obtain ⟨hcx, hcf⟩ := (moves_built (I := I) hb s).clean (hm _ _) hc
  exact hf _ _ ((follows (I := I) hb).stays hs hcx) hcf

/-- What has left the place does not come back. -/
theorem readsOn_left (hb : Built x) (hm : ∀ a, Built (f a)) (hx : I.ReadsOn S x) :
    I.ReadsOn S (x >>= f) := by
  intro s hs hc _
  obtain ⟨hcx, -⟩ := (moves_built (I := I) hb s).clean (moves_built (I := I) (hm _) _) hc
  exact hx s hs hcx ((follows (I := I) hb).stays hs hcx)

/-- Nothing has been read yet where a rule has only looked. -/
theorem endsWhen_idle {p : β → Prop} (hx : Idle x) (hb : ∀ a, Built (f a))
    (hf : ∀ a, I.EndsWhen S T p (f a)) : I.EndsWhen S T p (x >>= f) :=
  endsWhen_bind (follows hx.built) (fun a => moves_built (I := I) (hb a)) hf
    fun s _ hst _ hs _ _ _ => absurd (hx.idle S s ▸ hs) hst.not_atPlace

theorem ending_idle (hx : Idle x) (hf : ∀ a, I.Ending S T (f a)) : I.Ending S T (x >>= f) where
  built := .bind hx.built fun a => (hf a).built
  ends := endsWhen_idle hx (fun a => (hf a).built) fun a => (hf a).ends

instance [hx : Idle x] [hf : ∀ a, I.Ending S T (f a)] : I.Ending S T (x >>= f) := ending_idle hx hf

/-- Nothing follows. -/
theorem ending_last (hx : I.Ending S T x) (hl : ∀ a, I.Blind S T (f a))
    (hf : ∀ a, I.Ending S T (f a)) : I.Ending S T (x >>= f) where
  built := .bind hx.built fun a => (hf a).built
  ends := endsWhen_bind (follows hx.built) (fun a => moves_built (I := I) (hf a).built)
    (fun a => (hf a).ends) fun _ _ hst hc hs _ _ _ => ⟨hx.ends _ _ hst hc hs trivial, (hl _).blind⟩

instance [hx : I.Ending S T x] [hl : ∀ a, I.Blind S T (f a)] [hf : ∀ a, I.Ending S T (f a)] :
    I.Ending S T (x >>= f) := ending_last hx hl hf

/-- More follows. -/
theorem closes_bind (hb : Built x) (hf : ∀ a, I.Closes S T (f a)) : I.Closes S T (x >>= f) where
  built := .bind hb fun a => (hf a).built
  ends := endsWhen_bind (follows hb) (fun a => moves_built (I := I) (hf a).built)
    (fun a => (hf a).ends) fun _ _ _ _ hs hc hs' _ => absurd hs' ((hf _).readsOn _ hs hc)
  readsOn := readsOn_bind hb (fun a => moves_built (I := I) (hf a).built) fun a => (hf a).readsOn

instance [hb : Built x] [hf : ∀ a, I.Closes S T (f a)] : I.Closes S T (x >>= f) :=
  closes_bind hb hf

/-- What follows a branch is looked at once. -/
theorem closes_then {c : Prop} [Decidable c] {x : Rule Unit} {j : Unit → Rule β} (hx : Built x)
    (hj : ∀ a, I.Closes S T (j a)) : I.Closes S T (if c then x >>= j else j ()) := by
  split
  · exact closes_bind hx hj
  · exact hj ()

instance (priority := high) {c : Prop} [Decidable c] {x : Rule Unit} {j : Unit → Rule β}
    [hx : Built x] [hj : ∀ a, I.Closes S T (j a)] :
    I.Closes S T (if c then x >>= j else j ()) := closes_then hx hj

instance (priority := high) {c : Prop} [Decidable c] {x y : Rule Unit} {j : Unit → Rule β}
    [hx : Built x] [hy : Built y] [hj : ∀ a, I.Closes S T (j a)] :
    I.Closes S T (if c then x >>= j else y >>= j) := by
  split
  · exact closes_bind hx hj
  · exact closes_bind hy hj

instance (priority := low) [hx : I.Closes S T x] [hl : ∀ a, I.Blind S T (f a)]
    [hf : ∀ a, I.Ending S T (f a)] : I.Closes S T (x >>= f) where
  toEnding := ending_last hx.toEnding hl hf
  readsOn := readsOn_left hx.built (fun a => (hf a).built) hx.readsOn

instance [hx : I.Blind S T x] [hf : ∀ a, I.Blind S T (f a)] : I.Blind S T (x >>= f) where
  built := .bind hx.built fun a => (hf a).built
  blind s hs hc := by
    obtain ⟨hcx, hcf⟩ :=
      (moves_built (I := I) hx.built s).clean (moves_built (I := I) (hf _).built _) hc
    obtain ⟨hsame, hxt⟩ := hx.blind s hs hcx
    rw [hsame] at hcf
    obtain ⟨hsame', hft⟩ := (hf _).blind s hs hcf
    rw [bind_apply, bind_apply, hxt, hft, hsame, hsame']
    exact ⟨rfl, rfl⟩

instance {body : Rule (Option NodeKind × α)} [h : I.Ending S T body]
    [ha : Answers leavesUnnamed body] : I.Ending S T (group body) where
  built := .group h.built ha
  ends := endsWhen_group fun s t hst hc hs _ => h.ends s t hst hc hs trivial

instance {body : Rule (Option NodeKind × α)} [h : I.Closes S T body]
    [Answers leavesUnnamed body] : I.Closes S T (group body) where
  readsOn s hs hc := h.readsOn { s with siblings := [] } hs hc

instance {kind : NodeKind} [h : Holds (isUnnamed kind)] [I.Closes S T x] :
    I.Closes S T (node kind x) := by
  have (a : α) : Holds (leavesUnnamed (some kind, a)) := ⟨isUnnamed?_some h.eq⟩
  unfold node; infer_instance

instance : I.Closes S T (run .tokenTree) where
  built := inferInstance
  ends := endsWhen_map hS.tree fun _ => ()
  readsOn s hs hc := hS.tree_readsOn s hs hc

/-- A token that may be missing, with something in its place. -/
theorem closes_eat {k : TokenKind} [Holds (isOpen k)] [Holds (isOther k)] {y : Rule Unit}
    (hy : I.Closes S T y) : I.Closes S T (do if !(← eat k) then y) where
  built := .bind inferInstance fun _ => .ite hy.built (.pure _)
  ends := by
    have hb (a : Bool) : I.Ending S T (if !a then y else pure ()) := inferInstance
    refine endsWhen_bind (follows inferInstance) (fun a => moves_built (I := I) (hb a).built)
      (fun a => (hb a).ends) fun s t hst hc hs _ _ _ => ⟨endsWhen_eat k s t hst hc hs trivial, ?_⟩
    -- If the token is missing, nothing has been read.
    have htaken : (eat k S s).1 = true := by
      rw [eat_apply] at hs ⊢
      split at hs
      · rename_i hk
        rw [if_pos hk]
      · exact absurd hs hst.not_atPlace
    rw [htaken]
    exact (inferInstance : I.Blind S T (pure ())).blind
  readsOn s hs hc := by
    rw [bind_apply, eat_atPlace hs] at hc ⊢
    exact hy.readsOn s hs hc

/-- A token that must not be missing, with more behind it. -/
theorem closes_expect {k : TokenKind} [Holds (isOpen k)] [Holds (isOther k)] {y : Rule Unit}
    (hy : I.Closes S T y) : I.Closes S T (do if ← expect k then y) where
  built := .bind inferInstance fun _ => .ite hy.built (.pure _)
  ends := by
    have hb (a : Bool) : I.Ending S T (if a then y else pure ()) := inferInstance
    refine endsWhen_bind (follows inferInstance) (fun a => moves_built (I := I) (hb a).built)
      (fun a => (hb a).ends) fun s t hst hc hs hc' hs' _ => ?_
    rw [expect_apply] at hc hs hc' hs'
    split at hc
    · rename_i hk
      rw [if_pos hk] at hs hc' hs'
      exact absurd hs' (hy.readsOn _ hs hc')
    · exact absurd hc (noting_ne (List.suffix_refl _))
  readsOn s hs hc := by
    have hb (a : Bool) : Built (if a then y else pure ()) := .ite hy.built (.pure _)
    obtain ⟨hc, -⟩ := (moves_built (I := I) (inferInstance : Built (expect k)) s).clean
      (moves_built (I := I) (hb _) _) hc
    rw [expect_apply, not_startsWith_old hs, if_neg Bool.false_ne_true] at hc
    exact absurd hc (noting_ne (List.suffix_refl _))

/-- Nothing comes behind a fault. -/
instance (message : String) {f : Unit → Rule β} [hf : ∀ a, Built (f a)] :
    I.Closes S T (fault message >>= f) where
  built := inferInstance
  ends s _ _ hc := absurd hc (faults_bind (moves_built (I := I) (hf ())) s)
  readsOn s _ hc := absurd hc (faults_bind (moves_built (I := I) (hf ())) s)

instance (message : String) : I.Blind S T (wrapNext message) where
  built := inferInstance
  blind s _ hc := absurd hc (faults_wrapNext message s)

instance (message : String) : I.Closes S T (wrapNext message) where
  built := inferInstance
  ends s _ _ hc := absurd hc (faults_wrapNext message s)
  readsOn s _ hc := absurd hc (faults_wrapNext message s)

/-! ## Lists in braces -/

section

variable {kind : NodeKind} {body : Rule Unit}

theorem endsWhen_braced (h : Built body) : I.EndsWhen S T (fun _ => True) (braced kind body) := by
  have hclose : I.EndsWhen S T (fun _ => True) (body >>= fun _ => need .rCurly) :=
    endsWhen_bind (follows h) (fun _ => moves_need _) (fun _ => endsWhen_need _)
      fun _ _ _ _ hs hc hs' _ => absurd hs' (readsOn_closing _ hs hc)
  have hon : I.ReadsOn S (body >>= fun _ => need .rCurly) :=
    readsOn_bind h (fun _ => moves_need _) fun _ => readsOn_closing
  have hopen : I.EndsWhen S T (fun _ => True) (inBraces body) :=
    endsWhen_bind (follows inferInstance)
      (fun _ s => (moves_built (I := I) h s).trans (moves_need _ _)) (fun _ => hclose)
      fun _ _ _ _ hs hc hs' _ => absurd hs' (hon _ hs hc)
  exact endsWhen_group (endsWhen_map hopen fun _ => (some kind, ()))

theorem readsOn_braced (h : Built body) : I.ReadsOn S (braced kind body) := by
  intro s hs hc
  exact absurd hc (stays_inBraces (follows (I := I) (S := S) h) (s := { s with siblings := [] }) hs)

instance [h : Built (braced kind body)] [hb : Built body] : I.Closes S T (braced kind body) where
  built := h
  ends := endsWhen_braced hb
  readsOn := readsOn_braced hb

instance {blocks inExtern : Bool} [h : Built (memberList kind blocks inExtern)] :
    I.Closes S T (memberList kind blocks inExtern) where
  built := h
  ends := endsWhen_braced inferInstance
  readsOn := readsOn_braced inferInstance

end

/-! ## Bodies of items -/

set_option synthInstance.maxSize 4000

theorem closes_tokenTree : I.Closes S T tokenTree := by
  unfold tokenTree
  refine closes_bind inferInstance fun k => ?_
  split <;> infer_instance

instance : I.Closes S T stmtList := by unfold stmtList; infer_instance
instance : I.Closes S T blockExpr := by unfold blockExpr; infer_instance
instance : I.Closes S T errorBlock := by unfold errorBlock; infer_instance
instance : I.Closes S T recordFieldList := by unfold recordFieldList; infer_instance
instance : I.Closes S T variantList := by unfold variantList; infer_instance
instance : I.Closes S T constBody := by unfold constBody; infer_instance
instance : I.Closes S T staticBody := by
  unfold staticBody
  refine closes_bind inferInstance fun _ => closes_bind inferInstance fun _ => ?_
  exact closes_bind inferInstance fun _ => inferInstance

instance : I.Closes S T typeAliasBody := by unfold typeAliasBody; infer_instance
instance : I.Closes S T moduleBody := by unfold moduleBody; infer_instance
instance : I.Closes S T traitBody := by unfold traitBody; infer_instance
instance : I.Closes S T implBody := by unfold implBody; infer_instance

instance : I.Closes S T macroRulesBody := by
  unfold macroRulesBody
  refine closes_bind inferInstance fun _ => closes_bind inferInstance fun _ => ?_
  refine closes_bind inferInstance fun _ => closes_bind inferInstance fun k => ?_
  split <;> infer_instance

instance : I.Closes S T macroDefBody := by
  unfold macroDefBody
  refine closes_bind inferInstance fun _ => closes_bind inferInstance fun _ => ?_
  refine closes_bind inferInstance fun _ => ?_
  split
  · infer_instance
  · refine closes_bind inferInstance fun _ => ?_
    split
    · refine closes_bind inferInstance fun _ => closes_bind inferInstance fun k => ?_
      split <;> infer_instance
    · infer_instance

instance (isStruct : Bool) : I.Closes S T (structBody isStruct) := by
  unfold structBody
  refine closes_bind inferInstance fun _ => closes_bind inferInstance fun _ => ?_
  refine closes_bind inferInstance fun k => ?_
  split
  · refine closes_bind inferInstance fun _ => closes_bind inferInstance fun k => ?_
    split <;> infer_instance
  · infer_instance
  · infer_instance

instance : I.Closes S T asmArgs := by
  unfold asmArgs
  refine closes_bind inferInstance fun _ => closes_bind inferInstance fun _ => ?_
  refine closes_then inferInstance fun _ => closes_bind ?_ fun _ => inferInstance
  repeat' first
    | infer_instance
    | with_reducible constructor
    | with_reducible apply Built.discard
    | intro _
    | split

instance : I.Closes S T (attr true) := by
  unfold attr
  have hbody : I.Closes S T (do
      if ← expect .lBrack then
        node .attrBody do
          let marked ← eat .unsafeKw
          if marked then need .lParen
          path .inAttr
          match ← current with
          | .eq =>
            take .eq
            discard expr
          | .lParen | .lBrack | .lCurly => run .tokenTree
          | _ => pure ()
          if marked then need .rParen
        need .rBrack) := by
    refine closes_expect (closes_bind ?_ fun _ => inferInstance)
    repeat' first | infer_instance | with_reducible constructor | intro _ | split
  infer_instance

instance : I.Closes S T fnBody := by
  have hend : I.Closes S T (do if !(← eat .semi) then blockExpr) := closes_eat inferInstance
  have hskip : Built (repeatWhile do
      match ← current with
      | .rParen | .rBrack | .rAngle =>
        wrapNext "expected a curly brace"
        return true
      | _ => return false) := by
    refine .iterate _ fun _ => .bind (.bind inferInstance fun k => ?_) fun _ => .pure _
    split <;> infer_instance
  unfold fnBody
  infer_instance

instance : I.Ending S T plainItem := by
  unfold plainItem
  refine ending_idle inferInstance fun second => ending_idle inferInstance fun k => ?_
  split
  case h_10 => 
    refine ending_idle inferInstance fun _ => ?_
    split
    · infer_instance
    · refine ending_idle inferInstance fun _ => ending_idle inferInstance fun _ => ?_
      split
      · infer_instance
      · infer_instance
  all_goals infer_instance

instance : I.Closes S T macroArgs := by
  unfold macroArgs
  refine closes_bind inferInstance fun _ => closes_bind inferInstance fun k => ?_
  split <;> infer_instance

end

end Insertion

end Docsmith.Source.Grammar
