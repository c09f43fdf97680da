import Docsmith.Proofs.Source.Grammar.Endings

/-!
# Items at the end of a list

The last item in front of the place is read alike from both inputs. Behind it, the loop over the
list finds the brace in the one input, and more items in the other.
-/

namespace Docsmith.Source.Grammar

open TokenKind Outline

namespace Insertion

variable {α β : Type} {I : Insertion} {S T : Goal → Step Outcome} {s : State}

/-! ## Rules that find nothing at the place -/

theorem current_atPlace (hs : I.AtPlace s) : current S s = (rCurly, s) := by
  change ((((ahead s.rest)[0]?.map (·.kind)).getD .eof), s) = _
  rw [ahead_atPlace hs]
  simp [I.closing_kind]

theorem seesWord_atPlace (hs : I.AtPlace s) (w : String) : seesWord w S s = (false, s) := by
  change (((ahead s.rest)[0]?.any fun t => t.kind = .ident && t.text = w), s) = _
  rw [ahead_atPlace hs]
  simp [I.closing_kind]

theorem optVisibility_atPlace (hs : I.AtPlace s) (inTuple : Bool) :
    optVisibility inTuple S s = (false, s) := by
  have hsees : sees .pubKw S s = (false, s) := by
    rw [sees_apply, ahead_atPlace hs]
    simp [parts, startsWith, I.closing_kind]
  rw [optVisibility, bind_apply, hsees]
  rfl

theorem plainItem_atPlace (hs : I.AtPlace s) : plainItem S s = (none, s) := by
  rw [plainItem, bind_apply]
  change ((current >>= _ : Rule _) S s) = _
  rw [bind_apply, current_atPlace hs]
  rfl

theorem seesUsePath_atPlace (hs : I.AtPlace s) : seesUsePath S s = (false, s) := by
  rw [seesUsePath, bind_apply, current_atPlace hs]
  rfl

theorem keywordUnless_atPlace (hs : I.AtPlace s) (k : TokenKind) [Holds (isOther k)]
    (follows : TokenKind → Bool) : keywordUnless k follows S s = (false, s) := by
  rw [keywordUnless, bind_apply, sees_atPlace hs]
  rfl

theorem wordBefore_atPlace (hs : I.AtPlace s) (w : String) (follows : TokenKind → Bool) :
    wordBefore w follows S s = (false, s) := by
  rw [wordBefore, bind_apply, seesWord_atPlace hs]
  rfl

theorem optAbi_atPlace (hs : I.AtPlace s) : optAbi S s = (false, s) := by
  rw [optAbi, bind_apply, sees_atPlace hs]
  rfl

theorem optDefault_atPlace (hs : I.AtPlace s) : optDefault S s = (false, s) := by
  rw [optDefault, bind_apply, wordBefore_atPlace hs]
  change ((seesWord "default" >>= _ : Rule _) S s) = _
  rw [bind_apply, seesWord_atPlace hs]
  rfl

theorem modifiers_atPlace (hs : I.AtPlace s) : modifiers false S s = ((false, false), s) := by
  rw [modifiers, bind_apply, keywordUnless_atPlace hs, bind_apply, keywordUnless_atPlace hs,
    bind_apply, keywordUnless_atPlace hs, if_neg Bool.false_ne_true, bind_apply, pure_apply]
  dsimp only
  rw [bind_apply, optAbi_atPlace hs, bind_apply, wordBefore_atPlace hs, bind_apply,
    optDefault_atPlace hs]
  rfl

/-! ## Rules that have found nothing -/

/-- A rule that does not answer `a`. -/
class Never (a : α) (r : Rule α) : Prop where
  ne (S : Goal → Step Outcome) (s : State) : (r S s).1 ≠ a

/-- A rule that answers `a` has read nothing. -/
class IdleOn (a : α) (r : Rule α) : Prop where
  idleOn (S : Goal → Step Outcome) (s : State) : (r S s).1 = a → (r S s).2 = s

section

variable {a : α} {x y : Rule α}

instance : Never false (pure true : Rule Bool) := ⟨fun _ _ => Bool.noConfusion⟩
instance (b : α) : Never none (pure (some b) : Rule (Option α)) :=
  ⟨fun _ _ => Option.some_ne_none b⟩

instance {z : Rule β} {f : β → Rule α} [hf : ∀ b, Never a (f b)] : Never a (z >>= f) :=
  ⟨fun S _ => (hf _).ne S _⟩

instance {c : Prop} [Decidable c] [Never a x] [Never a y] : Never a (if c then x else y) := by
  split <;> assumption

instance [h : Never a x] : IdleOn a x := ⟨fun S u hu => absurd hu (h.ne S u)⟩
instance [h : Idle x] : IdleOn a x := ⟨fun S u _ => h.idle S u⟩

theorem idleOn_bind {z : Rule β} {f : β → Rule α} (hz : Idle z) (hf : ∀ b, IdleOn a (f b)) :
    IdleOn a (z >>= f) where
  idleOn S s h := by
    rw [bind_apply] at h ⊢
    rw [(hf _).idleOn S _ h, hz.idle]

instance {z : Rule β} {f : β → Rule α} [hz : Idle z] [hf : ∀ b, IdleOn a (f b)] :
    IdleOn a (z >>= f) := idleOn_bind hz hf

instance {c : Prop} [Decidable c] [IdleOn a x] [IdleOn a y] : IdleOn a (if c then x else y) := by
  split <;> assumption

/-- What has been read is found. -/
instance {z : Rule Bool} [hz : IdleOn false z] [hx : Never a x] [hy : IdleOn a y] :
    IdleOn a (z >>= fun found => if found then x else y) where
  idleOn S s h := by
    rw [bind_apply] at h ⊢
    split at h
    · exact absurd h (hx.ne S _)
    · rename_i hfound
      rw [if_neg hfound]
      rw [hy.idleOn S _ h, hz.idleOn S s (Bool.not_eq_true _ ▸ hfound)]

end

instance (inTuple : Bool) : IdleOn false (optVisibility inTuple) := by
  unfold optVisibility; infer_instance

instance (k : TokenKind) (follows : TokenKind → Bool) : IdleOn false (keywordUnless k follows) := by
  unfold keywordUnless; infer_instance

instance (w : String) (follows : TokenKind → Bool) : IdleOn false (wordBefore w follows) := by
  unfold wordBefore; infer_instance

instance : IdleOn false optAbi := by unfold optAbi; infer_instance
instance : IdleOn false optDefault := by unfold optDefault; infer_instance

set_option synthInstance.maxSize 1000 in
instance : IdleOn none plainItem := by
  unfold plainItem
  refine idleOn_bind inferInstance fun second => idleOn_bind inferInstance fun k => ?_
  split <;> infer_instance

theorem modifiers_idle {S : Goal → Step Outcome} {s : State}
    (h : (modifiers false S s).1.1 = false) : (modifiers false S s).2 = s := by
  simp only [modifiers, bind_apply, pure_apply, if_neg Bool.false_ne_true, Bool.or_eq_false_iff] at h ⊢
  obtain ⟨⟨⟨⟨⟨⟨hconst, hasync⟩, hunsafe⟩, -⟩, habi⟩, hauto⟩, hdefault⟩ := h
  rw [IdleOn.idleOn S _ hdefault, IdleOn.idleOn S _ hauto, IdleOn.idleOn S _ habi,
    IdleOn.idleOn S _ hunsafe, IdleOn.idleOn S _ hasync, IdleOn.idleOn S _ hconst]

/-! ## The last item -/

theorem itemBehind_unmarked (hs : I.AtPlace s) (external : Bool) :
    itemBehind false external S s = (none, s) := by
  rw [itemBehind, bind_apply, bind_apply, (inferInstance : Idle (nth 1)).idle, current_atPlace hs]
  rfl

theorem itemBehind_marked (hs : I.AtPlace s) (external : Bool) :
    (itemBehind true external S s).2 = s.noting "expected an item" := by
  rw [itemBehind, bind_apply, bind_apply, (inferInstance : Idle (nth 1)).idle, current_atPlace hs]
  rfl

theorem modifiedItem_atPlace (hs : I.AtPlace s) (visible : Bool) :
    modifiedItem visible false S s = itemBehind visible false S s := by
  rw [modifiedItem, bind_apply, modifiers_atPlace hs]
  dsimp only
  rw [Bool.or_false]

theorem plainOrModifiedItem_atPlace (hs : I.AtPlace s) (visible : Bool) :
    plainOrModifiedItem visible false S s = itemBehind visible false S s := by
  rw [plainOrModifiedItem, bind_apply, plainItem_atPlace hs]
  dsimp only
  exact modifiedItem_atPlace hs visible

theorem optItem_atPlace (hs : I.AtPlace s) : optItem false S s = (none, s) := by
  rw [optItem, bind_apply, optVisibility_atPlace hs]
  exact (plainOrModifiedItem_atPlace hs false).trans (itemBehind_unmarked hs false)

section

variable [I.Solves S T]

instance (marked external : Bool) : I.Ending S T (itemBehind marked external) := by
  unfold itemBehind
  refine ending_idle inferInstance fun second => ending_idle inferInstance fun k => ?_
  split <;> infer_instance

instance (visible : Bool) : I.Ending S T (modifiedItem visible false) where
  built := inferInstance
  ends := by
    refine endsWhen_bind (follows inferInstance) (fun _ => moves_built (I := I) inferInstance)
      (fun _ => Ending.ends) fun s t hst _ hs hc _ _ => ?_
    -- What has been read are modifiers, so an item has to follow.
    have hmodified : (modifiers false S s).1.1 = true := by
      refine Bool.of_not_eq_false fun h => ?_
      exact absurd (modifiers_idle h ▸ hs) hst.not_atPlace
    generalize (modifiers false S s).1 = found at hmodified hc ⊢
    obtain ⟨modified, external⟩ := found
    obtain rfl := hmodified
    dsimp only at hc
    rw [Bool.or_true, itemBehind_marked hs] at hc
    exact absurd hc (noting_ne (List.suffix_refl _))

instance (visible : Bool) : I.Ending S T (plainOrModifiedItem visible false) where
  built := inferInstance
  ends := by
    have hrest (found : Option NodeKind) : I.Ending S T (match found with
        | some kind => pure (some kind)
        | _ => modifiedItem visible false) := by split <;> infer_instance
    refine endsWhen_bind (follows inferInstance) (fun a => moves_built (I := I) (hrest a).built)
      (fun a => (hrest a).ends) fun s t hst hc hs _ _ _ => ?_
    cases hfound : (plainItem S s).1 with
    | none => exact absurd (IdleOn.idleOn S s hfound ▸ hs) hst.not_atPlace
    | some kind => exact ⟨Ending.ends s t hst hc hs trivial, (inferInstance : I.Blind S T (pure _)).blind⟩

instance : I.Ending S T (optItem false) where
  built := inferInstance
  ends := by
    refine endsWhen_bind (follows inferInstance) (fun _ => moves_built (I := I) inferInstance)
      (fun _ => Ending.ends) fun s t hst _ hs hc _ _ => ?_
    -- What has been read is a visibility, so an item has to follow.
    have hvisible : (optVisibility false S s).1 = true := by
      refine Bool.of_not_eq_false fun h => ?_
      exact absurd (IdleOn.idleOn S s h ▸ hs) hst.not_atPlace
    rw [hvisible, plainOrModifiedItem_atPlace hs, itemBehind_marked hs] at hc
    exact absurd hc (noting_ne (List.suffix_refl _))

/-- What is read in place of an item is an item or a macro call. -/
def isItem : Found → Prop
  | .item | .macroCall => True
  | _ => False

/-- A semicolon follows a macro call unless it ends with a brace. -/
theorem ending_macroCall : I.Ending S T (do
    if (← macroArgs) ≠ .block then need .semi
    return (some .macroCall, .macroCall) : Rule (Option NodeKind × Found)) where
  built := inferInstance
  ends := by
    refine endsWhen_bind (follows inferInstance) (fun _ => moves_built (I := I) inferInstance)
      (fun _ => Ending.ends) fun s t hst hcm hs hc hs' _ => ?_
    by_cases hblock : (macroArgs S s).1 = .block
    · rw [hblock]
      exact ⟨Ending.ends s t hst hcm hs trivial, (inferInstance : I.Blind S T (pure _)).blind⟩
    · have hsemi : I.ReadsOn S (need .semi >>= fun _ =>
          pure (some .macroCall, .macroCall) : Rule (Option NodeKind × Found)) :=
        (inferInstance : I.Closes S T _).readsOn
      rw [if_pos hblock] at hc hs'
      exact absurd hs' (hsemi _ hs hc)

theorem endsWhen_macroOrPath : I.EndsWhen S T (fun v => isItem v.2) macroOrPath := by
  have hcall : I.Ending S T _ := ending_macroCall
  refine endsWhen_bind (follows inferInstance) (fun _ => moves_built (I := I) inferInstance)
    (fun _ s t hst hc hs _ => Ending.ends s t hst hc hs trivial) fun s t _ _ hs _ _ hp => ?_
  rw [bind_apply, sees_atPlace hs] at hp
  exact hp.elim

theorem itemOrMacro_atPlace (hs : I.AtPlace s) : itemOrMacro false S s = ((none, .other), s) := by
  rw [itemOrMacro, bind_apply, optItem_atPlace hs]
  dsimp only
  rw [bind_apply, seesUsePath_atPlace hs]
  rfl

theorem endsWhen_itemOrMacro : I.EndsWhen S T (fun v => isItem v.2) (itemOrMacro false) := by
  have hbuilt (found : Option NodeKind) : Built (match found with
      | some kind => pure (some kind, .item)
      | _ => do if ← seesUsePath then macroOrPath else return (none, .other) :
        Rule (Option NodeKind × Found)) := by split <;> infer_instance
  refine endsWhen_bind (follows inferInstance) (fun a => moves_built (I := I) (hbuilt a))
    (fun found => ?_) fun s t hst hc hs _ _ hp => ?_
  · cases found with
    | some kind => exact fun s t hst hc hs _ => Ending.ends s t hst hc hs trivial
    | none =>
      refine endsWhen_idle inferInstance (fun _ => inferInstance) fun seen => ?_
      split
      · exact endsWhen_macroOrPath
      · exact fun s t hst hc hs _ => Ending.ends s t hst hc hs trivial
  · cases hfound : (optItem false S s).1 with
    | some kind => exact ⟨Ending.ends s t hst hc hs trivial, (inferInstance : I.Blind S T (pure _)).blind⟩
    | none =>
      rw [hfound] at hp
      dsimp only at hp
      rw [bind_apply, seesUsePath_atPlace hs] at hp
      exact hp.elim

theorem afterItem_atPlace (hs : I.AtPlace s) {found : Found}
    (hfound : ¬ isItem found) : (afterItem true found S s).2.faults ≠ s.faults := by
  cases found with
  | item => exact absurd trivial hfound
  | macroCall => exact absurd trivial hfound
  | path => exact noting_ne (List.suffix_refl _)
  | other =>
    rw [afterItem, bind_apply, current_atPlace hs]
    exact noting_ne (List.suffix_refl _)

instance (found : Found) : I.Ending S T (afterItem true found) := by
  cases found with
  | other =>
    refine ending_idle inferInstance fun k => ?_
    split <;> infer_instance
  | _ => unfold afterItem; infer_instance

theorem blind_afterItem {found : Found} (h : isItem found) :
    I.Blind S T (afterItem true found) := by
  cases found with
  | item =>
    exact inferInstanceAs (I.Blind S T do
      if ← sees .semi then wrapNext "expected item, found semicolon")
  | macroCall => exact inferInstanceAs (I.Blind S T (pure ()))
  | path => exact h.elim
  | other => exact h.elim

theorem ending_item : I.Ending S T (item true false) where
  built := inferInstance
  ends := by
    have hgroup : I.EndsWhen S T isItem (group do
        outerAttrs
        itemOrMacro false) := by
      refine endsWhen_group (endsWhen_bind (follows inferInstance)
        (fun _ => moves_built (I := I) inferInstance) (fun _ => endsWhen_itemOrMacro)
        fun s t _ _ hs _ _ hp => ?_)
      rw [itemOrMacro_atPlace hs] at hp
      exact hp.elim
    refine endsWhen_bind (follows inferInstance) (fun _ => moves_built (I := I) inferInstance)
      (fun _ => Ending.ends) fun s t hst hcg hs hc _ _ => ?_
    by_cases hfound : isItem (group (do outerAttrs; itemOrMacro false) S s).1
    · exact ⟨hgroup s t hst hcg hs hfound, (blind_afterItem (I := I) (S := S) (T := T) hfound).blind⟩
    · exact absurd hc (afterItem_atPlace hs hfound)

end

end Insertion

end Docsmith.Source.Grammar
