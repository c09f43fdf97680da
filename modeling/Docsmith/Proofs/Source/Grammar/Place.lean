import Docsmith.Proofs.Source.Grammar.Insertion

/-!
# In front of the place

What a rule reads may end right in front of the place, and a rule may start there. Then what follows
shows: a brace in the one input, more items in the other.

* `EndsWhen`: what ends in front of the place is read alike from both inputs;
* `ReadsOn`: the rule does not end where it starts if it starts at the place;
* `BlindAt`: the rule reads nothing there, and answers the same from both inputs;
* `endsWhen_bind`: what ends a row of rules in front of the place.
-/

namespace Docsmith.Source.Grammar

open TokenKind Outline

namespace Insertion

variable {α β : Type}

/-- The last thing read is a token. -/
def Ended (s : State) : Prop :=
  ∃ o older, s.siblings = o :: older ∧ o.EndsInToken

/-- The rule answers the same from the second input, and reads the same up to the place. -/
def ReadsAlike (I : Insertion) (S T : Goal → Step Outcome) (s t : State) (r : Rule α) : Prop :=
  r T t = ((r S s).1, { (r S s).2 with rest := I.new }) ∧ Ended (r S s).2

/-- What the rule reads that ends in front of the place, and its answer meets `p`, is read alike
from both inputs. -/
def EndsWhen (I : Insertion) (S T : Goal → Step Outcome) (p : α → Prop) (r : Rule α) : Prop :=
  ∀ s t, I.Before s t → (r S s).2.faults = s.faults → I.AtPlace (r S s).2 → p (r S s).1 →
    I.ReadsAlike S T s t r

/-- At the place the rule leaves a fault or reads on. -/
def ReadsOn (I : Insertion) (S : Goal → Step Outcome) (r : Rule α) : Prop :=
  ∀ s, I.AtPlace s → (r S s).2.faults = s.faults → ¬ I.AtPlace (r S s).2

/-- At the place the rule reads nothing, and answers the same from both inputs. -/
def BlindAt (I : Insertion) (S T : Goal → Step Outcome) (r : Rule α) : Prop :=
  ∀ s, I.AtPlace s → (r S s).2.faults = s.faults →
    (r S s).2 = s ∧ r T { s with rest := I.new } = ((r S s).1, { s with rest := I.new })

variable {I : Insertion} {S T : Goal → Step Outcome} {s t u v : State} {x y : Rule α}
  {f : α → Rule β}

theorem Before.not_atPlace (h : I.Before s t) : ¬ I.AtPlace s := by
  obtain @⟨front, siblings, faults, hfront⟩ := h
  exact fun hs => hfront (List.append_left_eq_self.1 hs)

theorem Before.not_astray (h : I.Before s t) : ¬ I.Astray s := by
  obtain @⟨front, siblings, faults, hfront⟩ := h
  rintro ⟨j, kind, -, -, hlength⟩
  simp [old] at hlength
  omega

theorem AtPlace.not_astray (h : I.AtPlace s) : ¬ I.Astray s := by
  rintro ⟨j, kind, -, -, hlength⟩
  rw [h, old, List.length_cons] at hlength
  omega

/-- Behind the list no rule comes back to the place. -/
theorem not_atPlace_of_grown (h : Alike I.items I.behind.length true s v) (hu : Moves s u) :
    ¬ I.AtPlace u := by
  intro hs
  have hlength := hu.rest.length_le
  rw [hs, old, List.length_cons] at hlength
  cases h
  dsimp only at hlength
  omega

theorem endsWhen_bind {p : β → Prop} (hx : I.Follows S T x) (hf : ∀ a s, Moves s (f a S s).2)
    (hends : ∀ a, I.EndsWhen S T p (f a))
    (hplace : ∀ s t, I.Before s t → (x S s).2.faults = s.faults → I.AtPlace (x S s).2 →
      (f (x S s).1 S (x S s).2).2.faults = (x S s).2.faults →
      I.AtPlace (f (x S s).1 S (x S s).2).2 → p (f (x S s).1 S (x S s).2).1 →
      I.ReadsAlike S T s t x ∧ I.BlindAt S T (f (x S s).1)) :
    I.EndsWhen S T p (x >>= f) := by
  intro s t hst hc hs hp
  obtain ⟨hcx, hcf⟩ := (hx.repeats.moves s).clean (hf _ _) hc
  rcases hx.leads hst hcx with hat | hastray | ⟨ha, htwin⟩
  · obtain ⟨⟨hxt, hended⟩, hblind⟩ := hplace s t hst hcx hat hcf hs hp
    obtain ⟨hsame, hft⟩ := hblind _ hat hcf
    refine ⟨?_, ?_⟩
    · rw [bind_apply, bind_apply, hxt, hft, hsame]
    · rw [bind_apply, hsame]
      exact hended
  · exact absurd (hastray.moves (hf _ _)) hs.not_astray
  · cases htwin with
    | before hst' =>
      rw [ReadsAlike, bind_apply, bind_apply, ha]
      exact hends _ _ _ hst' hcf hs hp
    | grown hst' => exact absurd hs (not_atPlace_of_grown hst' (hf _ _))

theorem endsWhen_map {p : β → Prop} (h : I.EndsWhen S T (fun _ => True) x) (g : α → β) :
    I.EndsWhen S T p (x >>= fun a => pure (g a)) := by
  intro s t hst hc hs _
  obtain ⟨ht, hended⟩ := h s t hst hc hs trivial
  refine ⟨?_, hended⟩
  rw [bind_apply, bind_apply, ht]
  rfl

theorem endsWhen_group {body : Rule (Option NodeKind × α)} {p : α → Prop}
    (h : I.EndsWhen S T (fun v => p v.2) body) : I.EndsWhen S T p (group body) := by
  intro s t hst hc hs hp
  obtain ⟨hbody, o, older, ho, hended⟩ := h _ _ (hst.restart []) hc hs hp
  rw [ReadsAlike, group_apply, group_apply, hst.siblings, hbody]
  refine ⟨rfl, ?_⟩
  cases hkind : (body S { s with siblings := [] }).1.1 with
  | none => exact ⟨o, older ++ s.siblings, by simp [gathered, ho], hended⟩
  | some k =>
    refine ⟨_, s.siblings, rfl, ?_⟩
    rw [ho, List.reverse_cons]
    exact .node k older.reverse hended

/-! ## Tokens -/

theorem Before.behind_atPlace {k : TokenKind} (h : I.Before s t)
    (hk : startsWith k.parts (Grammar.ahead s.rest) = true) (hs : I.AtPlace (s.behind k)) :
    t.behind k = { s.behind k with rest := I.new } := by
  obtain @⟨front, siblings, faults, hfront⟩ := h
  have hn : k.parts.length ≤ front.length :=
    Nat.le_trans (length_le_of_startsWith (ahead_old (I := I) hfront ▸ hk))
      (ahead_isPrefix front).length_le
  simp only [AtPlace, State.behind, List.drop_append_of_le_length hn] at hs ⊢
  rw [List.append_left_eq_self.1 hs, List.nil_append]

theorem ended_behind (k : TokenKind) (s : State) : Ended (s.behind k) := by
  obtain ⟨l, ls, hparts, -⟩ := exists_parts k
  refine ⟨_, _, rfl, ?_⟩
  rw [hparts, List.length_cons]
  exact .leaf k ls.length

theorem readsAlike_behind {k : TokenKind} {a : α} {r : Rule α} (hst : I.Before s t)
    (hk : startsWith k.parts (ahead s.rest) = true) (hs : I.AtPlace (s.behind k))
    (hrs : r S s = (a, s.behind k)) (hrt : r T t = (a, t.behind k)) : I.ReadsAlike S T s t r := by
  rw [ReadsAlike, hrs, hrt, hst.behind_atPlace hk hs]
  exact ⟨rfl, ended_behind k s⟩

theorem endsWhen_take (k : TokenKind) : I.EndsWhen S T (fun _ => True) (take k) := by
  intro s t hst hc hs _
  rw [take_apply] at hc hs
  split at hc
  · rename_i hk
    rw [if_pos hk] at hs
    exact readsAlike_behind hst hk hs (by rw [take_apply, if_pos hk])
      (by rw [take_apply, hst.ahead, if_pos hk])
  · exact absurd hc (noting_ne (List.suffix_refl _))

theorem endsWhen_need (k : TokenKind) : I.EndsWhen S T (fun _ => True) (need k) := by
  intro s t hst hc hs _
  rw [need_apply] at hc hs
  split at hc
  · rename_i hk
    rw [if_pos hk] at hs
    exact readsAlike_behind hst hk hs (by rw [need_apply, if_pos hk])
      (by rw [need_apply, hst.ahead, if_pos hk])
  · exact absurd hc (noting_ne (List.suffix_refl _))

theorem endsWhen_eat (k : TokenKind) : I.EndsWhen S T (fun _ => True) (eat k) := by
  intro s t hst _ hs _
  rw [eat_apply] at hs
  split at hs
  · rename_i hk
    exact readsAlike_behind hst hk hs (by rw [eat_apply, if_pos hk])
      (by rw [eat_apply, hst.ahead, if_pos hk])
  · exact absurd hs hst.not_atPlace

/-! ## The place -/

/-- A token that is neither the brace nor starts the items. -/
@[reducible] def isOther (k : TokenKind) : Bool :=
  match k with
  | rCurly | pubKw => false
  | _ => true

theorem parts_eq_cons {k : TokenKind} (h : isOther k = true) :
    ∃ l ls, k.parts = l :: ls ∧ l ≠ rCurly ∧ l ≠ pubKw := by
  cases k <;> first | exact ⟨_, _, rfl, by decide, by decide⟩ | cases h

theorem ahead_new_eq_cons (I : Insertion) : ∃ ts, ahead I.new = I.first :: ts := by
  rw [new, List.cons_append, ahead.eq_def]
  exact ⟨_, rfl⟩

section

variable {k : TokenKind} [h : Holds (isOther k)]

theorem not_startsWith_old (hs : I.AtPlace s) : startsWith k.parts (ahead s.rest) = false := by
  obtain ⟨l, ls, hparts, hl, -⟩ := parts_eq_cons h.eq
  rw [ahead_atPlace hs, hparts, startsWith, I.closing_kind]
  simp [hl.symm]

theorem not_startsWith_new : startsWith k.parts (ahead I.new) = false := by
  obtain ⟨l, ls, hparts, -, hl⟩ := parts_eq_cons h.eq
  obtain ⟨ts, hnew⟩ := I.ahead_new_eq_cons
  rw [hnew, hparts, startsWith, I.first_kind]
  simp [hl.symm]

theorem sees_atPlace (hs : I.AtPlace s) : sees k S s = (false, s) := by
  rw [sees_apply, not_startsWith_old hs]

theorem eat_atPlace (hs : I.AtPlace s) : eat k S s = (false, s) := by
  rw [eat_apply, not_startsWith_old hs, if_neg Bool.false_ne_true]

theorem blindAt_sees : I.BlindAt S T (sees k) := by
  intro s hs _
  rw [sees_atPlace hs, sees_apply, not_startsWith_new]
  exact ⟨rfl, rfl⟩

theorem blindAt_eat : I.BlindAt S T (eat k) := by
  intro s hs _
  rw [eat_atPlace hs, eat_apply, not_startsWith_new, if_neg Bool.false_ne_true]
  exact ⟨rfl, rfl⟩

theorem readsOn_take : I.ReadsOn S (take k) := by
  intro s hs hc
  rw [take_apply, not_startsWith_old hs, if_neg Bool.false_ne_true] at hc
  exact absurd hc (noting_ne (List.suffix_refl _))

theorem readsOn_need : I.ReadsOn S (need k) := by
  intro s hs hc
  rw [need_apply, not_startsWith_old hs, if_neg Bool.false_ne_true] at hc
  exact absurd hc (noting_ne (List.suffix_refl _))

end

theorem readsOn_closing : I.ReadsOn S (need .rCurly) := by
  intro s hs _
  rw [need_atPlace hs, AtPlace, rest_behind_atPlace hs]
  exact fun h => List.cons_ne_self _ _ h.symm

end Insertion

end Docsmith.Source.Grammar
