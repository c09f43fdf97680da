import Docsmith.Proofs.Source.Grammar.Growth

/-!
# Items put in front of a brace

Items are put in front of the brace that closes a list of associated items. Up to there both inputs
are read alike, as rules do not look beyond the tokens they take far enough to see the difference.
What a rule does that stops right in front of the place depends on what follows; but no rule reads
past it without taking the brace, and if it is not the list that takes the brace, the brace stands
in another node for good.

* `Follows`: what a rule does with the two inputs;
* `Built.follows`: what is built from steps follows, if lists of associated items do.
-/

namespace Docsmith.Source.Grammar

open TokenKind Outline

/-- Items that are put in front of a closing brace, and what follows the brace. -/
structure Insertion where
  closing : Input
  /-- The brace behind the items. It may be glued to what stands in front or not. -/
  closing' : Input
  behind : List Input
  first : Input
  others : List Input
  /-- What the items are read as. -/
  items : List Outline
  closing_kind : closing.kind = .rCurly
  closing_kind' : closing'.kind = .rCurly
  first_kind : first.kind = .pubKw

namespace Insertion

variable {α β : Type} (I : Insertion) {S T : Goal → Step Outcome} {s t u v : State}

/-- The input from the place on, as it was. -/
def old : List Input := I.closing :: I.behind

/-- The input from the place on, with the items. -/
def new : List Input := I.first :: I.others ++ I.closing' :: I.behind

def AtPlace (s : State) : Prop := s.rest = I.old

/-- The brace has been taken by another node than a list of associated items. -/
def Astray (s : State) : Prop :=
  ∃ j kind, s.holders.reverse[j]? = some (some kind) ∧ kind ≠ .assocItemList ∧
    j + s.rest.length = I.behind.length

/-- Both inputs have been read up to one token in front of the place. -/
inductive Before : State → State → Prop
  | mk {front : List Input} (siblings : List Outline) (faults : List String) : front ≠ [] →
      Before ⟨front ++ I.old, siblings, faults⟩ ⟨front ++ I.new, siblings, faults⟩

/-- The same has been read of both inputs. -/
inductive Twin (s t : State) : Prop
  | before : I.Before s t → Twin s t
  | grown : Alike I.items I.behind.length true s t → Twin s t

/-- How far a rule comes that leaves no fault. -/
def Leads (p q : α × State) : Prop :=
  I.AtPlace p.2 ∨ I.Astray p.2 ∨ q.1 = p.1 ∧ I.Twin p.2 q.2

/-- What a rule does with the two inputs if it leaves no fault. -/
structure Follows (S T : Goal → Step Outcome) (r : Rule α) : Prop where
  repeats : Repeats I.items I.behind.length S T r
  stays {s : State} : I.AtPlace s → (r S s).2.faults = s.faults → I.AtPlace (r S s).2
  leads {s t : State} : I.Before s t → (r S s).2.faults = s.faults → I.Leads (r S s) (r T t)

variable {I}

/-! ## What rules see -/

theorem ahead_append {front : List Input} (h : front ≠ []) {u : Input} (hu : u.kind.hides = true)
    (rest : List Input) : ahead (front ++ u :: rest) = ahead front := by
  induction front with
  | nil => exact absurd rfl h
  | cons t front ih =>
    cases front with
    | nil => simp [ahead, hu]
    | cons w front =>
      have := ih (List.cons_ne_nil w front)
      simp only [List.cons_append] at this ⊢
      rw [ahead.eq_def, ahead.eq_def (t :: w :: front)]
      simp only [this]

theorem ahead_old {front : List Input} (h : front ≠ []) : ahead (front ++ I.old) = ahead front :=
  ahead_append h (by rw [I.closing_kind]; rfl) _

theorem ahead_new {front : List Input} (h : front ≠ []) : ahead (front ++ I.new) = ahead front :=
  ahead_append h (by rw [I.first_kind]; rfl) _

theorem ahead_of_seals {t : Input} (h : t.kind.seals = true) (ts : List Input) :
    ahead (t :: ts) = [t] := by
  cases ts with
  | nil => rfl
  | cons u ts =>
    rw [ahead.eq_def]
    simp [h]

theorem ahead_atPlace (h : I.AtPlace s) : ahead s.rest = [I.closing] := by
  rw [h, old, ahead_of_seals (by rw [I.closing_kind]; rfl)]

theorem need_atPlace (h : I.AtPlace s) : need .rCurly S s = ((), s.behind .rCurly) := by
  have hsees : startsWith rCurly.parts (ahead s.rest) = true := by
    rw [ahead_atPlace h]
    simp [parts, startsWith, continuesWith, I.closing_kind]
  rw [need_apply, if_pos hsees]

theorem rest_behind_atPlace (h : I.AtPlace s) : (s.behind .rCurly).rest = I.behind := by
  change s.rest.drop 1 = I.behind
  rw [h, old, List.drop_one, List.tail_cons]

/-! ## The brace astray -/

theorem getElem?_settles {as bs : List (Option NodeKind)} {j : Nat} {kind : NodeKind}
    (h : List.Forall₂ Settles as bs) (ha : as[j]? = some (some kind)) :
    bs[j]? = some (some kind) := by
  induction h generalizing j with
  | nil => exact ha
  | cons hab _ ih =>
    cases j with
    | zero =>
      rw [List.getElem?_cons_zero, Option.some_inj] at ha ⊢
      subst ha
      exact (hab.resolve_left (Option.some_ne_none _)).symm
    | succ j => exact ih ha

theorem Astray.moves (h : I.Astray s) (hst : Moves s t) : I.Astray t := by
  obtain ⟨j, kind, hj, hkind, hlength⟩ := h
  obtain ⟨old, new, ht, hold, hnew⟩ := hst.holders
  refine ⟨new.length + j, kind, ?_, hkind, by omega⟩
  rw [ht, List.reverse_append, List.getElem?_append_right (by simp), List.length_reverse,
    Nat.add_sub_cancel_left]
  exact getElem?_settles (List.rel_reverse hold) hj

theorem Astray.gather (h : I.Astray s) (outer : List Outline) (kind : Option NodeKind) :
    I.Astray { s with siblings := gathered outer kind s.siblings } := by
  obtain ⟨j, k, hj, hk, hlength⟩ := h
  obtain ⟨settled, hsettled, hall⟩ := holders_gathered outer kind s.siblings
  have hj' := getElem?_settles (List.rel_reverse hsettled) hj
  refine ⟨j, k, ?_, hk, hlength⟩
  rw [State.holders, hall, List.reverse_append, List.getElem?_append_left, hj']
  exact (List.getElem?_eq_some_iff.1 hj').1

/-- A list in braces other than one of associated items takes the brace. -/
theorem astray_braced {kind : NodeKind} (hkind : kind ≠ .assocItemList) (h : I.AtPlace s)
    (outer : List Outline) :
    I.Astray { s.behind .rCurly with
      siblings := .node kind (s.behind .rCurly).siblings.reverse :: outer } := by
  refine ⟨0, kind, ?_, hkind, ?_⟩
  · simp [State.holders, State.behind, holdersAll_append, holdersAll, Outline.holders, parts]
  · change 0 + (s.behind .rCurly).rest.length = _
    rw [rest_behind_atPlace h, Nat.zero_add]

/-! ## Twins -/

namespace Before

variable (h : I.Before s t)
include h

theorem ahead : ahead t.rest = ahead s.rest := by
  obtain ⟨siblings, faults, hfront⟩ := h
  exact (ahead_new hfront).trans (ahead_old hfront).symm

theorem siblings : t.siblings = s.siblings := by
  obtain ⟨siblings, faults, hfront⟩ := h
  rfl

theorem restart (outlines : List Outline) :
    I.Before { s with siblings := outlines } { t with siblings := outlines } := by
  obtain ⟨siblings, faults, hfront⟩ := h
  exact .mk outlines faults hfront

theorem length_eq : t.rest.length = s.rest.length + I.others.length + 1 := by
  obtain ⟨siblings, faults, hfront⟩ := h
  simp only [old, new, List.length_append, List.length_cons]
  omega

/-- Tokens that rules see may be taken. -/
theorem drop {n : Nat} (hn : n ≤ (Grammar.ahead s.rest).length) (siblings : List Outline) :
    I.AtPlace ⟨s.rest.drop n, siblings, s.faults⟩ ∨
      I.Before ⟨s.rest.drop n, siblings, s.faults⟩ ⟨t.rest.drop n, siblings, t.faults⟩ := by
  obtain @⟨front, _, faults, hfront⟩ := h
  have hn : n ≤ front.length :=
    Nat.le_trans (ahead_old (I := I) hfront ▸ hn) (ahead_isPrefix front).length_le
  simp only [List.drop_append_of_le_length hn]
  by_cases hrest : front.drop n = []
  · exact .inl (by rw [hrest, List.nil_append, AtPlace])
  · exact .inr (.mk siblings faults hrest)

end Before

theorem Twin.gather (h : I.Twin u v) (outer : List Outline) (kind : Option NodeKind) :
    I.Twin { u with siblings := gathered outer kind u.siblings }
      { v with siblings := gathered outer kind v.siblings } := by
  cases h with
  | before h =>
    rw [h.siblings]
    exact .before (h.restart _)
  | grown h =>
    cases kind with
    | none => exact .grown (h.beside outer)
    | some k => exact .grown ((h.enclose k).beside outer)

theorem Leads.map {p q : α × State} (h : I.Leads p q) (g : α → β) :
    I.Leads (g p.1, p.2) (g q.1, q.2) :=
  h.imp id (Or.imp id (And.imp (congrArg g) id))

theorem Leads.gather {p q : (Option NodeKind × α) × State} (h : I.Leads p q)
    (outer : List Outline) :
    I.Leads (p.1.2, { p.2 with siblings := gathered outer p.1.1 p.2.siblings })
      (q.1.2, { q.2 with siblings := gathered outer q.1.1 q.2.siblings }) := by
  rcases h with h | h | ⟨ha, h⟩
  · exact .inl h
  · exact .inr (.inl (h.gather outer p.1.1))
  · rw [ha]
    exact .inr (.inr ⟨rfl, h.gather outer p.1.1⟩)

/-! ## Rules that follow -/

theorem startsWith_atPlace {k : TokenKind} (hk : rCurly ∉ k.parts) (h : I.AtPlace s)
    (hsees : startsWith k.parts (ahead s.rest) = true) : k.parts = [] := by
  rw [ahead_atPlace h] at hsees
  cases hparts : k.parts with
  | nil => rfl
  | cons l ls =>
    rw [hparts, startsWith, Bool.and_eq_true, decide_eq_true_eq, I.closing_kind] at hsees
    exact absurd (by simp [hparts, hsees.1]) hk

theorem leads_behind (k : TokenKind) (h : I.Before s t)
    (hk : startsWith k.parts (ahead s.rest) = true) :
    I.Leads ((), s.behind k) ((), t.behind k) := by
  rcases h.drop (length_le_of_startsWith hk) (.leaf k k.parts.length :: s.siblings) with hs | hs
  · exact .inl hs
  · refine .inr (.inr ⟨rfl, .before ?_⟩)
    rwa [State.behind, State.behind, h.siblings]

theorem leads_take (k : TokenKind) (h : I.Before s t) (hc : (take k S s).2.faults = s.faults) :
    I.Leads (take k S s) (take k T t) := by
  rw [take_apply] at hc
  rw [take_apply, take_apply, h.ahead]
  split at hc
  · rename_i hk
    rw [if_pos hk, if_pos hk]
    exact leads_behind k h hk
  · exact absurd hc (noting_ne (List.suffix_refl _))

theorem leads_need (k : TokenKind) (h : I.Before s t) (hc : (need k S s).2.faults = s.faults) :
    I.Leads (need k S s) (need k T t) := by
  rw [need_apply] at hc
  rw [need_apply, need_apply, h.ahead]
  split at hc
  · rename_i hk
    rw [if_pos hk, if_pos hk]
    exact leads_behind k h hk
  · exact absurd hc (noting_ne (List.suffix_refl _))

theorem leads_takeAny (h : I.Before s t) : I.Leads (takeAny S s) (takeAny T t) := by
  obtain @⟨front, siblings, faults, hfront⟩ := h
  obtain ⟨u, front, rfl⟩ := List.exists_cons_of_ne_nil hfront
  by_cases hrest : front = []
  · subst hrest
    exact .inl rfl
  · exact .inr (.inr ⟨rfl, .before (.mk _ faults hrest)⟩)

theorem faults_wrapNext (message : String) (s : State) :
    (wrapNext message S s).2.faults ≠ s.faults := by
  intro hc
  have hmoves := moves_takeAny (S := S) ({ s with siblings := [] }.noting message)
  exact noting_ne (List.suffix_refl _) ((Moves.noting message { s with siblings := [] }).clean hmoves hc).1

namespace Follows

variable {x : Rule α} {f : α → Rule β}

/-- What follows on how far a rule has come. -/
theorem leads_of {p q : α × State} (hf : ∀ a, I.Follows S T (f a)) (h : I.Leads p q)
    (hc : (f p.1 S p.2).2.faults = p.2.faults) : I.Leads (f p.1 S p.2) (f q.1 T q.2) := by
  rcases h with h | h | ⟨ha, h⟩
  · exact .inl ((hf _).stays h hc)
  · exact .inr (.inl (h.moves ((hf _).repeats.moves _)))
  · rw [ha]
    cases h with
    | before h => exact (hf _).leads h hc
    | grown h =>
      obtain ⟨hb, ht⟩ := (hf _).repeats.again h hc
      exact .inr (.inr ⟨hb, .grown ht⟩)

theorem pure (a : α) : I.Follows S T (pure a) where
  repeats := .pure a
  stays h _ := h
  leads h _ := .inr (.inr ⟨rfl, .before h⟩)

theorem bind (hx : I.Follows S T x) (hf : ∀ a, I.Follows S T (f a)) : I.Follows S T (x >>= f) where
  repeats := .bind hx.repeats fun a => (hf a).repeats
  stays {s} h hc := by
    obtain ⟨hx', hf'⟩ := (hx.repeats.moves s).clean ((hf _).repeats.moves _) hc
    exact (hf _).stays (hx.stays h hx') hf'
  leads {s t} h hc := by
    obtain ⟨hx', hf'⟩ := (hx.repeats.moves s).clean ((hf _).repeats.moves _) hc
    exact leads_of hf (hx.leads h hx') hf'

theorem look (d : List Input → β) : I.Follows S T (look d) where
  repeats := .look d
  stays h _ := h
  leads h _ := by
    rw [look_apply, look_apply, h.ahead]
    exact .inr (.inr ⟨rfl, .before h⟩)

theorem fault (message : String) : I.Follows S T (fault message) where
  repeats := .fault message
  stays _ hc := absurd hc (noting_ne (List.suffix_refl _))
  leads _ hc := absurd hc (noting_ne (List.suffix_refl _))

theorem take {k : TokenKind} (hk : rCurly ∉ k.parts) : I.Follows S T (take k) where
  repeats := .take k
  stays {s} h hc := by
    rw [take_apply] at hc ⊢
    split at hc
    · rename_i hsees
      rw [if_pos hsees]
      change s.rest.drop k.parts.length = _
      rw [startsWith_atPlace hk h hsees]
      exact h
    · exact absurd hc (noting_ne (List.suffix_refl _))
  leads h hc := leads_take k h hc

theorem takeOne {wanted : TokenKind → Bool} (hw : wanted rCurly = false) :
    I.Follows S T (takeOne wanted) where
  repeats := .takeOne wanted
  stays {s} h hc := by
    have hs : wanted (((ahead s.rest)[0]?.map (·.kind)).getD .eof) = false := by
      rw [ahead_atPlace h]
      simpa [I.closing_kind] using hw
    rw [takeOne_apply, hs, if_neg Bool.false_ne_true] at hc
    exact absurd hc (noting_ne (List.suffix_refl _))
  leads {s t} h hc := by
    rw [takeOne_apply] at hc
    rw [takeOne_apply, takeOne_apply, h.ahead]
    split at hc
    · rename_i hw
      rw [if_pos hw, if_pos hw]
      exact leads_takeAny h
    · exact absurd hc (noting_ne (List.suffix_refl _))

theorem group {body : Rule (Option NodeKind × α)} (h : I.Follows S T body) :
    I.Follows S T (group body) where
  repeats := .group h.repeats
  stays {s} hs hc := h.stays (s := { s with siblings := [] }) hs hc
  leads {s t} hst hc := by
    rw [group_apply, group_apply, hst.siblings]
    exact (h.leads (hst.restart []) hc).gather s.siblings

theorem node (kind : NodeKind) (h : I.Follows S T x) : I.Follows S T (node kind x) :=
  group (bind h fun _ => pure _)

theorem around (kind : NodeKind) (h : I.Follows S T x) : I.Follows S T (around kind x) where
  repeats := .around kind h.repeats
  stays {s} hs hc := h.stays (s := { s with siblings := s.siblings.take 1 }) hs hc
  leads {s t} hst hc := by
    have hx := h.leads (hst.restart (s.siblings.take 1)) hc
    rw [around_apply, around_apply, hst.siblings]
    exact (hx.map (some kind, ·)).gather (s.siblings.drop 1)

theorem enclose (kind : NodeKind) : I.Follows S T (enclose kind) where
  repeats := .enclose kind
  stays h _ := h
  leads h _ := by
    rw [enclose_apply, enclose_apply, h.siblings]
    exact .inr (.inr ⟨rfl, .before (h.restart _)⟩)

theorem absorb : I.Follows S T absorb where
  repeats := .absorb
  stays h _ := by
    rw [absorb_apply]
    exact h
  leads h _ := by
    rw [absorb_apply, absorb_apply, h.siblings]
    exact .inr (.inr ⟨rfl, .before (h.restart _)⟩)

theorem newest : I.Follows S T newest where
  repeats := .newest
  stays h _ := by
    rw [newest_apply]
    exact h
  leads h _ := by
    rw [newest_apply, newest_apply, h.siblings]
    exact .inr (.inr ⟨rfl, .before h⟩)

theorem wrapNext (message : String) : I.Follows S T (wrapNext message) where
  repeats := .wrapNext message
  stays _ hc := absurd hc (faults_wrapNext message _)
  leads _ hc := absurd hc (faults_wrapNext message _)

theorem stays_iterateUpTo {body : α → Rule (Bool × α)} (h : ∀ a, I.Follows S T (body a)) (n : Nat)
    (a : α) (hs : I.AtPlace s) (hc : (iterateUpTo n a body S s).2.faults = s.faults) :
    I.AtPlace (iterateUpTo n a body S s).2 := by
  induction n generalizing a s with
  | zero => exact absurd hc (noting_ne (List.suffix_refl _))
  | succ n ih =>
    have hmoves := (h a).repeats.moves s
    rw [iterateUpTo_succ] at hc ⊢
    split at hc
    · rename_i hmore
      obtain ⟨hround, hrest⟩ :=
        hmoves.clean (moves_iterateUpTo (fun a => (h a).repeats.moves) n _ _) hc
      rw [if_pos hmore]
      exact ih _ ((h a).stays hs hround) hrest
    · rename_i hmore
      rw [if_neg hmore]
      exact (h a).stays hs hc

/-- A loop may run more rounds in the second input. -/
theorem leads_iterateUpTo {body : α → Rule (Bool × α)} (h : ∀ a, I.Follows S T (body a))
    {n m : Nat} (hnm : n ≤ m) (a : α) (hst : I.Before s t)
    (hc : (iterateUpTo n a body S s).2.faults = s.faults) :
    I.Leads (iterateUpTo n a body S s) (iterateUpTo m a body T t) := by
  induction n generalizing m a s t with
  | zero => exact absurd hc (noting_ne (List.suffix_refl _))
  | succ n ih =>
    obtain ⟨m, rfl⟩ := Nat.exists_eq_add_one_of_ne_zero (Nat.ne_zero_of_lt hnm)
    have hmoves := (h a).repeats.moves s
    have hloop := moves_iterateUpTo (S := S) fun a => (h a).repeats.moves
    rw [iterateUpTo_succ] at hc
    rw [iterateUpTo_succ, iterateUpTo_succ]
    split at hc
    · rename_i hmore
      obtain ⟨hround, hrest⟩ := hmoves.clean (hloop n _ _) hc
      rw [if_pos hmore]
      rcases (h a).leads hst hround with hs | hs | ⟨ha, hs⟩
      · exact .inl (stays_iterateUpTo h n _ hs hrest)
      · exact .inr (.inl (hs.moves (hloop n _ _)))
      · rw [ha, if_pos hmore]
        cases hs with
        | before hst => exact ih (Nat.le_of_succ_le_succ hnm) _ hst hrest
        | grown hst =>
          obtain ⟨hb, ht⟩ := Repeats.iterateUpTo (fun a => (h a).repeats)
            (Nat.le_of_succ_le_succ hnm) _ hst hrest
          exact .inr (.inr ⟨hb, .grown ht⟩)
    · rename_i hmore
      rw [if_neg hmore]
      rcases (h a).leads hst hc with hs | hs | ⟨ha, hs⟩
      · exact .inl hs
      · exact .inr (.inl hs)
      · rw [ha, if_neg hmore]
        exact .inr (.inr ⟨rfl, hs⟩)

theorem iterate (a : α) {body : α → Rule (Bool × α)} (h : ∀ a, I.Follows S T (body a)) :
    I.Follows S T (iterate a body) where
  repeats := .iterate a fun a => (h a).repeats
  stays {s} hs hc := stays_iterateUpTo h _ a hs hc
  leads {s t} hst hc := by
    rw [iterate_apply, iterate_apply]
    refine leads_iterateUpTo h ?_ a hst hc
    have := hst.length_eq
    omega

end Follows

/-! ## Lists in braces -/

/-- A list in braces, without the node around it. -/
def inBraces (body : Rule Unit) : Rule Unit := do
  take .lCurly
  body
  need .rCurly

section

variable {kind : NodeKind} {body : Rule Unit} (h : I.Follows S T body)
include h

theorem stays_inBraces (hs : I.AtPlace s) : (inBraces body S s).2.faults ≠ s.faults := by
  intro hc
  have hmoves := (h.repeats.moves (take .lCurly S s).2).trans (moves_need (S := S) .rCurly _)
  have htake := ((moves_take .lCurly s).clean hmoves hc).1
  have hsees : ¬ startsWith lCurly.parts (ahead s.rest) = true := by
    rw [ahead_atPlace hs]
    simp [parts, startsWith, I.closing_kind]
  rw [take_apply, if_neg hsees] at htake
  exact noting_ne (List.suffix_refl _) htake

/-- A list in braces takes the brace if its body comes to the place. -/
theorem leads_inBraces (hst : I.Before s t) (hc : (inBraces body S s).2.faults = s.faults) :
    (I.AtPlace (body S (take .lCurly S s).2).2 ∧
        inBraces body S s = ((), (body S (take .lCurly S s).2).2.behind .rCurly)) ∨
      I.Leads (inBraces body S s) (inBraces body T t) := by
  obtain ⟨htake, hrest⟩ := (moves_take .lCurly s).clean
    ((h.repeats.moves _).trans (moves_need (S := S) .rCurly _)) hc
  obtain ⟨hbody, hneed⟩ := (h.repeats.moves (take .lCurly S s).2).clean
    (moves_need (S := S) .rCurly _) hrest
  have hopen := leads_take (T := T) .lCurly hst htake
  rcases Follows.leads_of (fun _ => h) hopen hbody with hs | hs | ⟨-, hs⟩
  · refine .inl ⟨hs, ?_⟩
    rw [inBraces, bind_apply, bind_apply, need_atPlace hs]
  · exact .inr (.inr (.inl (hs.moves (moves_need .rCurly _))))
  · refine .inr ?_
    cases hs with
    | before hs => exact leads_need .rCurly hs hneed
    | grown hs => 
      obtain ⟨hb, ht⟩ := (Repeats.need .rCurly).again hs hneed
      exact .inr (.inr ⟨hb, .grown ht⟩)

theorem follows_braced (hkind : kind ≠ .assocItemList) : I.Follows S T (braced kind body) where
  repeats := .braced kind h.repeats
  stays {s} hs hc := absurd hc (stays_inBraces h (s := { s with siblings := [] }) hs)
  leads {s t} hst hc := by
    change (inBraces body S { s with siblings := [] }).2.faults = s.faults at hc
    change I.Leads (node kind (inBraces body) S s) (node kind (inBraces body) T t)
    rw [node_apply, node_apply, hst.siblings]
    rcases leads_inBraces h (hst.restart []) hc with ⟨hs, hclosed⟩ | hs
    · rw [hclosed]
      exact .inr (.inl (astray_braced hkind hs s.siblings))
    · exact (hs.map (some kind, ·)).gather s.siblings

end

/-- What is built from steps follows, if lists of associated items do. -/
theorem follows_of_built {r : Rule α} (h : Built r) (hcall : ∀ g, I.Follows S T (call g))
    (hmembers : I.Follows S T (members true false) →
      I.Follows S T (memberList .assocItemList true false)) : I.Follows S T r := by
  induction h with
  | pure a => exact .pure a
  | bind _ _ hx hf => exact .bind hx hf
  | look d => exact .look d
  | fault message => exact .fault message
  | take hk => exact .take hk
  | takeOne hw => exact .takeOne hw
  | call g => exact hcall g
  | nameOf => exact .node .name (.take (by decide))
  | group _ _ hbody => exact .group hbody
  | around _ _ hbody => exact .around _ hbody
  | enclose _ => exact .enclose _
  | absorb => exact .absorb
  | newest => exact .newest
  | iterate a _ hbody => exact .iterate a hbody
  | braced hkind _ _ hbody => exact follows_braced hbody hkind
  | members _ hbody => exact hmembers hbody
  | wrapNext message => exact .wrapNext message

end Insertion

end Docsmith.Source.Grammar
