import Docsmith.Proofs.Source.Grammar.Sealed

/-!
# Items

An item that is read without a fault is collected in one node, and so is a macro call. A use ends
with its semicolon, which no rule looks past, so it is the same item whatever follows.

* `item_clean`: what the rule for items finds if it leaves no fault;
* `ReadsItem`: an item at the front of the input;
* `ReadsItem.cut`: an item in front of a sealed token;
* `ReadsItem.use`: a use.
-/

namespace Docsmith.Source

/-- The kind of an outline that is a node. -/
def Outline.kind? : Outline → Option NodeKind
  | .leaf _ _ => none
  | .node kind _ => some kind

namespace Grammar

open TokenKind Outline Insertion

variable {S : Goal → Step Outcome} {s : State} {input rest x y : List Input}

/-- An item or a macro call is collected in a node. -/
@[reducible] def collects (answer : Option NodeKind × Found) : Bool :=
  match answer with
  | (none, .item) | (none, .macroCall) => false
  | _ => true

/-- Every kind of node but that of a use. -/
@[reducible] def isNoUse (kind : Option NodeKind) : Bool :=
  match kind with
  | some .useItem => false
  | _ => true

instance (inExtern : Bool) : Answers collects (itemOrMacro inExtern) := by
  have : Answers collects macroOrPath := by
    unfold macroOrPath
    infer_instance
  unfold itemOrMacro
  refine .bind fun kind => ?_
  split
  · exact .pure rfl
  · infer_instance

instance : Answers isNoUse (traitBody >>= fun kind => pure (some kind)) := by
  have : Answers (fun kind => isNoUse (some kind)) traitBody := by
    unfold traitBody
    repeat' first | infer_instance | with_reducible constructor | intro _ | split
  exact .pass this fun _ hk => .pure hk

instance (marked external : Bool) : Answers isNoUse (itemBehind marked external) := by
  unfold itemBehind
  repeat' first | infer_instance | with_reducible constructor | intro _ | split

instance (visible inExtern : Bool) : Answers isNoUse (modifiedItem visible inExtern) := by
  unfold modifiedItem
  infer_instance

theorem not_use {r : Rule (Option NodeKind)} (hr : Answers isNoUse r)
    (h : (r S s).1 = some .useItem) : False := by
  have hno := hr.holds S s
  rw [h] at hno
  cases hno

theorem nth_apply (n : Nat) (S : Goal → Step Outcome) (s : State) :
    nth n S s = (((ahead s.rest)[n]?.map (·.kind)).getD .eof, s) := rfl

theorem current_apply (S : Goal → Step Outcome) (s : State) :
    current S s = (((ahead s.rest)[0]?.map (·.kind)).getD .eof, s) := rfl

/-- Only a keyword starts a use. -/
theorem plainItem_eq_use (h : (plainItem S s).1 = some .useItem) :
    ((ahead s.rest)[0]?.map (·.kind)).getD .eof = .useKw := by
  by_contra hk
  rw [plainItem, bind_apply, nth_apply, bind_apply, current_apply] at h
  dsimp only at h
  generalize ((ahead s.rest)[0]?.map (·.kind)).getD .eof = k at hk h
  generalize ((ahead s.rest)[1]?.map (·.kind)).getD .eof = second at h
  refine not_use ?_ h
  split
  case h_2 => exact absurd rfl hk
  all_goals repeat' first | infer_instance | with_reducible constructor | intro _ | split

theorem plainItem_use (h : ((ahead s.rest)[0]?.map (·.kind)).getD .eof = .useKw) :
    plainItem S s =
      (some .useItem, (need .semi S (run (.useTree true) S (take .useKw S s).2).2).2) := by
  rw [plainItem, bind_apply, nth_apply, bind_apply, current_apply, h]
  rfl

/-! ## One item -/

/-- The body of an item's node. -/
def itemBody (inExtern : Bool) : Rule (Option NodeKind × Found) := do
  outerAttrs
  itemOrMacro inExtern

instance (inExtern : Bool) : Built (itemBody inExtern) := by
  unfold itemBody
  infer_instance

instance (inExtern : Bool) : Answers collects (itemBody inExtern) := by
  unfold itemBody
  infer_instance

theorem item_apply (inBraces inExtern : Bool) : item inBraces inExtern S s =
    afterItem inBraces (group (itemBody inExtern) S s).1 S (group (itemBody inExtern) S s).2 := rfl

theorem afterItem_item (inBraces : Bool) : afterItem inBraces .item S s =
    if startsWith semi.parts (ahead s.rest) then
      wrapNext "expected item, found semicolon" S s
    else ((), s) := by
  rw [afterItem, bind_apply, sees_apply]
  dsimp only
  split <;> rfl

/-- An item has been found that no semicolon follows, or a macro call. -/
def Ends (found : Found) (rest : List Input) : Prop :=
  found = .macroCall ∨ found = .item ∧ startsWith semi.parts (ahead rest) = false

theorem item_of_body {inBraces inExtern : Bool} {kind : NodeKind} {found : Found}
    {inside : List Outline} {faults : List String}
    (h : itemBody inExtern S ⟨input, [], faults⟩ = ((some kind, found), ⟨rest, inside, faults⟩))
    (hends : Ends found rest) (siblings : List Outline) :
    item inBraces inExtern S ⟨input, siblings, faults⟩ =
      ((), ⟨rest, .node kind inside.reverse :: siblings, faults⟩) := by
  rw [item_apply, group_apply, h]
  rcases hends with rfl | ⟨rfl, hsemi⟩
  · rfl
  · rw [afterItem_item, if_neg (by simp [hsemi])]
    rfl

section

variable (hS : ∀ g s, Moves s (S g s).2)
include hS

/-- What stands in the place of an item is a fault. -/
theorem faults_afterItem (inBraces : Bool) {found : Found} (h : found = .path ∨ found = .other)
    (s : State) : (afterItem inBraces found S s).2.faults ≠ s.faults := by
  have hfault (message : String) (s : State) : (fault message S s).2.faults ≠ s.faults :=
    noting_ne (List.suffix_refl _)
  rcases h with rfl | rfl
  · exact hfault _ s
  · have hblock : (errorBlock S s).2.faults ≠ s.faults :=
      faults_bind (fun s => (inferInstance : Built (braced .error (run .statements))).moves hS s) s
    have hlet : (node .error (fault "expected an item" >>= fun _ => letBody false) S s).2.faults ≠
        s.faults := by
      rw [node_apply]
      exact faults_bind (fun s => (inferInstance : Built (letBody false)).moves hS s)
        { s with siblings := [] }
    rw [afterItem, bind_apply]
    rw [current_apply]
    dsimp only
    generalize ((ahead s.rest)[0]?.map (·.kind)).getD .eof = k
    split
    · exact hblock
    · split
      · exact hfault _ s
      · exact faults_wrapNext _ s
    · exact hfault _ s
    · exact hlet
    · exact faults_wrapNext _ s

/-- What is found without a fault is an item that no semicolon follows, or a macro call. -/
theorem item_clean {inBraces inExtern : Bool} {siblings : List Outline} {faults : List String}
    (hc : (item inBraces inExtern S ⟨input, siblings, faults⟩).2.faults = faults) :
    ∃ kind found rest inside,
      itemBody inExtern S ⟨input, [], faults⟩ = ((some kind, found), ⟨rest, inside, faults⟩) ∧
        Ends found rest := by
  have hbody := (inferInstance : Built (itemBody inExtern)).moves hS ⟨input, [], faults⟩
  have hcollects := (inferInstance : Answers collects (itemBody inExtern)).holds S
    ⟨input, [], faults⟩
  rw [item_apply, group_apply] at hc
  generalize itemBody inExtern S ⟨input, [], faults⟩ = r at hbody hcollects hc ⊢
  obtain ⟨⟨kind, found⟩, ⟨rest, inside, faults'⟩⟩ := r
  have hafter := (inferInstance : Built (afterItem inBraces found)).moves hS
  obtain ⟨hin, hout⟩ :=
    (Moves.gather (s := ⟨input, siblings, faults⟩) kind rfl hbody).clean (hafter _) hc
  obtain rfl : faults' = faults := hin
  have hno (h : found = .path ∨ found = .other) : False :=
    faults_afterItem hS inBraces h _ hout
  cases found with
  | path => exact (hno (.inl rfl)).elim
  | other => exact (hno (.inr rfl)).elim
  | macroCall =>
    cases kind with
    | none => cases hcollects
    | some kind => exact ⟨kind, _, rest, inside, rfl, .inl rfl⟩
  | item =>
    cases kind with
    | none => cases hcollects
    | some kind =>
      refine ⟨kind, _, rest, inside, rfl, .inr ⟨rfl, ?_⟩⟩
      rw [afterItem_item] at hout
      split at hout
      · exact absurd hout (faults_wrapNext _ _)
      · rename_i hsemi
        simpa using hsemi

end

/-! ## Uses -/

theorem Cut.exists_front {t : State} (h : Cut x y s t) :
    ∃ front, Sealed front ∧ s.rest = front ++ x ∧ t = { s with rest := front ++ y } := by
  obtain ⟨siblings, faults, hfront⟩ := h
  exact ⟨_, hfront, rfl, rfl⟩

/-- What may stand in front of the keyword of a use. -/
def beforeUse : Rule Unit := do
  outerAttrs
  discard (optVisibility false)

/-- A use up to its semicolon. Answers what stands in the place of its keyword. -/
def upToSemicolon : Rule TokenKind := do
  beforeUse
  let keyword ← current
  take .useKw
  run (.useTree true)
  return keyword

instance : Built beforeUse := by
  unfold beforeUse
  infer_instance

instance : Built upToSemicolon := by
  unfold upToSemicolon
  infer_instance

/-- A keyword starts a use behind its attributes and its visibility. -/
def StartsUse (S : Goal → Step Outcome) (s : State) : Prop := (upToSemicolon S s).1 = .useKw

theorem startsUse_iff : StartsUse S s ↔
    ((ahead (beforeUse S s).2.rest)[0]?.map (·.kind)).getD .eof = .useKw := Iff.rfl

theorem itemBody_use (inExtern : Bool) (h : StartsUse S s) : itemBody inExtern S s =
    ((some .useItem, .item), (need .semi S (upToSemicolon S s).2).2) := by
  have hplain : plainItem S (optVisibility false S (outerAttrs S s).2).2 =
    (some .useItem, (need .semi S (upToSemicolon S s).2).2) := plainItem_use h
  rw [itemBody, bind_apply, itemOrMacro, bind_apply, optItem, bind_apply, plainOrModifiedItem,
    bind_apply, hplain]
  rfl

theorem optItem_eq_use {inExtern : Bool} (h : (optItem inExtern S s).1 = some .useItem) :
    ((ahead (optVisibility false S s).2.rest)[0]?.map (·.kind)).getD .eof = .useKw := by
  refine plainItem_eq_use (S := S) ?_
  rw [optItem, bind_apply, plainOrModifiedItem, bind_apply] at h
  cases hkind : (plainItem S (optVisibility false S s).2).1 with
  | some kind =>
    rw [hkind] at h
    exact h
  | none =>
    rw [hkind] at h
    exact (not_use inferInstance h).elim

theorem startsUse_of_itemBody {inExtern : Bool}
    (h : (itemBody inExtern S s).1.1 = some .useItem) : StartsUse S s := by
  rw [itemBody, bind_apply, itemOrMacro, bind_apply] at h
  generalize hs : (outerAttrs S s).2 = s' at h
  have hstarts (h : (optItem inExtern S s').1 = some .useItem) : StartsUse S s := by
    have := optItem_eq_use h
    rwa [← hs] at this
  cases hkind : (optItem inExtern S s').1 with
  | some kind =>
    rw [hkind] at h
    exact hstarts (hkind.trans h)
  | none =>
    rw [hkind] at h
    have hno : Answers (fun answer : Option NodeKind × Found => isNoUse answer.1)
        (do if ← seesUsePath then macroOrPath else return (none, .other)) := by
      have : Answers (fun answer : Option NodeKind × Found => isNoUse answer.1) macroOrPath := by
        unfold macroOrPath
        infer_instance
      infer_instance
    have hanswer := hno.holds S (optItem inExtern S s').2
    dsimp only at h hanswer
    rw [h] at hanswer
    cases hanswer

/-! ## Items one behind the other -/

/-- The input starts with an item that is read as `o`, and `rest` is what follows it. -/
structure ReadsItem (S : Goal → Step Outcome) (input : List Input) (o : Outline)
    (rest : List Input) : Prop where
  ne_nil : input ≠ []
  isNode : o.kind?.isSome
  reads (siblings : List Outline) :
    run (.item false true) S ⟨input, siblings, []⟩ = ((), ⟨rest, o :: siblings, []⟩)

variable {o : Outline} {siblings : List Outline} {depth depth' : Nat}

theorem run_item (inBraces inExtern : Bool) (depth : Nat) (s : State) :
    run (.item inBraces inExtern) (solve (depth + 1)) s = item inBraces inExtern (solve depth) s :=
  rfl

namespace ReadsItem

theorem moves (h : ReadsItem (solve depth) input o rest) (siblings : List Outline) :
    Moves ⟨input, siblings, []⟩ ⟨rest, o :: siblings, []⟩ := by
  have := (inferInstance : Built (run (.item false true))).moves (moves_solve depth)
    ⟨input, siblings, []⟩
  rwa [h.reads] at this

/-- What is read without a fault is read as an item. -/
theorem of_clean (hne : input ≠ [])
    (hc : (run (.item false true) (solve depth) ⟨input, siblings, []⟩).2.faults = []) :
    ∃ o rest, ReadsItem (solve depth) input o rest ∧
      run (.item false true) (solve depth) ⟨input, siblings, []⟩ = ((), ⟨rest, o :: siblings, []⟩) := by
  cases depth with
  | zero => cases hc
  | succ depth =>
    obtain ⟨kind, found, rest, inside, hbody, hends⟩ := item_clean (moves_solve depth) hc
    exact ⟨.node kind inside.reverse, rest, ⟨hne, rfl, item_of_body hbody hends⟩,
      item_of_body hbody hends siblings⟩

/-- Deeper rules read the same items. -/
theorem deeper (h : ReadsItem (solve depth) input o rest) (hd : depth ≤ depth') :
    ReadsItem (solve depth') input o rest where
  ne_nil := h.ne_nil
  isNode := h.isNode
  reads siblings := by
    have hrun := h.reads siblings
    have hsolve : SolveAlike [] 0 (solve depth) (solve depth') := alike_solve hd
    have hrepeats :=
      (inferInstance : Built (run (.item false true))).repeats (moves_solve depth) hsolve
    obtain ⟨ha, hst⟩ := hrepeats.again (.same ⟨input, siblings, []⟩) (by rw [hrun])
    rw [hrun] at ha hst
    exact Prod.ext ha hst.eq

/-- What an item reads up to a sealed token does not depend on what follows that. -/
theorem cut {front : List Input} (h : ReadsItem (solve depth) (front ++ x) o rest)
    (hfront : Sealed front) (hn : x.length < rest.length) (hxy : x.length ≤ y.length)
    (hd : depth ≤ depth') : ∃ front', Sealed front' ∧ rest = front' ++ x ∧
      ReadsItem (solve depth') (front ++ y) o (front' ++ y) := by
  have hreads (siblings : List Outline) :
      Cut x y ⟨rest, o :: siblings, []⟩
        (run (.item false true) (solve depth') ⟨front ++ y, siblings, []⟩).2 := by
    have hrun := h.reads siblings
    have hagain := ((inferInstance : Built (run (.item false true))).reads hxy
      (readsCalls_solve hxy hd)).again (.mk siblings [] hfront)
    rw [hrun] at hagain
    exact (hagain rfl hn).2
  obtain ⟨front', hfront', hrest, -⟩ := (hreads []).exists_front
  refine ⟨front', hfront', hrest, by simp [hfront.ne_nil], h.isNode, fun siblings => ?_⟩
  obtain ⟨front'', -, hrest', hrun⟩ := (hreads siblings).exists_front
  obtain rfl := List.append_cancel_right (hrest.symm.trans hrest')
  exact Prod.ext rfl hrun

end ReadsItem

theorem first_ahead (u : Input) (us : List Input) :
    ((ahead (u :: us))[0]?.map (·.kind)).getD .eof = u.kind := by
  rw [ahead.eq_def]
  rfl

/-- The state in front of a semicolon, and behind it. -/
theorem behind_semi (h : startsWith semi.parts (ahead s.rest) = true) :
    ∃ u rest, s.rest = u :: rest ∧ u.kind = .semi ∧
      s.behind .semi = ⟨rest, .leaf .semi 1 :: s.siblings, s.faults⟩ := by
  obtain ⟨u, us, rest, hrest, hlength, hkind, -⟩ := taken_of_startsWith h
  obtain rfl : us = [] := List.eq_nil_of_length_eq_zero (Nat.succ.inj hlength)
  have hu : u.kind = .semi := by
    rcases hkind with hu | hu
    · exact hu
    · exact (Option.some.inj hu).symm
  refine ⟨u, rest, hrest, hu, ?_⟩
  rw [State.behind, hrest]
  rfl

/-- The rules of a use: its keyword, its semicolon, and the tokens in front of that. -/
theorem exists_of_use (hS : ∀ g s, Moves s (S g s).2) {inside : List Outline}
    (hstarts : StartsUse S ⟨input, [], []⟩)
    (hend : (need .semi S (upToSemicolon S ⟨input, [], []⟩).2).2 = ⟨rest, inside, []⟩) :
    ∃ us u inside', input = us ++ u :: rest ∧ u.kind = .semi ∧ (∃ v ∈ us, v.kind = .useKw) ∧
      inside = .leaf .semi 1 :: inside' ∧
      (upToSemicolon S ⟨input, [], []⟩).2 = ⟨u :: rest, inside', []⟩ := by
  have hlead := (inferInstance : Built upToSemicolon).moves hS ⟨input, [], []⟩
  have hrest : Moves (beforeUse S ⟨input, [], []⟩).2 (upToSemicolon S ⟨input, [], []⟩).2 :=
    (inferInstance : Built (do take .useKw; run (.useTree true))).moves hS _
  have hfirst := ((inferInstance : Built beforeUse).moves hS ⟨input, [], []⟩).rest
  have hfaults := (hlead.clean (moves_need (S := S) .semi _) (by rw [hend])).1
  rw [startsUse_iff] at hstarts
  generalize (upToSemicolon S ⟨input, [], []⟩).2 = lead at hlead hrest hend hfaults ⊢
  generalize (beforeUse S ⟨input, [], []⟩).2 = first at hstarts hrest hfirst
  obtain ⟨leadRest, inside', faults⟩ := lead
  obtain rfl : faults = [] := hfaults
  rw [need_apply] at hend
  split at hend
  · rename_i hsemi
    obtain ⟨u, rest', rfl : leadRest = _, hu, hbehind⟩ := behind_semi hsemi
    rw [hbehind] at hend
    obtain ⟨rfl, rfl, -⟩ := State.mk.inj hend
    obtain ⟨us, rfl⟩ := hlead.rest
    refine ⟨us, u, inside', rfl, hu, ?_, rfl, rfl⟩
    -- the keyword stands behind what is in front of it, and in front of the semicolon
    obtain ⟨zs, hzs⟩ := hrest.rest
    obtain ⟨ws, hws⟩ := hfirst
    rw [← hzs, ← List.append_assoc] at hws
    obtain rfl := List.append_cancel_right hws
    cases zs with
    | nil =>
      rw [← hzs, List.nil_append, first_ahead, hu] at hstarts
      cases hstarts
    | cons v zs =>
      refine ⟨v, by simp, ?_⟩
      rwa [← hzs, List.cons_append, first_ahead] at hstarts
  · exact absurd (congrArg State.faults hend) (noting_ne (List.suffix_refl _))

namespace ReadsItem

/-- A use is the same item whatever follows its semicolon, if that is no semicolon. -/
theorem use (h : ReadsItem (solve depth) input o x) (ho : o.kind? = some .useItem) :
    startsWith semi.parts (ahead x) = false ∧ o.EndsInToken ∧ ∃ us u, input = us ++ u :: x ∧
      u.kind = .semi ∧ (∃ v ∈ us, v.kind = .useKw) ∧
      ∀ {y depth'}, x.length ≤ y.length → depth ≤ depth' → startsWith semi.parts (ahead y) = false →
        ReadsItem (solve depth') (us ++ u :: y) o y := by
  have hitem := h.reads []
  cases depth with
  | zero => cases hitem
  | succ depth =>
  rw [run_item] at hitem
  obtain ⟨kind, found, rest, inside, hbody, hends⟩ :=
    item_clean (moves_solve depth) (congrArg (·.2.faults) hitem)
  rw [item_of_body hbody hends] at hitem
  obtain ⟨rfl, hsiblings, -⟩ := State.mk.inj (Prod.mk.inj hitem).2
  obtain ⟨rfl, -⟩ := List.cons.inj hsiblings
  obtain rfl : kind = .useItem := Option.some.inj ho
  have hstarts := startsUse_of_itemBody (congrArg (·.1.1) hbody)
  rw [itemBody_use true hstarts] at hbody
  obtain ⟨hanswer, hend⟩ := Prod.mk.inj hbody
  obtain rfl : Found.item = found := (Prod.mk.inj hanswer).2
  obtain ⟨us, u, inside', rfl, hu, huse, rfl, hlead⟩ :=
    exists_of_use (moves_solve depth) hstarts hend
  refine ⟨(hends.resolve_left (by simp)).2, ?_, us, u, rfl, hu, huse, ?_⟩
  · rw [List.reverse_cons]
    exact .node _ _ (.leaf _ 0)
  intro y depth' hxy hd hsemi
  obtain ⟨depth', rfl⟩ := Nat.exists_eq_add_one_of_ne_zero (Nat.ne_zero_of_lt hd)
  have hcalls := readsCalls_solve hxy (Nat.le_of_succ_le_succ hd)
  have hcut : Cut rest y ⟨us ++ u :: rest, [], []⟩ ⟨us ++ u :: y, [], []⟩ := by
    have := Cut.mk (x := rest) (y := y) [] [] ⟨us, u, rfl, by rw [hu]; rfl⟩
    simpa using this
  obtain ⟨hanswer', hlead'⟩ := ((inferInstance : Built upToSemicolon).reads hxy hcalls).again hcut
    (by rw [hlead]) (by rw [hlead]; exact Nat.lt_succ_self _)
  rw [hlead] at hlead'
  obtain ⟨front, -, hfront, hlead'⟩ := hlead'.exists_front
  obtain rfl : [u] = front :=
    List.append_cancel_right (show [u] ++ rest = front ++ rest from hfront)
  have hneed : (need .semi (solve depth') ⟨u :: y, inside', []⟩).2 =
      ⟨y, .leaf .semi 1 :: inside', []⟩ := by
    rw [need_apply, ahead_of_seals (by rw [hu]; rfl), if_pos (by simp [parts, startsWith, continuesWith, hu])]
    rfl
  have hbody' : itemBody true (solve depth') ⟨us ++ u :: y, [], []⟩ =
      ((some .useItem, .item), ⟨y, .leaf .semi 1 :: inside', []⟩) := by
    rw [itemBody_use true (hanswer'.trans hstarts), hlead']
    exact congrArg (Prod.mk _) hneed
  exact ⟨by simp, rfl, item_of_body hbody' (.inr ⟨rfl, hsemi⟩)⟩

end ReadsItem

end Grammar

end Docsmith.Source
