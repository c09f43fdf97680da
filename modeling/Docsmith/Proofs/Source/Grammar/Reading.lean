import Docsmith.Proofs.Source.Grammar.Members

/-!
# Reading constants

Constants that are put in front of the brace of a list are read as items of the list. So the rules
of all goals do with the two inputs what `Solves` asks for, if those for the second may nest a few
rules deeper.

* `memberRound_constant`: how a constant is read;
* `solves_solve`: what all rules do with the two inputs.
-/

namespace Docsmith.Source.Grammar

open TokenKind Outline

/-! ## A constant -/

def constantHead : Input := ⟨.pubKw, "pub", false⟩

/-- The tokens behind the first of a constant that holds a string. -/
def constantTail (name value : String) : List Input := [
  ⟨.constKw, "const", false⟩, ⟨.ident, name, false⟩, ⟨.colon, ":", true⟩, ⟨.amp, "&", false⟩,
  ⟨.ident, "str", true⟩, ⟨.eq, "=", false⟩, ⟨.string, value, false⟩, ⟨.semi, ";", true⟩]

/-- The tokens of a constant with a name and a value. -/
def constantInput (c : String × String) : List Input := constantHead :: constantTail c.1 c.2

/-- What a constant is read as. -/
def constantOutline : Outline :=
  .node .constItem [
    .node .visibility [.leaf .pubKw 1], .leaf .constKw 1, .node .name [.leaf .ident 1],
    .leaf .colon 1,
    .node .refType [.leaf .amp 1,
      .node .pathType [.node .path [.node .pathSegment [.node .nameRef [.leaf .ident 1]]]]],
    .leaf .eq 1, .node .literal [.leaf .string 1], .leaf .semi 1]

/-- What follows a constant in a list. -/
def FollowsConstant (u : Input) : Prop := u.kind = .pubKw ∨ u.kind = .rCurly

namespace Insertion

variable {I : Insertion} {S T : Goal → Step Outcome} {s t : State}

set_option maxRecDepth 4000 in
/-- A round of the loop over associated items reads a constant. -/
theorem memberRound_constant (depth : Nat) (c : String × String) {u : Input}
    (hu : FollowsConstant u) (rest : List Input) (siblings : List Outline) (faults : List String) :
    memberRound () (solve (depth + 5)) ⟨constantInput c ++ u :: rest, siblings, faults⟩ =
      ((true, ()), ⟨u :: rest, constantOutline :: siblings, faults⟩) := by
  obtain ⟨kind, text, glued⟩ := u
  obtain rfl | rfl : kind = .pubKw ∨ kind = .rCurly := hu <;> rfl

theorem followsConstant_head (cs : List (String × String)) {u : Input} (hu : u.kind = .rCurly)
    (rest : List Input) :
    ∃ v more, cs.flatMap constantInput ++ u :: rest = v :: more ∧ FollowsConstant v := by
  cases cs with
  | nil => exact ⟨u, rest, rfl, .inr hu⟩
  | cons c cs => exact ⟨constantHead, _, rfl, .inl rfl⟩

/-- The loop over associated items reads constants up to a brace. -/
theorem iterateUpTo_constants (depth : Nat) (cs : List (String × String)) {u : Input}
    (hu : u.kind = .rCurly) (rest : List Input) (siblings : List Outline) (faults : List String)
    {n : Nat} (hn : cs.length + 1 ≤ n) :
    iterateUpTo n () memberRound (solve (depth + 5))
        ⟨cs.flatMap constantInput ++ u :: rest, siblings, faults⟩ =
      ((), ⟨u :: rest, List.replicate cs.length constantOutline ++ siblings, faults⟩) := by
  obtain ⟨n, rfl⟩ := Nat.exists_eq_add_one_of_ne_zero (Nat.ne_zero_of_lt hn)
  induction cs generalizing n siblings with
  | nil =>
    have hend : atEnd ⟨u :: rest, siblings, faults⟩ = true := by
      rw [atEnd, ahead_of_seals (by rw [hu]; rfl)]
      simp [parts, startsWith, continuesWith, hu]
    rw [List.flatMap_nil, List.nil_append, iterateUpTo_succ, memberRound_apply, if_pos hend,
      if_neg Bool.false_ne_true]
    rfl
  | cons c cs ih =>
    obtain ⟨n, rfl⟩ : ∃ m, n = m + 1 := Nat.exists_eq_add_one_of_ne_zero (by
      rw [List.length_cons] at hn
      omega)
    obtain ⟨v, more, hmore, hv⟩ := followsConstant_head cs hu rest
    have hround := memberRound_constant depth c hv more siblings faults
    rw [← hmore] at hround
    rw [List.flatMap_cons, List.append_assoc, iterateUpTo_succ, hround, if_pos rfl,
      ih _ n (by rw [List.length_cons] at hn; omega), List.length_cons, List.replicate_succ',
      List.append_assoc]
    rfl

theorem length_constants (cs : List (String × String)) :
    (cs.flatMap constantInput).length = 9 * cs.length := by
  induction cs with
  | nil => rfl
  | cons c cs ih =>
    rw [List.flatMap_cons, List.length_append, ih, List.length_cons, Nat.mul_succ, Nat.add_comm]
    rfl

/-- The items are constants. -/
structure Declares (I : Insertion) (cs : List (String × String)) : Prop where
  tokens : I.first :: I.others = cs.flatMap constantInput
  items : I.items = List.replicate cs.length constantOutline

theorem Declares.reads {cs : List (String × String)} (h : I.Declares cs) (depth : Nat) {n : Nat}
    (hn : I.others.length + 2 ≤ n) (hs : s.rest = I.new) :
    iterateUpTo n () memberRound (solve (depth + 5)) s = ((), { s with
      rest := I.closing' :: I.behind
      siblings := I.items.reverse ++ s.siblings }) := by
  obtain ⟨rest, siblings, faults⟩ := s
  obtain rfl : rest = I.new := hs
  have hlength := congrArg List.length h.tokens
  rw [length_constants, List.length_cons] at hlength
  have hread := iterateUpTo_constants depth cs I.closing_kind' I.behind siblings faults
    (n := n) (by omega)
  rw [← h.tokens] at hread
  rw [new, hread, h.items, List.reverse_replicate]

/-! ## All goals -/

/-! ## Attributes of what encloses them -/

/-- A round of the loop over these attributes. -/
def attrRound (_ : Unit) : Rule (Bool × Unit) := do
  return (← (do
    if (← sees .pound) && (← nth 1) = .bang then
      attr true
      return true
    return false : Rule Bool), ())

theorem innerAttrs_eq : innerAttrs = iterate () attrRound := rfl

/-- Without a hash sign there is no attribute. -/
theorem attrRound_eq (h : startsWith pound.parts (ahead s.rest) = false) :
    attrRound () S s = ((false, ()), s) := by
  rw [attrRound, bind_apply, bind_apply, sees_apply, h]
  rfl

theorem iterateUpTo_attrRound (h : startsWith pound.parts (ahead s.rest) = false) (n : Nat) :
    iterateUpTo (n + 1) () attrRound S s = ((), s) := by
  rw [iterateUpTo_succ, attrRound_eq h, if_neg Bool.false_ne_true]

theorem blindAt_innerAttrs : I.BlindAt S T innerAttrs := by
  intro s hs _
  rw [innerAttrs_eq, iterate_apply, iterate_apply, iterateUpTo_attrRound (not_startsWith_old hs),
    iterateUpTo_attrRound (s := { s with rest := I.new }) not_startsWith_new]
  exact ⟨rfl, rfl⟩

section

variable [hS : I.Solves S T]
include hS

theorem ending_attrRound : I.Ending S T (attrRound ()) := by
  unfold attrRound
  infer_instance

/-- Behind the last attribute the loop stops, at the brace as well as at the items. -/
theorem ends_attrs {n m : Nat} (hnm : n + 1 ≤ m) (hst : I.Before s t)
    (hc : (iterateUpTo n () attrRound S s).2.faults = s.faults)
    (hs : I.AtPlace (iterateUpTo n () attrRound S s).2) :
    iterateUpTo m () attrRound T t =
        ((), { (iterateUpTo n () attrRound S s).2 with rest := I.new }) ∧
      Ended (iterateUpTo n () attrRound S s).2 := by
  obtain ⟨m, rfl⟩ := Nat.exists_eq_add_one_of_ne_zero (Nat.ne_zero_of_lt hnm)
  have hround : I.Ending S T (attrRound ()) := ending_attrRound
  induction n generalizing m s t with
  | zero => exact absurd hc (noting_ne (List.suffix_refl _))
  | succ n ih =>
    rw [iterateUpTo_succ] at hc hs ⊢
    rw [iterateUpTo_succ]
    have hloop := moves_iterateUpTo (n := n) (a := ())
      fun _ => moves_built (I := I) (S := S) hround.built
    cases hmore : (attrRound () S s).1.1 with
    | false =>
      rw [hmore, if_neg Bool.false_ne_true] at hc hs
      obtain ⟨ht, hended⟩ := hround.ends s t hst hc hs trivial
      rw [ht, hmore, if_neg Bool.false_ne_true, if_neg Bool.false_ne_true]
      exact ⟨rfl, hended⟩
    | true =>
      rw [hmore, if_pos rfl] at hc hs
      obtain ⟨hcr, hcl⟩ := (moves_built (I := I) hround.built s).clean (hloop _) hc
      rw [if_pos rfl]
      rcases (follows hround.built).leads hst hcr with hplace | hastray | ⟨ha, htwin⟩
      · obtain ⟨ht, hended⟩ := hround.ends s t hst hcr hplace trivial
        obtain ⟨n, rfl⟩ : ∃ k, n = k + 1 := Nat.exists_eq_add_one_of_ne_zero (by
          rintro rfl
          exact noting_ne (List.suffix_refl _) hcl)
        rw [iterateUpTo_attrRound (not_startsWith_old hplace), ht, hmore, if_pos rfl]
        obtain ⟨m, rfl⟩ : ∃ k, m = k + 1 := Nat.exists_eq_add_one_of_ne_zero (by omega)
        rw [iterateUpTo_attrRound (s := { (attrRound () S s).2 with rest := I.new })
          not_startsWith_new]
        exact ⟨rfl, hended⟩
      · exact absurd (hastray.moves (hloop _)) hs.not_astray
      · rw [ha, hmore, if_pos rfl]
        cases htwin with
        | before hst =>
          obtain ⟨m, rfl⟩ : ∃ k, m = k + 1 := Nat.exists_eq_add_one_of_ne_zero (by omega)
          exact ih hst hcl hs m (by omega)
        | grown hst => exact absurd hs (not_atPlace_of_grown hst (hloop _))

theorem endsWhen_innerAttrs : I.EndsWhen S T (fun _ => True) innerAttrs := by
  intro s t hst hc hs _
  rw [innerAttrs_eq, iterate_apply] at hc hs
  rw [innerAttrs_eq, ReadsAlike, iterate_apply, iterate_apply]
  have := hst.length_eq
  exact ends_attrs (by omega) hst hc hs

end

/-! ## All goals -/

/-- If the rules that others call do what is asked for, so do all rules. -/
theorem Solves.succ {cs : List (String × String)} (hI : I.Declares cs) {depth depth' : Nat}
    (h : 4 ≤ depth') (hS : I.Solves (solve depth) (solve depth')) :
    I.Solves (solve (depth + 1)) (solve (depth' + 1)) where
  calls g :=
    have hg := follows (I := I) (S := solve depth) (built_ruleOf g)
    { repeats := ⟨hg.repeats.moves, hg.repeats.again⟩, stays := hg.stays, leads := hg.leads }
  tree :=
    have hg : I.EndsWhen (solve depth) (solve depth') (fun _ => True) (ruleOf .tokenTree) :=
      endsWhen_map closes_tokenTree.ends fun _ => Outcome.plain
    fun s t => hg s t
  tree_readsOn :=
    have htree : I.Closes (solve depth) (solve depth') tokenTree := closes_tokenTree
    have hg : I.ReadsOn (solve depth) (ruleOf .tokenTree) :=
      readsOn_left htree.built (fun _ => .pure Outcome.plain) htree.readsOn
    fun s => hg s
  attrs :=
    have hg : I.EndsWhen (solve depth) (solve depth') (fun _ => True) (ruleOf (.attrs true)) :=
      endsWhen_map endsWhen_innerAttrs fun _ => Outcome.plain
    fun s t => hg s t
  attrs_blindAt s hs hc := by
    obtain ⟨hsame, ht⟩ := blindAt_innerAttrs (S := solve depth) (T := solve depth') s hs hc
    exact ⟨hsame, congrArg (fun p : Unit × State => (Outcome.plain, p.2)) ht⟩
  item :=
    have hg : I.EndsWhen (solve depth) (solve depth') (fun _ => True) (ruleOf (.item true false)) :=
      endsWhen_map ending_item.ends fun _ => Outcome.plain
    fun s t => hg s t
  reads {n s} hn hs := by
    obtain ⟨k, rfl⟩ : ∃ k, depth' = k + 4 := ⟨depth' - 4, by omega⟩
    exact hI.reads k hn hs

theorem Solves.zero {cs : List (String × String)} (hI : I.Declares cs) {depth' : Nat}
    (h : 5 ≤ depth') : I.Solves (solve 0) (solve depth') where
  calls g := {
    repeats := ⟨moves_solve 0 g, fun _ hc => absurd hc (noting_ne (List.suffix_refl _))⟩
    stays := fun _ hc => absurd hc (noting_ne (List.suffix_refl _))
    leads := fun _ hc => absurd hc (noting_ne (List.suffix_refl _)) }
  tree _ _ _ hc := absurd hc (noting_ne (List.suffix_refl _))
  tree_readsOn _ _ hc := absurd hc (noting_ne (List.suffix_refl _))
  attrs _ _ _ hc := absurd hc (noting_ne (List.suffix_refl _))
  attrs_blindAt _ _ hc := absurd hc (noting_ne (List.suffix_refl _))
  item _ _ _ hc := absurd hc (noting_ne (List.suffix_refl _))
  reads {n s} hn hs := by
    obtain ⟨k, rfl⟩ : ∃ k, depth' = k + 5 := ⟨depth' - 5, by omega⟩
    exact hI.reads k hn hs

theorem solves_solve {cs : List (String × String)} (hI : I.Declares cs) {depth depth' : Nat}
    (h : depth + 5 ≤ depth') : I.Solves (solve depth) (solve depth') := by
  induction depth generalizing depth' with
  | zero => exact .zero hI (by omega)
  | succ depth ih =>
    obtain ⟨depth', rfl⟩ := Nat.exists_eq_add_one_of_ne_zero (Nat.ne_zero_of_lt h)
    exact .succ hI (by omega) (ih (by omega))

end Insertion

end Docsmith.Source.Grammar
