import Docsmith.Proofs.Source.Grammar.Reading

/-!
# Outlines of whole files

A file that is read without a fault is read to its end, and the leaves of its outlines cover its
tokens. Constants in front of the brace of a list make that list grow, and nothing else changes.

* `covers_outlineOf`: the outlines cover the file;
* `outlineOf_new`: the outlines of a file with more constants in one of its lists;
* `faults_of_brace_first`: no file starts with a closing brace.
-/

namespace Docsmith.Source.Grammar

open TokenKind Outline

variable {S : Goal → Step Outcome} {s : State} {input : List Input}

/-! ## Reading to the end -/

/-- A round of the loop over the items of a file. -/
def fileRound (_ : Unit) : Rule (Bool × Unit) := do
  return (← (do
    if ← seesEnd then return false
    run (.item false true)
    return true : Rule Bool), ())

/-- What may stand in front of the items of a file. -/
def fileHead : Rule Unit := do
  skip .shebang
  skip .frontmatter
  innerAttrs

theorem fileItems_apply : fileItems S s =
    iterateUpTo (2 * (fileHead S s).2.rest.length + 2) () fileRound S (fileHead S s).2 := by
  rw [fileItems, repeatWhile, bind_apply, bind_apply, bind_apply, iterate_apply, fileHead,
    bind_apply, bind_apply]
  rfl

theorem ahead_isEmpty {ts : List Input} : (ahead ts).isEmpty = true ↔ ts = [] := by
  cases ts <;> simp [ahead]

theorem fileRound_apply : fileRound () S s =
    if (ahead s.rest).isEmpty then ((false, ()), s)
    else ((true, ()), (run (.item false true) S s).2) := by
  have hend : seesEnd S s = ((ahead s.rest).isEmpty, s) := rfl
  rw [fileRound, bind_apply, bind_apply, hend]
  dsimp only
  split <;> rfl

section

variable (hS : ∀ g s, Moves s (S g s).2)
include hS

theorem moves_fileRound (a : Unit) (s : State) : Moves s (fileRound a S s).2 := by
  rw [fileRound_apply]
  split
  · exact .refl s
  · exact (inferInstance : Built (run (.item false true))).moves hS s

/-- The loop over the items of a file leaves a fault or reads to the end. -/
theorem rest_fileRounds (n : Nat) (hc : (iterateUpTo n () fileRound S s).2.faults = s.faults) :
    (iterateUpTo n () fileRound S s).2.rest = [] := by
  induction n generalizing s with
  | zero => exact absurd hc (noting_ne (List.suffix_refl _))
  | succ n ih =>
    have hround := moves_fileRound hS () s
    rw [iterateUpTo_succ] at hc ⊢
    cases hmore : (fileRound () S s).1.1 with
    | false =>
      rw [fileRound_apply] at hmore ⊢
      rw [if_neg Bool.false_ne_true]
      split at hmore
      · rename_i hend
        rw [if_pos hend]
        exact ahead_isEmpty.1 hend
      · cases hmore
    | true =>
      rw [hmore, if_pos rfl] at hc
      rw [if_pos rfl]
      exact ih (hround.clean (moves_iterateUpTo (moves_fileRound hS) n _ _) hc).2

theorem rest_fileItems (hc : (fileItems S s).2.faults = s.faults) :
    (fileItems S s).2.rest = [] := by
  have hhead : Moves s (fileHead S s).2 := by
    have hbuilt : Built fileHead := by
      unfold fileHead
      infer_instance
    exact hbuilt.moves hS s
  rw [fileItems_apply] at hc ⊢
  exact rest_fileRounds hS _
    (hhead.clean (moves_iterateUpTo (moves_fileRound hS) _ _ _) hc).2

end

/-! ## Files without a fault -/

/-- Where reading a file ends. -/
def fileEnd (input : List Input) : State :=
  (fileItems (solve (8 * (input.length + 2))) ⟨input, [], []⟩).2

theorem outlineOf_eq (input : List Input) :
    outlineOf input = ((fileEnd input).siblings.reverse, (fileEnd input).faults.reverse) := by
  rw [outlineOf, fileEnd]
  generalize fileItems (solve (8 * (input.length + 2))) ⟨input, [], []⟩ = r
  rfl

theorem moves_fileEnd (input : List Input) : Moves ⟨input, [], []⟩ (fileEnd input) :=
  (inferInstance : Built fileItems).moves (moves_solve _) _

section

variable (hc : (outlineOf input).2 = [])
include hc

theorem faults_fileEnd : (fileEnd input).faults = [] := by
  rw [outlineOf_eq] at hc
  exact List.reverse_eq_nil_iff.1 hc

theorem rest_fileEnd : (fileEnd input).rest = [] :=
  rest_fileItems (moves_solve _) (faults_fileEnd hc)

/-- The leaves of the outlines cover the file. -/
theorem covers_outlineOf : Covers (leavesAll (outlineOf input).1) input := by
  obtain ⟨taken, added, hrest, hleaves, hcovers⟩ := (moves_fileEnd input).covers
  rw [rest_fileEnd hc, List.append_nil] at hrest
  rw [List.reverse_nil, leavesAll, List.nil_append] at hleaves
  obtain rfl : input = taken := hrest
  rwa [outlineOf_eq, hleaves]

theorem size_outlineOf : sizeAll (outlineOf input).1 = input.length := by
  have hsize := (moves_fileEnd input).size
  rw [rest_fileEnd hc, List.length_nil, List.reverse_nil, sizeAll, Nat.zero_add,
    Nat.add_zero] at hsize
  rw [outlineOf_eq]
  exact hsize

end

/-! ## More constants -/

namespace Insertion

variable {I : Insertion} {front : List Input}

/-- The list whose brace stands behind the place has the new constants at its end, and nothing else
has changed. -/
theorem outlineOf_new {cs : List (String × String)} (hI : I.Declares cs) (hfront : front ≠ [])
    (hc : (outlineOf (front ++ I.old)).2 = [])
    (hholder : (holdersAll none (outlineOf (front ++ I.old)).1)[front.length]? =
      some (some .assocItemList)) :
    (outlineOf (front ++ I.new)).2 = [] ∧
      GrownAll I.items I.behind.length (outlineOf (front ++ I.old)).1
        (outlineOf (front ++ I.new)).1 := by
  have hlength : (front ++ I.new).length = (front ++ I.old).length + I.others.length + 1 := by
    simp only [old, new, List.length_append, List.length_cons]
    omega
  have hsolves : I.Solves (solve (8 * ((front ++ I.old).length + 2)))
      (solve (8 * ((front ++ I.new).length + 2))) := solves_solve hI (by omega)
  have hst : I.Before ⟨front ++ I.old, [], []⟩ ⟨front ++ I.new, [], []⟩ := .mk [] [] hfront
  have heta (r : Unit × State) : ((), r.2) = r := rfl
  have hfollows : I.Follows (solve (8 * ((front ++ I.old).length + 2)))
      (solve (8 * ((front ++ I.new).length + 2))) fileItems := follows inferInstance
  have hleads : I.Leads ((), fileEnd (front ++ I.old)) ((), fileEnd (front ++ I.new)) := by
    rw [fileEnd, fileEnd, heta, heta]
    exact hfollows.leads hst (faults_fileEnd hc)
  have hend := rest_fileEnd hc
  have hfaults := faults_fileEnd hc
  have hsize := size_outlineOf hc
  rw [outlineOf_eq] at hholder hsize ⊢
  rw [outlineOf_eq]
  rcases hleads with hplace | ⟨j, kind, hj, hkind, hlength⟩ | ⟨-, htwin⟩
  · exact absurd (hplace.symm.trans hend) (List.cons_ne_nil _ _)
  · -- The brace stands in the list, so no other node has taken it.
    have hj' : j = I.behind.length := by
      dsimp only at hlength
      rw [hend, List.length_nil, Nat.add_zero] at hlength
      exact hlength
    have hholders : (fileEnd (front ++ I.old)).holders.length = front.length + j + 1 := by
      rw [State.holders, length_holdersAll, hsize, hj', old, List.length_append, List.length_cons]
      omega
    dsimp only at hj
    rw [List.getElem?_reverse (by omega), hholders,
      show front.length + j + 1 - 1 - j = front.length by omega, State.holders, hholder] at hj
    exact absurd (Option.some_inj.1 (Option.some_inj.1 hj)).symm hkind
  · generalize fileEnd (front ++ I.old) = s at hend hfaults htwin
    generalize fileEnd (front ++ I.new) = t at htwin
    cases htwin with
    | before h =>
      cases h with
      | mk siblings faults hne => exact absurd (List.append_eq_nil_iff.1 hend).1 hne
    | grown h =>
      cases h with
      | @grown j siblings siblings' rest faults hN hgrown =>
        dsimp only at hend hfaults hN
        rw [hend, List.length_nil, Nat.add_zero] at hN
        rw [hfaults, ← hN]
        exact ⟨rfl, hgrown⟩

end Insertion

/-! ## A brace at the start of a file -/

/-- What follows the marks a file may start with. -/
def fileRest : Rule Unit := do
  innerAttrs
  iterate () fileRound

instance : Built (fileRound ()) := by
  unfold fileRound
  infer_instance

instance : Built fileRest := by
  have (a : Unit) : Built (fileRound a) := inferInstanceAs (Built (fileRound ()))
  unfold fileRest
  infer_instance

theorem fileItems_eq (s : State) :
    fileItems S s = fileRest S (skip .frontmatter S (skip .shebang S s).2).2 := by
  rw [fileItems, bind_apply, bind_apply]
  rfl

theorem skip_apply (k : TokenKind) (s : State) : (skip k S s).2 =
    if startsWith k.parts (ahead s.rest) then s.behind k else s := by
  change (eat k S s).2 = _
  rw [eat_apply]
  split <;> rfl

/-- A mark that a file may start with, or nothing. -/
def MarkOrNone (k : TokenKind) (ts : List Input) : Prop := ts = [] ∨ ∃ t, ts = [t] ∧ t.kind = k

/-- A mark is skipped. -/
theorem skip_mark {k : TokenKind} (hk : k.parts = [k]) {mark ts : List Input} {t : Input}
    (hmark : MarkOrNone k mark) (ht : t.kind ≠ k) (hs : s.rest = mark ++ t :: ts) :
    (skip k S s).2.rest = t :: ts ∧ (skip k S s).2.faults = s.faults := by
  have hsees (u : Input) (us : List Input) :
      startsWith k.parts (ahead (u :: us)) = decide (u.kind = k) := by
    rw [hk, ahead.eq_def]
    simp [startsWith, continuesWith]
  rw [skip_apply, hs]
  rcases hmark with rfl | ⟨u, rfl, hu⟩
  · rw [List.nil_append, hsees, if_neg (by simpa using ht)]
    exact ⟨hs, rfl⟩
  · rw [List.singleton_append, hsees, if_pos (by simpa using hu), State.behind, hs, hk]
    exact ⟨rfl, rfl⟩

/-- No item of a file starts with a closing brace. -/
theorem faults_of_brace_first {line block behind : List Input} {brace : Input}
    (hline : MarkOrNone .shebang line) (hblock : MarkOrNone .frontmatter block)
    (hb : brace.kind = .rCurly) : (outlineOf (line ++ block ++ brace :: behind)).2 ≠ [] := by
  intro hc
  let I : Insertion := {
    closing := brace, closing' := brace, behind := behind, first := constantHead
    others := constantTail "" "", items := [constantOutline]
    closing_kind := hb, closing_kind' := hb, first_kind := rfl }
  have hI : I.Declares [("", "")] := ⟨rfl, rfl⟩
  have hend := rest_fileEnd hc
  have hfaults := faults_fileEnd hc
  rw [fileEnd, fileItems_eq] at hend hfaults
  generalize 8 * ((line ++ block ++ brace :: behind).length + 2) = depth at hend hfaults
  have hsolves : I.Solves (solve depth) (solve (depth + 5)) :=
    Insertion.solves_solve hI (Nat.le_refl _)
  obtain ⟨t, ts, hhead, ht⟩ : ∃ t ts, block ++ brace :: behind = t :: ts ∧ t.kind ≠ .shebang := by
    rcases hblock with rfl | ⟨u, rfl, hu⟩
    · exact ⟨_, _, rfl, by rw [hb]; decide⟩
    · exact ⟨_, _, rfl, by rw [hu]; decide⟩
  obtain ⟨hrest, hclean⟩ := skip_mark (S := solve depth)
    (s := ⟨line ++ block ++ brace :: behind, [], []⟩) rfl hline ht
    (by rw [List.append_assoc, hhead])
  rw [← hhead] at hrest
  obtain ⟨hplace, hclean'⟩ := skip_mark rfl hblock (by rw [hb]; decide) hrest
  have hstays := (Insertion.follows (I := I) (S := solve depth) (T := solve (depth + 5))
    (inferInstance : Built fileRest)).stays hplace (hfaults.trans (hclean'.trans hclean).symm)
  rw [Insertion.AtPlace, hend] at hstays
  cases hstays

end Docsmith.Source.Grammar
