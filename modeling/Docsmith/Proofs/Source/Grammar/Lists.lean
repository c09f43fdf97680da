import Docsmith.Proofs.Source.Grammar.Place

/-!
# Lists of associated items

The list whose closing brace follows the place reads the new items behind those it had. The loop
over the items finds the brace in the one input; in the other it finds the new items first.

* `Solves`: what the rules that others call do with the two inputs;
* `follows_memberList`: the list grows, and nothing else changes;
* `follows`: so all that is built from steps follows.
-/

namespace Docsmith.Source.Grammar

open TokenKind Outline

namespace Insertion

/-- A round of the loop over associated items. -/
def memberRound (_ : Unit) : Rule (Bool × Unit) := do
  return (← (do
    if (← sees .rCurly) || (← seesEnd) then return false
    member true false
    return true : Rule Bool), ())

/-- What the rules that others call do with the two inputs. -/
class Solves (I : Insertion) (S : Goal → Step Outcome) (T : outParam (Goal → Step Outcome)) :
    Prop where
  calls (g : Goal) : I.Follows S T (call g)
  tree : I.EndsWhen S T (fun _ => True) (call .tokenTree)
  tree_readsOn : I.ReadsOn S (call .tokenTree)
  attrs : I.EndsWhen S T (fun _ => True) (call (.attrs true))
  attrs_blindAt : I.BlindAt S T (call (.attrs true))
  item : I.EndsWhen S T (fun _ => True) (call (.item true false))
  /-- The loop over associated items reads the new ones. -/
  reads {n : Nat} {s : State} : I.others.length + 2 ≤ n → s.rest = I.new →
    iterateUpTo n () memberRound T s = ((), { s with
      rest := I.closing' :: I.behind
      siblings := I.items.reverse ++ s.siblings })

variable {I : Insertion} {S T : Goal → Step Outcome} {s t : State}

theorem members_eq :
    members true false = (run (.attrs true) >>= fun _ => iterate () memberRound) := rfl

/-- The list ends here. -/
def atEnd (s : State) : Bool :=
  startsWith rCurly.parts (ahead s.rest) || (ahead s.rest).isEmpty

theorem memberRound_apply (s : State) : memberRound () S s =
    if atEnd s then ((false, ()), s) else ((true, ()), (member true false S s).2) := by
  have hend : seesEnd S s = ((ahead s.rest).isEmpty, s) := rfl
  rw [memberRound, bind_apply, bind_apply, sees_apply, bind_apply, hend]
  dsimp only
  rw [← atEnd]
  split <;> rfl

theorem stops_atPlace {n : Nat} (hs : I.AtPlace s)
    (hc : (iterateUpTo n () memberRound S s).2.faults = s.faults) :
    (iterateUpTo n () memberRound S s).2 = s := by
  cases n with
  | zero => exact absurd hc (noting_ne (List.suffix_refl _))
  | succ n =>
    have hend : atEnd s = true := by
      rw [atEnd, ahead_atPlace hs]
      simp [parts, startsWith, continuesWith, I.closing_kind]
    rw [iterateUpTo_succ, memberRound_apply, if_pos hend, if_neg Bool.false_ne_true]

/-- How the rules start on the list: in front of the place, or at it. -/
inductive Starts (I : Insertion) (s : State) : State → Prop
  | before {t : State} : I.Before s t → Starts I s t
  | atPlace : I.AtPlace s → Ended s → Starts I s { s with rest := I.new }

theorem starts_take {k : TokenKind} (hst : I.Before s t) (hc : (take k S s).2.faults = s.faults) :
    I.Starts (take k S s).2 (take k T t).2 := by
  rw [take_apply] at hc
  rw [take_apply, take_apply, hst.ahead]
  split at hc
  · rename_i hk
    rw [if_pos hk, if_pos hk]
    rcases hst.drop (length_le_of_startsWith hk) (.leaf k k.parts.length :: s.siblings) with hs | hs
    · rw [hst.behind_atPlace hk hs]
      exact .atPlace hs (ended_behind k _)
    · rw [State.behind, State.behind, hst.siblings]
      exact .before hs
  · exact absurd hc (noting_ne (List.suffix_refl _))

/-! ## The loop over the items -/

section

variable [hS : I.Solves S T]
include hS

theorem follows_run (g : Goal) : I.Follows S T (run g) :=
  .bind (hS.calls g) fun _ => .pure ()

theorem faults_errorBlock (s : State) : (errorBlock S s).2.faults ≠ s.faults :=
  faults_bind (moves_braced .error (follows_run (I := I) .statements).repeats.moves) s

theorem follows_errorBlock : I.Follows S T errorBlock where
  repeats := .bind (.fault _) fun _ => .braced _ (follows_run (I := I) .statements).repeats
  stays _ hc := absurd hc (faults_errorBlock (I := I) _)
  leads _ hc := absurd hc (faults_errorBlock (I := I) _)

theorem follows_member : I.Follows S T (member true false) :=
  .bind (.look _) fun _ => by
    split
    · exact follows_errorBlock
    · exact follows_run _

theorem endsWhen_member : I.EndsWhen S T (fun _ => True) (member true false) := by
  refine endsWhen_bind (.look _) (fun opens s => ?_) (fun opens => ?_)
    fun s t hst _ hs _ _ _ => absurd hs hst.not_atPlace
  · split
    · exact (follows_errorBlock (I := I)).repeats.moves s
    · exact (follows_run (I := I) _).repeats.moves s
  · split
    · exact fun s _ _ hc => absurd hc (faults_errorBlock (I := I) s)
    · exact endsWhen_map hS.item fun _ => ()

theorem moves_memberRound (a : Unit) (s : State) : Moves s (memberRound a S s).2 := by
  rw [memberRound_apply]
  split
  · exact .refl s
  · exact (follows_member (I := I)).repeats.moves s

/-- Behind the items it had, the list has the new ones. -/
theorem ends_loop {n m : Nat} (hnm : n + I.others.length + 2 ≤ m) (hst : I.Before s t)
    (hc : (iterateUpTo n () memberRound S s).2.faults = s.faults)
    (hs : I.AtPlace (iterateUpTo n () memberRound S s).2) :
    iterateUpTo m () memberRound T t = ((), { (iterateUpTo n () memberRound S s).2 with
        rest := I.closing' :: I.behind
        siblings := I.items.reverse ++ (iterateUpTo n () memberRound S s).2.siblings }) ∧
      Ended (iterateUpTo n () memberRound S s).2 := by
  induction n generalizing m s t with
  | zero => exact absurd hc (noting_ne (List.suffix_refl _))
  | succ n ih =>
    obtain ⟨m, rfl⟩ := Nat.exists_eq_add_one_of_ne_zero (Nat.ne_zero_of_lt hnm)
    rw [iterateUpTo_succ, memberRound_apply] at hc hs ⊢
    rw [iterateUpTo_succ, memberRound_apply]
    have hend : atEnd t = atEnd s := by rw [atEnd, atEnd, hst.ahead]
    rw [hend]
    cases hend : atEnd s with
    | true =>
      rw [hend] at hs
      exact absurd hs hst.not_atPlace
    | false =>
      rw [hend] at hc hs
      simp only [Bool.false_eq_true, if_false, if_true] at hc hs ⊢
      have hloop := moves_iterateUpTo (n := n) (a := ()) (moves_memberRound (I := I) (S := S))
      obtain ⟨hcm, hcl⟩ := ((follows_member (I := I)).repeats.moves s).clean (hloop _) hc
      rcases (follows_member (I := I)).leads hst hcm with hplace | hastray | ⟨-, htwin⟩
      · obtain ⟨ht, hended⟩ := endsWhen_member s t hst hcm hplace trivial
        rw [stops_atPlace hplace hcl, ht]
        exact ⟨hS.reads (by omega) rfl, hended⟩
      · exact absurd (hastray.moves (hloop _)) hs.not_astray
      · cases htwin with
        | before hst => exact ih (by omega) hst hcl hs
        | grown hst => exact absurd hs (not_atPlace_of_grown hst (hloop _))

theorem moves_members (s : State) : Moves s (members true false S s).2 :=
  ((follows_run (I := I) (.attrs true)).repeats.moves s).trans
    (moves_iterateUpTo (moves_memberRound (I := I) (S := S)) _ () _)

theorem ends_members (hst : I.Starts s t) (hc : (members true false S s).2.faults = s.faults)
    (hs : I.AtPlace (members true false S s).2) :
    members true false T t = ((), { (members true false S s).2 with
        rest := I.closing' :: I.behind
        siblings := I.items.reverse ++ (members true false S s).2.siblings }) ∧
      Ended (members true false S s).2 := by
  rw [members_eq, bind_apply, iterate_apply] at hc hs ⊢
  rw [bind_apply, iterate_apply]
  have hloop (u : State) (n : Nat) : Moves u (iterateUpTo n () memberRound S u).2 :=
    moves_iterateUpTo (moves_memberRound (I := I) (S := S)) n () u
  obtain ⟨hca, hcl⟩ := ((follows_run (I := I) (.attrs true)).repeats.moves s).clean (hloop _ _) hc
  have hreads {u : State} (hu : u.rest = I.new) := hS.reads (n := 2 * u.rest.length + 2) (by
    rw [hu, new, List.length_append, List.length_cons]
    omega) hu
  cases hst with
  | before hst =>
    rcases (follows_run (I := I) (.attrs true)).leads hst hca with hplace | hastray | ⟨-, htwin⟩
    · obtain ⟨ht, hended⟩ := endsWhen_map (p := fun _ => True) hS.attrs (fun _ => ()) s t hst hca
        hplace trivial
      rw [stops_atPlace hplace hcl, show run (.attrs true) T t = _ from ht]
      exact ⟨hreads rfl, hended⟩
    · exact absurd (hastray.moves (hloop _ _)) hs.not_astray
    · cases htwin with
      | before hst =>
        have hlength := hst.length_eq
        exact ends_loop (by omega) hst hcl hs
      | grown hst => exact absurd hs (not_atPlace_of_grown hst (hloop _ _))
  | atPlace hplace hended =>
    obtain ⟨hsame, ht⟩ := hS.attrs_blindAt s hplace hca
    have hs' : (run (.attrs true) S s).2 = s := hsame
    have ht' : run (.attrs true) T { s with rest := I.new } = ((), { s with rest := I.new }) :=
      congrArg (fun p : Outcome × State => ((), p.2)) ht
    rw [hs'] at hcl ⊢
    rw [stops_atPlace hplace hcl, ht']
    exact ⟨hreads rfl, hended⟩

/-- Where the list closes behind the place in the one input, it closes behind the new items in the
other. -/
theorem inBraces_closes (hst : I.Before s t)
    (hc : (inBraces (members true false) S s).2.faults = s.faults)
    (hs : I.AtPlace (members true false S (take .lCurly S s).2).2) :
    ∃ u, Ended u ∧ u.rest = I.old ∧ inBraces (members true false) S s = ((), u.behind .rCurly) ∧
      inBraces (members true false) T t = ((), { u with
        rest := I.behind
        siblings := .leaf .rCurly 1 :: (I.items.reverse ++ u.siblings) }) := by
  have hmembers := moves_members (I := I) (S := S)
  obtain ⟨htake, hrest⟩ := (moves_take .lCurly s).clean
    ((hmembers _).trans (moves_need (S := S) .rCurly _)) hc
  obtain ⟨hm, -⟩ := (hmembers _).clean (moves_need (S := S) .rCurly _) hrest
  obtain ⟨ht, hended⟩ := ends_members (starts_take (T := T) hst htake) hm hs
  refine ⟨_, hended, hs, ?_, ?_⟩
  · rw [inBraces, bind_apply, bind_apply, need_atPlace hs]
  · have hsees : startsWith rCurly.parts (ahead (I.closing' :: I.behind)) = true := by
      rw [ahead_of_seals (by rw [I.closing_kind']; rfl)]
      simp [parts, startsWith, continuesWith, I.closing_kind']
    rw [inBraces, bind_apply, bind_apply, ht, need_apply, if_pos hsees]
    rfl

/-- The list grows by the new items. -/
theorem follows_memberList (hm : I.Follows S T (members true false)) :
    I.Follows S T (memberList .assocItemList true false) where
  repeats := .braced .assocItemList hm.repeats
  stays {s} hs hc := absurd hc (stays_inBraces hm (s := { s with siblings := [] }) hs)
  leads {s t} hst hc := by
    change (inBraces (members true false) S { s with siblings := [] }).2.faults = s.faults at hc
    change I.Leads (node .assocItemList (inBraces (members true false)) S s)
      (node .assocItemList (inBraces (members true false)) T t)
    rw [node_apply, node_apply, hst.siblings]
    rcases leads_inBraces hm (hst.restart []) hc with ⟨hs, -⟩ | hs
    · obtain ⟨u, ⟨last, older, hlast, hended⟩, hu, hcs, hct⟩ := inBraces_closes (hst.restart []) hc hs
      rw [hcs, hct]
      refine .inr (.inr ⟨rfl, .grown (.of_grown (j := 0) ?_ rfl ?_ ?_)⟩)
      · exact (rest_behind_atPlace hu).symm
      · rw [Nat.zero_add]
        exact congrArg List.length (rest_behind_atPlace hu)
      · have hgrown : GrownAll I.items 0 _ _ := .single (.here older.reverse hended)
        simpa [State.behind, hlast, parts] using hgrown.behind s.siblings.reverse
    · exact (hs.map (some .assocItemList, ·)).gather s.siblings

/-- What is built from steps follows. -/
theorem follows {α : Type} {x : Rule α} (h : Built x) : I.Follows S T x :=
  follows_of_built h hS.calls follows_memberList

theorem moves_built {α : Type} {x : Rule α} (h : Built x) (s : State) : Moves s (x S s).2 :=
  (follows (I := I) (T := T) h).repeats.moves s

end

end Insertion

end Docsmith.Source.Grammar
