import Docsmith.Proofs.Source.Grammar.Outlines
import Docsmith.Proofs.Source.Nodes

/-!
# Weaving in front of a cut

A tree is woven of outlines and the tokens that they lie over. What is woven over the tokens in
front of a cut does not depend on those behind it.

* `lays_of_covers`: outlines that cover the input lie over the tokens the input comes from;
* `weave_append`: the trees in front of a cut, by induction on the outline.
-/

namespace Docsmith.Source

open Grammar (Covers Heads Input)

/-- Blanks and comments. -/
def Trivial (ts : List Token) : Prop := ∀ t ∈ ts, t.kind.isTrivia = true

/-- Tokens that are neither blank nor comment. -/
def Solid (ts : List Token) : Prop := ∀ t ∈ ts, t.kind.isTrivia = false

/-- The number of tokens that are neither blank nor comment. -/
def solidCount (ts : List Token) : Nat := ts.countP (!·.kind.isTrivia)

/-! ## Tokens under leaves -/

/-- Each leaf takes tokens that follow one another, behind blanks and comments. Some may be left at
the end. -/
inductive Lays : List (TokenKind × Nat) → List Token → Prop
  | nil {gap : List Token} : Trivial gap → Lays [] gap
  | cons {kind : TokenKind} {gap run ts : List Token} {t : Token} {ls : List (TokenKind × Nat)} :
      Trivial gap → Heads t.kind kind → Solid (t :: run) → Lays ls ts →
      Lays ((kind, run.length + 1) :: ls) (gap ++ t :: run ++ ts)

variable {ls ms : List (TokenKind × Nat)} {ts us vs gap run : List Token} {t : Token}
  {kind : TokenKind} {glued : Bool}

theorem solidCount_append (ts us : List Token) :
    solidCount (ts ++ us) = solidCount ts + solidCount us := List.countP_append

theorem solidCount_of_trivial (h : Trivial gap) : solidCount gap = 0 :=
  List.countP_eq_zero.2 fun t ht => by simp [h t ht]

theorem takeWhile_trivia (hgap : Trivial gap) (ht : t.kind.isTrivia = false) (ts : List Token) :
    (gap ++ t :: ts).takeWhile (·.kind.isTrivia) = gap := by
  rw [List.takeWhile_append_of_pos hgap, List.takeWhile_cons_of_neg (by simp [ht]), List.append_nil]

theorem dropWhile_trivia (hgap : Trivial gap) (ht : t.kind.isTrivia = false) (ts : List Token) :
    (gap ++ t :: ts).dropWhile (·.kind.isTrivia) = t :: ts := by
  rw [List.dropWhile_append_of_pos hgap, List.dropWhile_cons_of_neg (by simp [ht])]

namespace Grammar.Input

theorem ofTokens_trivial (h : Trivial gap) (glued : Bool) : ofTokens glued gap = [] := by
  induction gap generalizing glued with
  | nil => rfl
  | cons t gap ih =>
    obtain ⟨ht, h⟩ := List.forall_mem_cons.1 h
    rw [ofTokens, if_pos ht, ih h]

/-- Where the first input comes from. -/
theorem ofTokens_eq_cons {u : Input} {rest : List Input} (h : ofTokens glued ts = u :: rest) :
    ∃ gap t us, ts = gap ++ t :: us ∧ Trivial gap ∧ t.kind.isTrivia = false ∧ u.kind = t.kind ∧
      u.text = t.text ∧ (u.glued = true → gap = [] ∧ glued = true) ∧ ofTokens true us = rest := by
  induction ts generalizing glued with
  | nil => cases h
  | cons t ts ih =>
    rw [ofTokens] at h
    split at h
    · rename_i ht
      obtain ⟨gap, t', us, rfl, hgap, ht', hk, htext, hglued, hrest⟩ := ih h
      refine ⟨t :: gap, t', us, rfl, List.forall_mem_cons.2 ⟨ht, hgap⟩, ht', hk, htext, ?_, hrest⟩
      exact fun hu => absurd (hglued hu).2 (by simp)
    · rename_i ht
      obtain ⟨rfl, rfl⟩ := List.cons.inj h
      exact ⟨[], t, ts, rfl, by simp [Trivial], Bool.not_eq_true _ ▸ ht, rfl, rfl,
        fun hg => ⟨rfl, hg⟩, rfl⟩

/-- Glued inputs come from tokens that follow one another. -/
theorem ofTokens_eq_append {us rest : List Input} (h : ofTokens glued ts = us ++ rest)
    (hglued : ∀ u ∈ us, u.glued = true) :
    ∃ run vs glued', ts = run ++ vs ∧ run.length = us.length ∧ Solid run ∧
      ofTokens glued' vs = rest := by
  induction us generalizing ts glued with
  | nil => exact ⟨[], ts, glued, rfl, rfl, by simp [Solid], h⟩
  | cons u us ih =>
    obtain ⟨hu, hus⟩ := List.forall_mem_cons.1 hglued
    obtain ⟨gap, t, vs, rfl, -, ht, -, -, hgap, hrest⟩ := ofTokens_eq_cons h
    obtain ⟨rfl, -⟩ := hgap hu
    obtain ⟨run, ws, glued', rfl, hlength, hrun, hws⟩ := ih hrest hus
    exact ⟨t :: run, ws, glued', rfl, congrArg Nat.succ hlength,
      List.forall_mem_cons.2 ⟨ht, hrun⟩, hws⟩

theorem length_ofTokens (glued : Bool) (ts : List Token) :
    (ofTokens glued ts).length = solidCount ts := by
  induction ts generalizing glued with
  | nil => rfl
  | cons t ts ih =>
    rw [ofTokens, solidCount, List.countP_cons, ← solidCount, ← ih true]
    cases t.kind.isTrivia <;> simp [ih]

theorem trivial_of_ofTokens (h : ofTokens glued ts = []) : Trivial ts := by
  induction ts generalizing glued with
  | nil => simp [Trivial]
  | cons t ts ih =>
    rw [ofTokens] at h
    split at h
    · rename_i ht
      exact List.forall_mem_cons.2 ⟨ht, ih h⟩
    · cases h

/-- Blanks and comments only tell whether what follows is glued to what stands in front. -/
theorem ofTokens_append_gap (h : Trivial gap) (hne : gap ≠ []) (glued : Bool) (ts : List Token) :
    ofTokens glued (gap ++ ts) = ofTokens false ts := by
  induction gap generalizing glued with
  | nil => exact absurd rfl hne
  | cons t gap ih =>
    obtain ⟨ht, h⟩ := List.forall_mem_cons.1 h
    rw [List.cons_append, ofTokens, if_pos ht]
    by_cases hnil : gap = []
    · rw [hnil, List.nil_append]
    · exact ih h hnil false

theorem exists_ofTokens_append_gap (h : Trivial gap) (glued : Bool) (ts : List Token) :
    ∃ glued', ofTokens glued (gap ++ ts) = ofTokens glued' ts := by
  by_cases hne : gap = []
  · exact ⟨glued, by rw [hne, List.nil_append]⟩
  · exact ⟨false, ofTokens_append_gap h hne glued ts⟩

/-- The input of tokens that stand one behind the other. -/
theorem exists_ofTokens_append (glued : Bool) (us ts : List Token) :
    ∃ glued', ofTokens glued (us ++ ts) = ofTokens glued us ++ ofTokens glued' ts := by
  induction us generalizing glued with
  | nil => exact ⟨glued, rfl⟩
  | cons u us ih =>
    rw [List.cons_append, ofTokens, ofTokens]
    split
    · exact ih false
    · obtain ⟨glued', h⟩ := ih true
      exact ⟨glued', by rw [h, List.cons_append]⟩

theorem ofTokens_cons (ht : t.kind.isTrivia = false) (glued : Bool) (ts : List Token) :
    ofTokens glued (t :: ts) = ⟨t.kind, t.text, glued⟩ :: ofTokens true ts := by
  rw [ofTokens, if_neg (by simp [ht])]

end Grammar.Input

open Grammar.Input

/-- Leaves that cover the input lie over the tokens it comes from. -/
theorem lays_of_covers (h : Covers ls (ofTokens glued ts)) : Lays ls ts := by
  generalize hin : ofTokens glued ts = input at h
  induction h generalizing ts glued with
  | nil => exact .nil (trivial_of_ofTokens hin)
  | cons hhead hglued _ ih =>
    rw [List.cons_append] at hin
    obtain ⟨gap, t, vs, rfl, hgap, ht, hk, -, -, hrest⟩ := ofTokens_eq_cons hin
    obtain ⟨run, ws, glued', rfl, hlength, hrun, hws⟩ := ofTokens_eq_append hrest hglued
    rw [hk] at hhead
    have h := Lays.cons hgap hhead (List.forall_mem_cons.2 ⟨ht, hrun⟩) (ih hws)
    rw [hlength, List.append_assoc] at h
    exact h

namespace Lays

/-- A leaf with nothing in front of it. -/
theorem first (hhead : Heads t.kind kind) (hrun : Solid (t :: run)) (h : Lays ls ts) :
    Lays ((kind, run.length + 1) :: ls) (t :: run ++ ts) := by
  have hgap : Trivial [] := by simp [Trivial]
  exact .cons hgap hhead hrun h

theorem dropWhile (h : Lays ls ts) : Lays ls (ts.dropWhile (·.kind.isTrivia)) := by
  cases h with
  | nil hgap => exact .nil fun t ht => hgap t ((List.dropWhile_suffix _).mem ht)
  | cons hgap hhead hrun h =>
    rw [List.append_assoc, List.cons_append, dropWhile_trivia hgap (hrun _ (List.mem_cons_self ..))]
    exact h.first hhead hrun

/-- Leaves lie over tokens that are neither blanks nor comments. -/
theorem exists_solid (h : Lays ls ts) (hls : ls ≠ []) :
    ∃ gap t rest, ts = gap ++ t :: rest ∧ Trivial gap ∧ t.kind.isTrivia = false := by
  cases h with
  | nil => exact absurd rfl hls
  | cons hgap _ hrun _ =>
    exact ⟨_, _, _, by rw [List.append_assoc, List.cons_append], hgap, hrun _ (List.mem_cons_self ..)⟩

end Lays

namespace Outline

/-! ## Weaving in front of a cut -/

/-- Behind the outlines there is another leaf, or they end with one. -/
def Closed (os : List Outline) (ls : List (TokenKind × Nat)) : Prop :=
  ls ≠ [] ∨ os = [] ∨ ∃ front last, os = front ++ [last] ∧ EndsInToken last

theorem EndsInToken.leaves_ne {o : Outline} (h : EndsInToken o) : o.leaves ≠ [] := by
  induction h with
  | leaf => simp [leaves]
  | node kind front _ ih => simpa [leaves, leavesAll_append, leavesAll] using fun _ => ih

theorem weaveAll_singleton (o : Outline) (ts : List Token) : weaveAll [o] ts = weave o ts := by
  simp [weaveAll]

theorem weave_leaf (kind : TokenKind) (hgap : Trivial gap) (hk : kind.isTrivia = false)
    (ht : t.kind.isTrivia = false) (run vs : List Token) :
    weave (.leaf kind (run.length + 1)) (gap ++ t :: run ++ vs) =
      (gap.map Tree.ofToken ++ [joined kind (t :: run)], vs) := by
  rw [List.append_assoc, List.cons_append, weave, takeWhile_trivia hgap ht,
    dropWhile_trivia hgap ht, hk]
  simp

/-- What a node makes of the gap in front of it. -/
def gapBefore (kind : NodeKind) (gap : List Token) : List Tree × List Tree :=
  let kept := if kind.keepsComments then attached 0 gap.reverse else 0
  ((gap.take (gap.length - kept)).map Tree.ofToken, (gap.drop (gap.length - kept)).map Tree.ofToken)

theorem widthAll_map_ofToken (ts : List Token) :
    Tree.widthAll (ts.map Tree.ofToken) = (Token.concat ts).length := by
  rw [← Tree.length_textAll, Tree.textAll_map_ofToken]

theorem gapBefore_eq (kind : NodeKind) (gap : List Token) :
    ∃ before own, gap = before ++ own ∧
      gapBefore kind gap = (before.map Tree.ofToken, own.map Tree.ofToken) :=
  ⟨_, _, (List.take_append_drop _ gap).symm, rfl⟩

theorem weave_node (kind : NodeKind) (cs : List Outline) (ts : List Token) :
    weave (.node kind cs) ts =
      ((gapBefore kind (ts.takeWhile (·.kind.isTrivia))).1 ++
        [.node kind ((gapBefore kind (ts.takeWhile (·.kind.isTrivia))).2 ++
          (weaveAll cs (ts.dropWhile (·.kind.isTrivia))).1)],
        (weaveAll cs (ts.dropWhile (·.kind.isTrivia))).2) := by
  rw [weave]
  rfl

/-- A node behind a gap. -/
theorem weave_node_of_solid (kind : NodeKind) (cs : List Outline) (hgap : Trivial gap)
    (ht : t.kind.isTrivia = false) (ts : List Token) :
    weave (.node kind cs) (gap ++ t :: ts) = ((gapBefore kind gap).1 ++
      [.node kind ((gapBefore kind gap).2 ++ (weaveAll cs (t :: ts)).1)],
        (weaveAll cs (t :: ts)).2) := by
  rw [weave_node, takeWhile_trivia hgap ht, dropWhile_trivia hgap ht]

theorem Closed.inside {cs : List Outline} {kind : NodeKind} (h : Closed [.node kind cs] ls) :
    leavesAll cs ++ ls ≠ [] ∧ Closed cs ls := by
  rcases h with hls | hnil | ⟨front, last, hos, hlast⟩
  · exact ⟨List.append_ne_nil_of_right_ne_nil _ hls, .inl hls⟩
  · cases hnil
  · obtain ⟨rfl, rfl⟩ : front = [] ∧ last = .node kind cs := by
      rcases List.append_eq_singleton_iff.1 hos.symm with ⟨rfl, h⟩ | ⟨-, h⟩
      · exact ⟨rfl, (List.cons.inj h).1⟩
      · cases h
    refine ⟨List.append_ne_nil_of_left_ne_nil hlast.leaves_ne _, ?_⟩
    cases hlast with
    | node kind front hlast => exact .inr (.inr ⟨front, _, rfl, hlast⟩)

theorem Closed.tail {o : Outline} {os : List Outline} (h : Closed (o :: os) ls) :
    Closed [o] (leavesAll os ++ ls) ∧ Closed os ls := by
  rcases h with hls | hnil | ⟨front, last, hos, hlast⟩
  · exact ⟨.inl (List.append_ne_nil_of_right_ne_nil _ hls), .inl hls⟩
  · cases hnil
  · rcases front with _ | ⟨o', front⟩
    · obtain ⟨rfl, rfl⟩ := List.cons.inj hos
      exact ⟨.inr (.inr ⟨[], _, rfl, hlast⟩), .inr (.inl rfl)⟩
    · obtain ⟨rfl, htail⟩ := List.cons.inj hos
      obtain rfl : os = front ++ [last] := htail
      refine ⟨.inl (List.append_ne_nil_of_left_ne_nil ?_ _), .inr (.inr ⟨front, _, rfl, hlast⟩)⟩
      rw [leavesAll_append, leavesAll]
      exact List.append_ne_nil_of_right_ne_nil _
        (List.append_ne_nil_of_left_ne_nil hlast.leaves_ne _)

mutual

/-- What is woven in front of a cut does not depend on what is behind it. -/
theorem weave_append (o : Outline) {ls : List (TokenKind × Nat)} {us : List Token}
    (h : Lays (o.leaves ++ ls) us) (hc : Closed [o] ls) :
    ∃ trees rest, Lays ls rest ∧ ∀ vs, weave o (us ++ vs) = (trees, rest ++ vs) := by
  cases o with
  | leaf kind width =>
    cases h with
    | @cons _ gap run ts t _ hgap hhead hrun h =>
      have ht := hrun _ (List.mem_cons_self ..)
      refine ⟨gap.map Tree.ofToken ++ [joined kind (t :: run)], ts, h, fun vs => ?_⟩
      rw [List.append_assoc, weave_leaf kind hgap (hhead.isTrivia ▸ ht) ht]
  | node kind cs =>
    obtain ⟨hne, hc⟩ := hc.inside
    obtain ⟨gap, t, rest, rfl, hgap, ht⟩ := h.exists_solid hne
    have h := h.dropWhile
    rw [dropWhile_trivia hgap ht] at h
    obtain ⟨trees, rest', hrest, hw⟩ := weaveAll_append cs h hc
    refine ⟨(gapBefore kind gap).1 ++ [.node kind ((gapBefore kind gap).2 ++ trees)], rest', hrest,
      fun vs => ?_⟩
    rw [List.append_assoc, List.cons_append, weave_node_of_solid kind cs hgap ht,
      ← List.cons_append, hw]

theorem weaveAll_append (os : List Outline) {ls : List (TokenKind × Nat)} {us : List Token}
    (h : Lays (leavesAll os ++ ls) us) (hc : Closed os ls) :
    ∃ trees rest, Lays ls rest ∧ ∀ vs, weaveAll os (us ++ vs) = (trees, rest ++ vs) := by
  cases os with
  | nil => exact ⟨[], us, h, fun vs => rfl⟩
  | cons o os =>
    rw [leavesAll, List.append_assoc] at h
    obtain ⟨first, rest, hrest, hw⟩ := weave_append o h hc.tail.1
    obtain ⟨more, rest', hrest', hw'⟩ := weaveAll_append os hrest hc.tail.2
    refine ⟨first ++ more, rest', hrest', fun vs => ?_⟩
    rw [weaveAll, hw]
    dsimp only
    rw [hw']

end

end Outline

end Docsmith.Source
