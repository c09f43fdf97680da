import Docsmith.Proofs.Source.Grammar.Names
import Docsmith.Proofs.Source.Identifiers
import Docsmith.Proofs.Source.Parts
import Docsmith.Proofs.Source.Site

/-!
# The names in a file

In a file that is read without a fault every name is an identifier: it holds one token, which is one
by itself.

* `Outline.namesFrom_weave`: the names in woven trees, by induction on the outline;
* `File.isIdentifier_of_name?`: what is declared in a file has an identifier for a name.
-/

namespace Docsmith.Source

/-- Every name among the parts of some trees holds one of the tokens, which is an identifier. -/
def NamesFrom (ts : List Token) (trees : List Tree) : Prop :=
  ∀ x ∈ Tree.partsAll trees, x.kind? = some .name →
    ∃ t ∈ ts, t.kind = .ident ∧ x = .node .name [.ofToken t]

variable {ts us : List Token} {trees more : List Tree} {ls : List (TokenKind × Nat)}

namespace NamesFrom

theorem of_tokens (h : Tree.partsAll trees = []) : NamesFrom ts trees := by
  intro x hx
  rw [h] at hx
  cases hx

theorem mono (h : NamesFrom ts trees) (hts : ∀ t ∈ ts, t ∈ us) : NamesFrom us trees := by
  intro x hx hk
  obtain ⟨t, ht, hname⟩ := h x hx hk
  exact ⟨t, hts t ht, hname⟩

theorem append (h : NamesFrom ts trees) (h' : NamesFrom ts more) : NamesFrom ts (trees ++ more) := by
  intro x hx
  rw [Tree.partsAll_append, List.mem_append] at hx
  exact hx.elim (h x) (h' x)

theorem map_ofToken (gap : List Token) : NamesFrom ts (gap.map Tree.ofToken) :=
  .of_tokens (Tree.partsAll_map_ofToken gap)

/-- A node of one of the tokens, if it is a name, and of trees that hold such names. -/
theorem node {kind : NodeKind} (h : NamesFrom ts trees)
    (hname : kind = .name → ∃ t ∈ ts, t.kind = .ident ∧ trees = [.ofToken t]) :
    NamesFrom ts [.node kind trees] := by
  intro x hx hk
  rw [Tree.partsAll, Tree.partsAll, List.append_nil] at hx
  rcases List.mem_cons.1 hx with rfl | hx
  · obtain rfl : kind = .name := Option.some.inj hk
    obtain ⟨t, ht, hident, rfl⟩ := hname rfl
    exact ⟨t, ht, hident, rfl⟩
  · exact h x hx hk

end NamesFrom

namespace Outline

/-- What is woven of one identifier is the first token that is neither blank nor comment. -/
theorem weaveAll_ident (h : Lays ((.ident, 1) :: ls) ts) : ∃ t ∈ ts, t.kind = .ident ∧
    (weaveAll [.leaf .ident 1] (ts.dropWhile (·.kind.isTrivia))).1 = [.ofToken t] := by
  generalize hwidth : (1 : Nat) = width at h
  cases h with
  | @cons _ gap run us t _ hgap hhead hrun _ =>
    have ht := hrun t (List.mem_cons_self ..)
    have hkind : t.kind = .ident := hhead.elim id fun h => (Option.some.inj h).symm
    obtain rfl : run = [] := List.eq_nil_of_length_eq_zero (by omega)
    refine ⟨t, by simp, hkind, ?_⟩
    have hnone : Trivial [] := fun _ h => nomatch h
    have hweave := weave_leaf .ident hnone rfl ht [] us
    rw [List.append_assoc, List.cons_append, dropWhile_trivia hgap ht, weaveAll_singleton]
    refine (congrArg Prod.fst hweave).trans ?_
    simp [joined, Tree.ofToken, Token.concat, hkind]

mutual

/-- The names in woven trees hold tokens they are woven of. -/
theorem namesFrom_weave (o : Outline) {ls : List (TokenKind × Nat)} {ts : List Token}
    (hnamed : o.Named) (h : Lays (o.leaves ++ ls) ts) : NamesFrom ts (weave o ts).1 := by
  cases hnamed with
  | leaf kind width =>
    cases h with
    | @cons _ gap run us t _ hgap hhead hrun _ =>
      have ht := hrun t (List.mem_cons_self ..)
      rw [weave_leaf kind hgap (hhead.isTrivia ▸ ht) ht]
      exact .append (.map_ofToken gap) (.of_tokens rfl)
  | @node kind cs hname hcs =>
    obtain ⟨before, own, -, hgap⟩ := gapBefore_eq kind (ts.takeWhile (·.kind.isTrivia))
    have hinside := (namesFrom_weaveAll cs hcs h.dropWhile).mono fun t ht =>
      (List.dropWhile_suffix _).mem ht
    rw [weave_node, hgap]
    refine .append (.map_ofToken before) (.node (.append (.map_ofToken own) hinside) ?_)
    rintro rfl
    obtain rfl := hname rfl
    obtain ⟨t, ht, hident, hwoven⟩ := weaveAll_ident h
    obtain rfl : own = [] := by
      rw [gapBefore, if_neg (by decide), Nat.sub_zero, List.drop_length, Prod.mk.injEq] at hgap
      exact List.map_eq_nil_iff.1 hgap.2.symm
    exact ⟨t, ht, hident, hwoven⟩

theorem namesFrom_weaveAll (os : List Outline) {ls : List (TokenKind × Nat)} {ts : List Token}
    (hnamed : NamedAll os) (h : Lays (leavesAll os ++ ls) ts) : NamesFrom ts (weaveAll os ts).1 := by
  cases os with
  | nil => exact .of_tokens rfl
  | cons o os =>
    obtain ⟨ho, hos⟩ := List.forall_mem_cons.1 hnamed
    rw [leavesAll, List.append_assoc] at h
    obtain ⟨taken, htaken, hrest, -⟩ := seats_weave none o 0 h
    have hmem : ∀ t ∈ (weave o ts).2, t ∈ ts := fun t ht => by
      rw [htaken]
      exact List.mem_append_right _ ht
    rw [weaveAll]
    exact (namesFrom_weave o ho h).append ((namesFrom_weaveAll os hos hrest).mono hmem)

end

end Outline

namespace File

variable {source : String}

/-- A name in a file without a fault is a token that is an identifier. -/
theorem isIdentifier_of_mem_parts (hw : WellFormed source) {x : Tree}
    (hx : x ∈ (read source).tree.parts) (hk : x.kind? = some .name) :
    Token.IsIdentifier (String.ofList x.text) := by
  obtain ⟨hsound, hclean⟩ := wellFormed_iff.1 hw
  have hlays := lays_ofSource hw
  have hnamed := Grammar.named_outlineOf hclean
  rw [tree_read] at hx
  generalize (Grammar.outlineOf (Grammar.Input.ofTokens false (Token.ofSource source))).1 = os
    at hlays hnamed hx
  rw [← List.append_nil (Outline.leavesAll os)] at hlays
  have hnames := (Outline.namesFrom_weaveAll os hnamed hlays).append
    (.map_ofToken (Outline.weaveAll os (Token.ofSource source)).2)
  rw [Tree.ofOutline, Tree.parts] at hx
  rcases List.mem_cons.1 hx with rfl | hx
  · cases hk
  · obtain ⟨t, ht, hident, rfl⟩ := hnames x hx hk
    have htext : String.ofList (Tree.node .name [.ofToken t]).text = t.text := by
      simp [Tree.text, Tree.textAll, Tree.ofToken]
    rw [htext]
    exact Token.isIdentifier_of_mem_ofSource ht hident (hsound t ht)

/-- What is declared in a file without a fault has an identifier for a name. -/
theorem isIdentifier_of_name? (hw : WellFormed source) {l : Located} {name : String}
    (hl : l ∈ (read source).nodes) (h : l.name? = some name) : Token.IsIdentifier name := by
  rw [Located.name?_eq] at h
  obtain ⟨x, hx, rfl⟩ := Option.map_eq_some_iff.1 h
  have hmem : l.tree ∈ (read source).tree.parts := by
    rw [← Tree.map_tree_nodesFrom 0, ← nodes_eq]
    exact List.mem_map_of_mem hl
  have hk : x.kind? = some .name := by simpa using List.find?_some hx
  exact isIdentifier_of_mem_parts hw (Tree.mem_parts_of_child? hx hmem) hk

end File

end Docsmith.Source
