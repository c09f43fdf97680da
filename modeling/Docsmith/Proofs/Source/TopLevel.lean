import Docsmith.Proofs.Source.Gain
import Docsmith.Proofs.Source.Grammar.Uses
import Docsmith.Proofs.Source.Parts
import Docsmith.Proofs.Source.Site

/-!
# The top level of a file

The nodes at the top level of a file are woven of the outlines of its items, and a blank in front
of an item makes no difference to it. So the use of a path is the same node wherever it stands
between items.

* `topNodes_read`: the nodes at the top level are woven of the outlines;
* `nodes_weaveAll_blank`: a blank in front of items;
* `LastUse`, `exists_lastUse`: what stands around the semicolon of a file's last use;
* `IsUseTree`, `IsUseTree.exists_reads`: the use of a path, read in front of anything.
-/

namespace Docsmith.Source

open Grammar (Input IsUse outlineOf)
open Outline Lexer

/-! ## What stands at the top level -/

namespace Tree

/-- The nodes among some trees. -/
def nodes (ts : List Tree) : List Tree := ts.filter (·.kind?.isSome)

theorem nodes_append (ts us : List Tree) : nodes (ts ++ us) = nodes ts ++ nodes us :=
  List.filter_append ts us

theorem nodes_singleton {t : Tree} {k : NodeKind} (h : t.kind? = some k) : nodes [t] = [t] := by
  rw [nodes, List.filter_singleton, h]
  rfl

theorem nodes_map_ofToken (ts : List Token) : nodes (ts.map ofToken) = [] := by
  simp [nodes, kind?, ofToken]

end Tree

/-- The nodes at the top level of a file. -/
def File.topNodes (f : File) : List Tree := Tree.nodes f.tree.children

variable {source path : String} {os : List Outline} {ts gap : List Token} {w : Token}

theorem File.topNodes_read (source : String) : (File.read source).topNodes =
    Tree.nodes (weaveAll (outlineOf (Input.ofTokens false (Token.ofSource source))).1
      (Token.ofSource source)).1 := by
  rw [topNodes, tree_read, Tree.ofOutline]
  exact (Tree.nodes_append _ _).trans (by rw [Tree.nodes_map_ofToken, List.append_nil])

namespace Outline

theorem attached_cons (n : Nat) (t : Token) (ts : List Token) : attached n (t :: ts) =
    if t.kind = .comment then
      if isInnerDoc t.text then 0 else max (n + 1) (attached (n + 1) ts)
    else if attached.hasEmptyLine t.text.toList then
      if ts.head?.any fun c => c.kind = .comment && isOuterDoc c.text then attached (n + 1) ts else 0
    else attached (n + 1) ts := by
  cases ts <;> simp [attached]

/-- A blank that is farther away than all comments does not count. -/
theorem attached_append (hw : w.kind = .whitespace) (n : Nat) (ts : List Token) :
    attached n (ts ++ [w]) = attached n ts := by
  induction ts generalizing n with
  | nil =>
    rw [List.nil_append, attached_cons, if_neg (by simp [hw])]
    simp [attached]
  | cons t ts ih =>
    have hhead : ((ts ++ [w]).head?.any fun c => c.kind = .comment && isOuterDoc c.text) =
        ts.head?.any fun c => c.kind = .comment && isOuterDoc c.text := by
      cases ts <;> simp [hw]
    rw [List.cons_append, attached_cons, attached_cons, ih, hhead]

/-- No more than all blanks and comments belong to a declaration. -/
theorem attached_le (n : Nat) (ts : List Token) : attached n ts ≤ n + ts.length := by
  induction ts generalizing n with
  | nil => simp [attached]
  | cons t ts ih =>
    have h := ih (n + 1)
    rw [attached_cons, List.length_cons]
    split
    · split <;> omega
    · split
      · split <;> omega
      · omega

/-- What a declaration keeps does not depend on a blank in front of all. -/
theorem nodes_weave_blank (hw : w.kind = .whitespace) (kind : NodeKind) (cs : List Outline)
    (ts : List Token) : Tree.nodes (weave (.node kind cs) (w :: ts)).1 =
        Tree.nodes (weave (.node kind cs) ts).1 ∧
      (weave (.node kind cs) (w :: ts)).2 = (weave (.node kind cs) ts).2 := by
  have hwt : w.kind.isTrivia = true := by rw [hw]; rfl
  have htake : (w :: ts).takeWhile (·.kind.isTrivia) = w :: ts.takeWhile (·.kind.isTrivia) :=
    List.takeWhile_cons_of_pos hwt
  have hdrop : (w :: ts).dropWhile (·.kind.isTrivia) = ts.dropWhile (·.kind.isTrivia) :=
    List.dropWhile_cons_of_pos hwt
  rw [weave_node, weave_node, htake, hdrop]
  refine ⟨?_, rfl⟩
  generalize ts.takeWhile (·.kind.isTrivia) = gap
  have hkept : (if kind.keepsComments then attached 0 (w :: gap).reverse else 0) =
      if kind.keepsComments then attached 0 gap.reverse else 0 := by
    rw [List.reverse_cons, attached_append hw]
  have hle : (if kind.keepsComments then attached 0 gap.reverse else 0) ≤ gap.length := by
    have h := attached_le 0 gap.reverse
    rw [List.length_reverse] at h
    split <;> omega
  have hown : (gapBefore kind (w :: gap)).2 = (gapBefore kind gap).2 := by
    simp only [gapBefore, hkept]
    generalize (if kind.keepsComments then attached 0 gap.reverse else 0) = kept at hle
    rw [List.length_cons, Nat.succ_sub hle, List.drop_succ_cons]
  rw [Tree.nodes_append, Tree.nodes_append, hown]
  simp only [gapBefore, Tree.nodes_map_ofToken]

/-- Blanks in front of some nodes make no difference to them. -/
theorem nodes_weaveAll_blank (hw : w.kind = .whitespace) {os : List Outline}
    (h : ∀ o ∈ os, o.kind?.isSome) (ts : List Token) :
    Tree.nodes (weaveAll os (w :: ts)).1 = Tree.nodes (weaveAll os ts).1 := by
  cases os with
  | nil => rfl
  | cons o os =>
    cases o with
    | leaf kind width => exact absurd (h _ (List.mem_cons_self ..)) (by simp [Outline.kind?])
    | node kind cs =>
      obtain ⟨hnodes, hrest⟩ := nodes_weave_blank hw kind cs ts
      rw [weaveAll, weaveAll, Tree.nodes_append, Tree.nodes_append, hnodes, hrest]

/-- The nodes that are woven are those of the outlines. -/
theorem map_kind?_weaveAll (os : List Outline) (ts : List Token) :
    (Tree.nodes (weaveAll os ts).1).map Tree.kind? = (os.map Outline.kind?).filter (·.isSome) := by
  induction os generalizing ts with
  | nil => rfl
  | cons o os ih =>
    rw [weaveAll, Tree.nodes_append, List.map_append, ih, List.map_cons]
    cases o with
    | leaf kind width =>
      have hleaf : Tree.nodes (weave (.leaf kind width) ts).1 = [] := by
        rw [weave]
        split
        · exact Tree.nodes_map_ofToken _
        · rw [Tree.nodes_append, Tree.nodes_map_ofToken]
          rfl
      rw [hleaf]
      rfl
    | node kind cs =>
      rw [weave_node, Tree.nodes_append, gapBefore, Tree.nodes_map_ofToken]
      rfl

theorem exists_kind_weaveAll {k : NodeKind} :
    (∃ b ∈ Tree.nodes (weaveAll os ts).1, b.kind? = some k) ↔ ∃ o ∈ os, o.kind? = some k := by
  rw [← List.mem_map, map_kind?_weaveAll, List.mem_filter, List.mem_map]
  simp

end Outline

/-! ## The last use -/

namespace Grammar.Input

/-- The tokens around one of the inputs. -/
theorem exists_token {glued : Bool} {us back : List Input} {u : Input}
    (h : ofTokens glued ts = us ++ u :: back) : ∃ vs t ws, ts = vs ++ t :: ws ∧
      t.kind.isTrivia = false ∧ t.kind = u.kind ∧ ofTokens glued vs = us ∧ ofTokens true ws = back ∧
        ∀ ws', ofTokens glued (vs ++ t :: ws') = us ++ u :: ofTokens true ws' := by
  induction ts generalizing glued us with
  | nil => simp [ofTokens] at h
  | cons t ts ih =>
    rw [ofTokens] at h
    split at h
    · rename_i ht
      obtain ⟨vs, t', ws, rfl, ht', hk, hvs, hws, hall⟩ := ih h
      refine ⟨t :: vs, t', ws, rfl, ht', hk, ?_, hws, fun ws' => ?_⟩
      · rw [ofTokens, if_pos ht, hvs]
      · rw [List.cons_append, ofTokens, if_pos ht, hall]
    · rename_i ht
      cases us with
      | nil =>
        obtain ⟨rfl, rfl⟩ := List.cons.inj h
        refine ⟨[], t, ts, rfl, by simpa using ht, rfl, rfl, rfl, fun ws' => ?_⟩
        rw [List.nil_append, ofTokens, if_neg ht, List.nil_append]
      | cons w us =>
        rw [List.cons_append] at h
        obtain ⟨rfl, hrest⟩ := List.cons.inj h
        obtain ⟨vs, t', ws, rfl, ht', hk, hvs, hws, hall⟩ := ih hrest
        refine ⟨t :: vs, t', ws, rfl, ht', hk, ?_, hws, fun ws' => ?_⟩
        · rw [ofTokens, if_neg ht, hvs]
        · rw [List.cons_append, ofTokens, if_neg ht, hall, List.cons_append]

/-- What stands behind a token is read on its own. -/
theorem ofTokens_behind {t : Token} (ht : t.kind.isTrivia = false) (glued : Bool)
    (vs ws : List Token) :
    ofTokens glued (vs ++ t :: ws) = ofTokens glued (vs ++ [t]) ++ ofTokens true ws := by
  induction vs generalizing glued with
  | nil => rw [List.nil_append, List.nil_append, ofTokens_cons ht, ofTokens_cons ht]; rfl
  | cons v vs ih =>
    rw [List.cons_append, List.cons_append, ofTokens, ofTokens]
    split
    · exact ih false
    · rw [ih true, List.cons_append]

end Grammar.Input

/-- Nodes of which the last ends in a token are woven of all tokens up to it. -/
theorem Outline.weaveAll_up_to {A : List Outline} {U : Outline} {k : NodeKind} {t : Token}
    (h : Lays (leavesAll (A ++ [U])) (ts ++ [t])) (ht : t.kind.isTrivia = false)
    (hU : U.EndsInToken) (hk : U.kind? = some k) : ∃ front last, last.kind? = some k ∧
      ∀ us, weaveAll (A ++ [U]) (ts ++ t :: us) = (front ++ [last], us) := by
  obtain ⟨trees, rest, hrest, hweave⟩ := weaveAll_append (A ++ [U])
    (show Lays (leavesAll (A ++ [U]) ++ []) (ts ++ [t]) by rwa [List.append_nil])
    (.inr (.inr ⟨A, U, rfl, hU⟩))
  have hsuffix := weaveAll_suffix (A ++ [U]) (ts ++ [t] ++ [])
  rw [hweave, List.append_nil, List.append_nil, List.suffix_concat_iff] at hsuffix
  obtain rfl : rest = [] := by
    rcases hsuffix with rfl | ⟨us, rfl, -⟩
    · rfl
    · cases hrest with
      | nil hgap =>
        rw [hgap t (by simp)] at ht
        cases ht
  have hlast := hweave []
  rw [weaveAll_cat, weaveAll_singleton] at hlast
  obtain ⟨htrees, -⟩ := Prod.mk.inj hlast
  cases U with
  | leaf => cases hk
  | node kind cs =>
    obtain rfl : kind = k := Option.some.inj hk
    rw [weave_node, ← List.append_assoc] at htrees
    obtain ⟨front, inside, rfl⟩ : ∃ front inside, trees = front ++ [.node kind inside] :=
      ⟨_, _, htrees.symm⟩
    exact ⟨front, .node kind inside, rfl, fun us => by simpa using hweave us⟩

theorem exists_last_of_mem {α : Type} {p : α → Bool} {l : List α} (h : ∃ a ∈ l, p a = true) :
    ∃ front a back, l = front ++ a :: back ∧ p a = true ∧ ∀ b ∈ back, p b = false := by
  obtain ⟨a, ha, hp⟩ := h
  obtain ⟨b, hb⟩ := Option.isSome_iff_exists.1
    (List.find?_isSome.2 ⟨a, List.mem_reverse.2 ha, hp⟩)
  obtain ⟨hpb, back, front, hl, hback⟩ := List.find?_eq_some_iff_append.1 hb
  refine ⟨front.reverse, b, back.reverse, ?_, hpb, fun c hc => ?_⟩
  · rw [← List.reverse_reverse l, hl]
    simp
  · simpa using hback c (List.mem_reverse.1 hc)

namespace File

theorem mem_topNodes_of_mem_imports {f : File} {l : Located} (h : l ∈ f.imports) :
    l.tree ∈ f.topNodes ∧ l.tree.kind? = some .useItem := by
  obtain ⟨hmem, hk⟩ := List.mem_filter.1 h
  rw [Located.is, Located.kind?_eq, decide_eq_true_eq] at hk
  have htree := List.mem_map_of_mem (f := (·.tree)) hmem
  rw [Located.map_tree_children] at htree
  exact ⟨List.mem_filter.2 ⟨htree, by rw [hk]; rfl⟩, hk⟩

theorem childrenOf_eq_nil_iff {f : File} {k : NodeKind} :
    f.root.childrenOf k = [] ↔ ∀ t ∈ f.topNodes, t.kind? ≠ some k := by
  rw [Located.childrenOf, List.filter_eq_nil_iff, topNodes,
    ← show f.root.children.map (·.tree) = f.tree.children from Located.map_tree_children f.root]
  refine ⟨fun h t ht hk => ?_, fun h c hc hk => ?_⟩
  · obtain ⟨c, hc, rfl⟩ := List.mem_map.1 (List.mem_filter.1 ht).1
    exact h c hc (by rw [Located.is, Located.kind?_eq, hk, decide_eq_true rfl])
  · rw [Located.is, Located.kind?_eq, decide_eq_true_eq] at hk
    exact h c.tree (List.mem_filter.2 ⟨List.mem_map_of_mem hc, by rw [hk]; rfl⟩) hk

/-- Where the last use of a file stands. -/
theorem last_use {f : File} {front back : List Tree} {tree : Tree} {last : Located}
    (h : f.tree.children = front ++ tree :: back) (htree : tree.kind? = some .useItem)
    (hback : ∀ t ∈ back, t.kind? ≠ some .useItem) (hlast : f.imports.getLast? = some last) :
    last = ⟨Tree.widthAll front, tree⟩ := by
  have hchildren : f.root.children = Located.locate 0 (front ++ tree :: back) := by
    rw [root, Located.children, ← h]
    cases f.tree <;> rfl
  have hnone : (Located.locate (0 + Tree.widthAll front + tree.width) back).filter
      (Located.is .useItem) = [] := by
    refine List.filter_eq_nil_iff.2 fun c hc => ?_
    have hmem := List.mem_map_of_mem (f := (·.tree)) hc
    rw [Located.map_tree_locate] at hmem
    rw [Located.is, Located.kind?_eq, decide_eq_true_eq]
    exact hback _ hmem
  have htree' : Located.is .useItem ⟨0 + Tree.widthAll front, tree⟩ = true := by
    rw [Located.is, Located.kind?_eq, decide_eq_true_eq]
    exact htree
  rw [imports, Located.childrenOf, hchildren, Located.locate_append, Located.locate,
    List.filter_append, List.filter_cons_of_pos htree', hnone, List.getLast?_concat] at hlast
  rw [← Option.some.inj hlast, Nat.zero_add]

end File

theorem halts_semicolon (cs : List Char) : Halts (';' :: cs) :=
  halts_cons (by decide) cs

theorem lex_semicolon (cs : List Char) :
    Token.lex (';' :: cs) = ⟨.semi, ";", true⟩ :: Token.lex cs :=
  Token.lex_sign ';' .semi rfl (by decide) (by decide +kernel) rfl cs

/-- The tokens and nodes around the semicolon of the last use of a file. -/
structure LastUse (source : String) (vs ws : List Token) (A B : List Outline) (U : Outline)
    (front : List Tree) (tree : Tree) : Prop where
  tokens : Token.ofSource source = vs ++ ⟨.semi, ";", true⟩ :: ws
  keyword : ∃ v ∈ vs, v.kind = .useKw
  outline : outlineOf (Input.ofTokens false (Token.ofSource source)) = (A ++ U :: B, [])
  isNode : ∀ o ∈ B, o.kind?.isSome
  kind : tree.kind? = some .useItem
  last : ∀ b ∈ (weaveAll B ws).1, b.kind? ≠ some .useItem
  weave (us : List Token) :
    weaveAll (A ++ [U]) (vs ++ ⟨.semi, ";", true⟩ :: us) = (front ++ [tree], us)
  /-- Uses that are put behind it are read, and all else as before. -/
  insert {uses : List (List Input × Outline)} (huses : ∀ p ∈ uses, IsUse p.1 p.2) {ns : List Token}
    (hns : Input.ofTokens true ns = uses.flatMap (·.1) ++ Input.ofTokens true ws) :
    outlineOf (Input.ofTokens false (vs ++ ⟨.semi, ";", true⟩ :: ns)) =
      (A ++ U :: (uses.map (·.2) ++ B), [])

theorem exists_lastUse (hw : File.WellFormed source) {l : Located}
    (hl : l ∈ (File.read source).imports) :
    ∃ vs ws A B U front tree, LastUse source vs ws A B U front tree := by
  have hfaults := (File.wellFormed_iff.1 hw).2
  generalize hos : outlineOf (Input.ofTokens false (Token.ofSource source)) = r at hfaults
  obtain ⟨os, faults⟩ := r
  obtain rfl : faults = [] := hfaults
  have huse : ∃ o ∈ os, decide (o.kind? = some .useItem) = true := by
    obtain ⟨hnode, hkind⟩ := File.mem_topNodes_of_mem_imports hl
    rw [File.topNodes_read, hos] at hnode
    simpa using exists_kind_weaveAll.1 ⟨_, hnode, hkind⟩
  obtain ⟨A, U, B, rfl, hU, hB⟩ := exists_last_of_mem huse
  replace hU := of_decide_eq_true hU
  obtain ⟨hends, hnodes, us, u, back, hin, hu, ⟨v, hv, hvk⟩, hcovers, hall⟩ :=
    Grammar.outlineOf_behind_use hos hU
  obtain ⟨vs, t, ws, htokens, ht, htk, rfl, rfl, hall'⟩ := Input.exists_token hin
  obtain rfl : t = ⟨.semi, ";", true⟩ := by
    have hclose := Token.eq_closer_of_mem_ofSource (t := t) (by rw [htokens]; simp)
      (show (t.kind, ';') ∈ TokenKind.closers by rw [htk, hu]; decide)
    rwa [htk, hu] at hclose
  have hlays : Lays (leavesAll (A ++ [U])) (vs ++ [⟨.semi, ";", true⟩]) := by
    have hin' := hall' []
    rw [show Input.ofTokens true [] = [] from rfl] at hin'
    rw [← hin'] at hcovers
    exact lays_of_covers hcovers
  obtain ⟨front, tree, hkind, hweave⟩ := weaveAll_up_to hlays ht hends hU
  refine ⟨vs, ws, A, B, U, front, tree, htokens, ?_, hos, hnodes, hkind, fun b hb hk => ?_, hweave,
    fun huses ns hns => by rw [hall', hns]; exact hall _ huses⟩
  · obtain ⟨us₁, us₂, hus⟩ := List.append_of_mem hv
    obtain ⟨vs₁, x, vs₂, rfl, -, hxk, -⟩ := Input.exists_token hus
    exact ⟨x, by simp, hxk.trans hvk⟩
  · obtain ⟨o, ho, hko⟩ := exists_kind_weaveAll.1
      ⟨b, List.mem_filter.2 ⟨hb, by rw [hk]; rfl⟩, hk⟩
    simpa [hko] using hB o ho

namespace LastUse

variable {vs ws : List Token} {A B : List Outline} {U : Outline} {front : List Tree}
  (h : LastUse source vs ws A B U front tree)
include h

theorem children : (File.read source).tree.children =
    front ++ tree :: ((weaveAll B ws).1 ++ (weaveAll B ws).2.map Tree.ofToken) := by
  rw [File.tree_read, Tree.ofOutline, h.outline, h.tokens, List.append_cons A, weaveAll_cat,
    h.weave]
  simp [Tree.children]

theorem stop {last : Located} (hlast : (File.read source).imports.getLast? = some last) :
    last.stop = (Token.concat vs).length + 1 := by
  have hnone : ∀ b ∈ (weaveAll B ws).1 ++ (weaveAll B ws).2.map Tree.ofToken,
      b.kind? ≠ some .useItem :=
    List.forall_mem_append.2 ⟨h.last, List.forall_mem_map.2 fun x _ => nofun⟩
  have htext := weaveAll_text (A ++ [U]) (vs ++ [⟨.semi, ";", true⟩])
  rw [h.weave, show Token.concat [] = [] from rfl, List.append_nil, Token.concat_append] at htext
  have hwidth := Tree.length_textAll (front ++ [tree])
  rw [htext, Tree.widthAll_append, List.length_append] at hwidth
  rw [File.last_use h.children h.kind hnone hlast, Located.stop]
  exact hwidth.symm

theorem toList : source.toList = Token.concat vs ++ ';' :: Token.concat ws := by
  rw [← Token.concat_ofSource, h.tokens, Token.concat_append]
  rfl

/-- Behind the preamble there is the keyword of the use. -/
theorem exists_preamble {p : Preamble} (hp : Preamble.ofChars? source.toList = some p) :
    ∃ A, vs = Token.preamble p source.toList ++ A ∧ ∃ t ∈ A, t.kind ≠ .whitespace := by
  obtain ⟨v, hv, hvk⟩ := h.keyword
  obtain ⟨A, hA, hvA⟩ := Token.exists_behind_preamble hp h.tokens hv (by rw [hvk]; decide)
  exact ⟨A, hA, v, hvA, by rw [hvk]; nofun⟩

/-- The tokens when something is put behind the use. -/
theorem ofSource (hw : File.WellFormed source) {p : Preamble}
    (hp : Preamble.ofChars? source.toList = some p) {cs : List Char}
    (hnew : new.toList = Token.concat vs ++ ';' :: (cs ++ Token.concat ws)) :
    Token.ofSource new = vs ++ ⟨.semi, ";", true⟩ :: Token.lex (cs ++ Token.concat ws) ∧
      ws = Token.lex (Token.concat ws) := by
  obtain ⟨X, rfl, hX⟩ := h.exists_preamble hp
  have hsound : ∀ x ∈ X, x.sound = true := fun x hx =>
    (File.wellFormed_iff.1 hw).1 x (by rw [h.tokens]; simp [hx])
  have hlast (x : Token) (_ : x ∈ X.getLast?) : Parts x (';' :: Token.concat ws)
      (';' :: (cs ++ Token.concat ws)) :=
    ⟨fun _ => .inr rfl, fun _ => by rintro c ⟨⟩; rfl⟩
  have hopens (us : List Char) : Preamble.OpensNone (';' :: us) :=
    Preamble.opensNone_blanks (w := []) (by simp) (by decide) (by decide) us
  obtain ⟨-, hlex, hws⟩ := Token.ofSource_append h.toList hnew (halts_semicolon _)
    (halts_semicolon _) (hopens _) (hopens _) (by simp) hp h.tokens rfl hsound hX hlast
  rw [lex_semicolon] at hlex hws
  exact ⟨hlex, (List.cons.inj hws).2⟩

end LastUse

/-! ## Uses as texts -/

/-- The use of a path. -/
def useText (path : String) : String := s!"use {path};"

/-- The path is read as a use tree: a file that holds nothing but its use is read without a fault,
as this one item. -/
def IsUseTree (path : String) : Prop :=
  File.WellFormed (useText path) ∧
    (File.read (useText path)).tree.children.map Tree.kind? = [some .useItem] ∧
    (File.read (useText path)).importTrees = [path]

instance (path : String) : Decidable (IsUseTree path) := inferInstanceAs (Decidable (_ ∧ _ ∧ _))

/-- The tree of a use. -/
def Tree.importTree? (t : Tree) : Option String :=
  if t.kind? = some .useItem then (t.child? .useTree).map fun c => String.ofList c.text else none

theorem File.importTrees_eq (f : File) : f.importTrees = f.topNodes.filterMap Tree.importTree? := by
  have htree (u : Located) : (if u.is .useItem = true then (u.child? .useTree).map Located.text
      else none) = u.tree.importTree? := by
    have hchild : (u.child? .useTree).map Located.text =
        ((u.child? .useTree).map (·.tree)).map fun c => String.ofList c.text := by
      cases u.child? .useTree <;> rfl
    rw [Tree.importTree?, hchild, Located.map_tree_child?, Located.is, Located.kind?_eq]
    simp only [decide_eq_true_eq]
  have hnode (t : Tree) : (if t.kind?.isSome = true then t.importTree? else none) =
      t.importTree? := by
    rw [Tree.importTree?]
    cases t.kind? <;> simp
  rw [importTrees, imports, Located.childrenOf, List.filterMap_filter, topNodes, Tree.nodes,
    List.filterMap_filter]
  simp only [htree, hnode]
  rw [← show f.root.children.map (·.tree) = f.tree.children from Located.map_tree_children f.root,
    List.filterMap_map]
  rfl

theorem toList_useText (path : String) :
    (useText path).toList = "use".toList ++ (' ' :: path.toList ++ [';']) := by
  simp [useText, String.toList_append, ToString.toString]

theorem ofChars?_useText (path : String) (cs : List Char) :
    Preamble.ofChars? ((useText path).toList ++ cs) = some ⟨0, 0⟩ := by
  rw [toList_useText]
  rfl

theorem ofSource_of_plain (h : Preamble.ofChars? source.toList = some ⟨0, 0⟩) :
    Token.ofSource source = Token.lex source.toList := by
  rw [Token.ofSource_eq h]
  rfl

/-- The tokens of a use. -/
def useTokens (path : String) : List Token := Token.lex (useText path).toList

theorem useTokens_eq_cons (path : String) :
    ∃ ts, useTokens path = ⟨.useKw, "use", true⟩ :: ts := by
  rw [useTokens, toList_useText, Token.lex_word "use" .useKw ' ' (by decide +kernel) (by decide) _ rfl]
  · exact ⟨_, rfl⟩
  · rintro c ⟨⟩
    decide

/-- How a use is read. -/
structure ReadsUse (path : String) (o : Outline) (tree : Tree) : Prop where
  isUse : IsUse (Input.ofTokens false (useTokens path)) o
  sound : ∀ t ∈ useTokens path, t.sound = true
  importTree : tree.importTree? = some path
  lex (cs : List Char) : Token.lex ((useText path).toList ++ cs) = useTokens path ++ Token.lex cs
  ofTokens (ts : List Token) : Input.ofTokens false (useTokens path ++ ts) =
    Input.ofTokens false (useTokens path) ++ Input.ofTokens true ts
  weave (ts : List Token) : weaveAll [o] (useTokens path ++ ts) = ([tree], ts)

theorem ofSource_useText (path : String) : Token.ofSource (useText path) = useTokens path :=
  ofSource_of_plain (by simpa using ofChars?_useText path [])

namespace IsUseTree

/-- A file with the use of a path alone. -/
theorem exists_lastUse (h : IsUseTree path) : ∃ vs o tree,
    LastUse (useText path) vs [] [] [] o [] tree ∧
      IsUse (Input.ofTokens false (useTokens path)) o := by
  obtain ⟨hw, hchildren, htree⟩ := h
  have himports : (File.read (useText path)).imports ≠ [] := by
    intro hnil
    rw [File.importTrees, hnil] at htree
    cases htree
  obtain ⟨l, hl⟩ := List.exists_mem_of_ne_nil _ himports
  obtain ⟨vs, ws, A, B, o, front, tree, hlast⟩ := Source.exists_lastUse hw hl
  have hkinds := map_kind?_weaveAll (A ++ o :: B) (useTokens path)
  have hnodes := File.topNodes_read (useText path)
  have houtline := hlast.outline
  rw [ofSource_useText] at hnodes houtline
  rw [houtline] at hnodes
  -- a use comes first, so all outlines are of items
  obtain ⟨ts, hts⟩ := useTokens_eq_cons path
  have hfirst : Input.ofTokens false (useTokens path) =
      ⟨.useKw, "use", false⟩ :: Input.ofTokens true ts := by
    rw [hts, Input.ofTokens_cons rfl]
  have hitems := (Grammar.items_of_use (hfirst ▸ houtline) rfl).isNode
  -- and the file has one child
  obtain ⟨child, hone, hk⟩ := List.map_eq_singleton_iff.1 hchildren
  rw [← hnodes, File.topNodes, hone, Tree.nodes_singleton hk,
    List.filter_eq_self.2 (List.forall_mem_map.2 hitems), List.map_singleton, hk, List.map_append,
    List.map_cons, eq_comm, List.append_eq_singleton_iff] at hkinds
  obtain ⟨rfl, ho, rfl⟩ : A = [] ∧ o.kind? = some .useItem ∧ B = [] := by simpa using hkinds
  have hall := hlast.children.symm.trans hone
  rw [weaveAll, List.nil_append] at hall
  obtain ⟨rfl, rfl, rfl⟩ : front = [] ∧ tree = child ∧ ws = [] := by
    simpa [List.append_eq_singleton_iff] using hall
  exact ⟨vs, o, tree, hlast, ⟨_, _, hfirst, rfl⟩, ho, houtline⟩

theorem exists_reads (h : IsUseTree path) : ∃ o tree, ReadsUse path o tree := by
  obtain ⟨vs, o, tree, hlast, hisUse⟩ := h.exists_lastUse
  obtain ⟨hsound, -⟩ := File.wellFormed_iff.1 h.1
  have htokens := hlast.tokens
  rw [ofSource_useText] at hsound htokens
  refine ⟨o, tree, hisUse, hsound, ?_, fun cs => ?_, fun zs => ?_, fun zs => ?_⟩
  · have htree := h.2.2
    rw [File.importTrees_eq, File.topNodes, hlast.children, List.nil_append, weaveAll, List.map_nil,
      List.append_nil, Tree.nodes_singleton hlast.kind, List.filterMap_cons] at htree
    split at htree
    · cases htree
    · rename_i hpath
      rw [hpath, (List.cons.inj htree).1]
  · have htext : (useText path).toList = Token.concat vs ++ [';'] := hlast.toList
    have hold : Token.lex (Token.concat vs ++ [';']) = vs ++ [⟨.semi, ";", true⟩] := by
      rw [← htext, ← useTokens, htokens]
    have hparts (v : Token) (hv : v ∈ vs.getLast?) : Parts v [';'] (';' :: cs) :=
      ⟨fun _ => .inr rfl, fun _ => by rintro c ⟨⟩; rfl⟩
    obtain ⟨hlex, -⟩ := Token.lex_append (halts_semicolon []) (halts_semicolon cs) (by simp) hold
      rfl (fun v hv => hsound v (by rw [htokens]; exact List.mem_append_left _ hv)) hparts
    rw [htext, List.append_assoc, List.singleton_append, hlex, lex_semicolon, htokens,
      List.append_assoc, List.singleton_append]
  · rw [htokens, List.append_assoc, List.singleton_append]
    exact Input.ofTokens_behind rfl false vs zs
  · rw [htokens, List.append_assoc, List.singleton_append]
    exact hlast.weave zs

end IsUseTree

end Docsmith.Source
