import Docsmith.Proofs.Source.Gain
import Docsmith.Proofs.Source.Preamble
import Docsmith.Proofs.Source.Rewriting
import Docsmith.Proofs.Source.Seats
import Docsmith.Proofs.Source.Swapping
import Mathlib.Data.List.Induction
import Mathlib.Data.List.Nodup

/-!
# The place of a closing brace

The brace that closes a list of associated items is a leaf of the tree and a token of the source. A
block that goes in front of it goes between blanks.

* `exists_site`: the tokens around such a brace;
* `Site.exists_preamble`: it does not stand first in the file;
* `Site.apply_insertBlock`: the text once a block has been put there.
-/

namespace Docsmith.Source

open Grammar (Heads Input MarkOrNone outlineOf covers_outlineOf)
open Outline (holdersAll)

variable {source : String} {a : Leaf} {front behind : List Token}

/-! ## Files without a fault -/

namespace File

instance : Decidable (WellFormed source) := inferInstanceAs (Decidable ((read source).faults = []))

theorem nodes_eq (f : File) : f.nodes = f.tree.nodesFrom 0 := rfl

theorem wellFormed_iff : WellFormed source ↔ (∀ t ∈ Token.ofSource source, t.sound = true) ∧
    (outlineOf (Input.ofTokens false (Token.ofSource source))).2 = [] := by
  rw [WellFormed, read]
  simp

end File

namespace Token

theorem exists_ofTokens_block {kind : TokenKind} (hk : kind.isTrivia = false) (n : Nat)
    (cs : List Char) (glued : Bool) (ts : List Token) : ∃ mark glued', MarkOrNone kind mark ∧
      Input.ofTokens glued (block kind n cs ++ ts) = mark ++ Input.ofTokens glued' ts := by
  rw [block]
  split
  · exact ⟨[], glued, .inl rfl, rfl⟩
  · refine ⟨[⟨kind, String.ofList (cs.take n), glued⟩], true, .inr ⟨_, rfl, rfl⟩, ?_⟩
    rw [List.singleton_append, Input.ofTokens_cons hk]
    rfl

variable {p : Preamble} {A B : List Token} {brace : Token}

/-- A closing brace is not the first token behind the preamble. -/
theorem exists_solid_of_brace (hw : File.WellFormed source)
    (h : ofSource source = preamble p source.toList ++ A ++ brace :: B)
    (hb : brace.kind = .rCurly) : ∃ t ∈ A, t.kind.isTrivia = false := by
  by_contra hno
  have hA : Trivial A := fun t ht => by_contra fun hk => hno ⟨t, ht, by simpa using hk⟩
  have hfaults := (File.wellFormed_iff.1 hw).2
  have hshebang : TokenKind.shebang.isTrivia = false := rfl
  have hfrontmatter : TokenKind.frontmatter.isTrivia = false := rfl
  obtain ⟨line, glued, hline, h₁⟩ := exists_ofTokens_block hshebang p.interpreter
    source.toList false (block .frontmatter p.metadata (source.toList.drop p.interpreter) ++
      (A ++ brace :: B))
  obtain ⟨mark, glued', hmark, h₂⟩ := exists_ofTokens_block hfrontmatter p.metadata
    (source.toList.drop p.interpreter) glued (A ++ brace :: B)
  obtain ⟨glued'', h₃⟩ := Input.exists_ofTokens_append glued' A (brace :: B)
  rw [Input.ofTokens_trivial hA, List.nil_append, Input.ofTokens_cons (by rw [hb]; rfl)] at h₃
  rw [h, preamble, List.append_assoc, List.append_assoc, h₁, h₂, h₃, ← List.append_assoc] at hfaults
  exact Grammar.faults_of_brace_first hline hmark hb hfaults

end Token

/-! ## The place of a token -/

/-- The tokens around a leaf that sits directly in a node. -/
structure Spot (source : String) (holder : Option NodeKind) (a : Leaf) (front : List Token)
    (t : Token) (behind : List Token) : Prop where
  tokens : Token.ofSource source = front ++ t :: behind
  start : a.start = (Token.concat front).length
  heads : Heads t.kind a.kind
  holder : (holdersAll none (outlineOf (Input.ofTokens false (Token.ofSource source))).1)[
    solidCount front]? = some holder
  /-- The tokens of the leaf in front. -/
  previous : ∀ g, (File.read source).previous? a.start = some g → ∃ front' run,
    front = front' ++ run ∧ g.start = (Token.concat front').length ∧
      Token.concat run = g.text.toList ∧
      ((∃ t, run = [t] ∧ t.kind = g.kind) ∨ run ≠ [] ∧ Solid run ∧ g.kind.isTrivia = false)

/-- The tokens around the brace that closes a list of associated items. -/
structure Site (source : String) (a : Leaf) (front behind : List Token) : Prop extends
  Spot source (some .assocItemList) a front ⟨.rCurly, "\x7d", true⟩ behind

theorem lays_ofSource (hw : File.WellFormed source) :
    Lays (Outline.leavesAll (outlineOf (Input.ofTokens false (Token.ofSource source))).1)
      (Token.ofSource source) :=
  lays_of_covers (covers_outlineOf (File.wellFormed_iff.1 hw).2)

theorem exists_spot {list : Located} (hw : File.WellFormed source)
    (hlist : list ∈ (File.read source).tree.nodesFrom 0) (hk : list.kind? ≠ some .sourceFile)
    (ha : a ∈ list.ownLeaves) (hka : a.kind.isTrivia = false) :
    ∃ front t behind, Spot source list.kind? a front t behind := by
  obtain ⟨cs, htree, hseats⟩ := Tree.seats_ofOutline (lays_ofSource hw)
  rw [← File.tree_read] at htree
  have hs := File.sound_read source
  have hmem : list ∈ Tree.nodesAllFrom 0 cs := by
    rw [htree, Tree.nodesFrom] at hlist
    rcases List.mem_cons.1 hlist with rfl | h
    · exact absurd rfl hk
    · exact h
  obtain ⟨es, fs, hcut⟩ := List.append_of_mem
    (Tree.mem_seatsAllFrom_of_mem_ownLeaves ha 0 none cs hmem)
  rw [hcut] at hseats
  obtain ⟨front, behind, t, hplace⟩ := Seats.exists_place hseats hka
  refine ⟨front, t, behind, hplace.tokens, hplace.start, hplace.heads, hplace.holder, fun g hg => ?_⟩
  -- the leaf in front has its seat in front
  have ha' : some a ∈ (File.read source).tree.leavesFrom 0 :=
    Tree.mem_leavesFrom_of_mem_ownLeaves hlist ha
  obtain ⟨us, vs, hprecedes⟩ := File.precedes_of_previous? hs ((File.read source).leaves_eq ▸ ha') hg
  have hleaves : (Tree.seatsAllFrom none 0 cs).map (·.2) =
      (us.reduceOption ++ [g]) ++ a :: vs.reduceOption := by
    have h := Tree.map_seatsFrom 0 none (File.read source).tree
    rw [← (File.read source).leaves_eq, hprecedes, htree, Tree.seatsFrom,
      Tree.map_seatsAllFrom] at h
    rw [Tree.map_seatsAllFrom, h]
    simp [List.reduceOption_append, List.reduceOption_cons_of_some]
  have hnodup : ((Tree.seatsAllFrom none 0 cs).map (·.2)).Nodup := by
    have h := (Tree.tiles_leavesFrom 0 (File.read source).tree).nodup_start
      fun l hl => (Tree.fits_of_mem_leavesFrom hs hl).nonempty
    rw [htree, ← Tree.map_seatsFrom 0 none] at h
    rw [Tree.map_seatsAllFrom, ← Tree.map_seatsAllFrom 0 (some .sourceFile)]
    exact List.Nodup.of_map _ h
  rw [hcut, List.map_append, List.map_cons] at hleaves hnodup
  have hnotMem := (List.nodup_middle.1 hnodup).notMem
  rw [List.mem_append, not_or] at hnotMem
  obtain ⟨hes, -, -⟩ := (List.append_cons_inj_of_notMem hnotMem.1 hnotMem.2).1 hleaves
  obtain ⟨es', last, rfl, -, hlast⟩ := List.map_eq_append_iff.1 hes
  obtain ⟨⟨h', g'⟩, rfl, rfl⟩ := List.map_eq_singleton_iff.1 hlast
  exact hplace.before

/-- A closing brace or bracket is a token by itself. -/
theorem Spot.eq_closer {holder : Option NodeKind} {t : Token} {c : Char}
    (h : Spot source holder a front t behind) (hc : (a.kind, c) ∈ TokenKind.closers) :
    t = ⟨a.kind, String.ofList [c], true⟩ := by
  have hk : t.kind = a.kind := by
    have hheads := h.heads
    rcases TokenKind.mem_closers hc with ⟨hk, -⟩ | ⟨hk, -⟩ | ⟨hk, -⟩ <;> rw [hk] at hheads ⊢ <;>
      exact hheads.elim id fun h => (Option.some.inj h).symm
  have ht := Token.eq_closer_of_mem_ofSource (t := t) (by rw [h.tokens]; simp) (hk ▸ hc)
  rwa [hk] at ht

theorem exists_site {list : Located} (hw : File.WellFormed source)
    (hlist : list ∈ (File.read source).tree.nodesFrom 0) (hk : list.kind? = some .assocItemList)
    (ha : a ∈ list.ownLeaves) (hka : a.kind = .rCurly) :
    ∃ front behind, Site source a front behind := by
  obtain ⟨front, t, behind, h⟩ := exists_spot hw hlist (by rw [hk]; decide) ha (by rw [hka]; rfl)
  have ht := h.eq_closer (by rw [hka]; exact List.mem_cons_self)
  rw [ht, hk, hka] at h
  exact ⟨front, behind, ⟨h⟩⟩

/-! ## Blocks in front of a brace -/

/-- Blanks at the end of some tokens can be parted from the others. -/
theorem exists_whitespace_end (ts : List Token) : ∃ us gap, ts = us ++ gap ∧
    (∀ t ∈ gap, t.kind = .whitespace) ∧ ∀ t ∈ us.getLast?, t.kind ≠ .whitespace := by
  induction ts using List.reverseRecOn with
  | nil => exact ⟨[], [], rfl, by simp, by simp⟩
  | append_singleton ts t ih =>
    by_cases ht : t.kind = .whitespace
    · obtain ⟨us, gap, rfl, hgap, hus⟩ := ih
      refine ⟨us, gap ++ [t], by rw [List.append_assoc], ?_, hus⟩
      exact List.forall_mem_append.2 ⟨hgap, by simpa using ht⟩
    · refine ⟨ts ++ [t], [], by rw [List.append_nil], by simp, ?_⟩
      rw [List.getLast?_concat]
      rintro u ⟨⟩
      exact ht

namespace Spot

variable {holder : Option NodeKind} {t : Token} (h : Spot source holder a front t behind)
include h

theorem toList : source.toList = Token.concat front ++ Token.concat (t :: behind) := by
  rw [← Token.concat_ofSource, h.tokens, Token.concat_append]

theorem fits {u : Token} (hu : u ∈ front) : u.kind.Fits u.text :=
  Token.fits_of_mem_ofSource (h.tokens ▸ List.mem_append_left _ hu)

theorem gap {g : Leaf} (hg : (File.read source).gapBefore? a.start = some g) :
    ∃ front' t, front = front' ++ [t] ∧ t.kind = .whitespace ∧ t.text = g.text ∧
      g.start = (Token.concat front').length := by
  obtain ⟨hp, hk⟩ := Option.filter_eq_some_iff.1 hg
  rw [decide_eq_true_eq] at hk
  obtain ⟨front', run, rfl, hstart, htext, hkinds⟩ := h.previous g hp
  rcases hkinds with ⟨t, rfl, hkt⟩ | ⟨-, -, hsolid⟩
  · refine ⟨front', t, rfl, hkt.trans hk, ?_, hstart⟩
    rw [Token.concat, List.flatMap_singleton] at htext
    exact String.toList_injective htext
  · rw [hk] at hsolid
    cases hsolid

/-- A block goes between blanks in front of the token, and behind it a line ends. -/
theorem apply_insertBlock {outer : List Char} (houter : ∀ b ∈ outer, Lexer.isBlank b = true)
    (block : List Char) : ∃ rest ws gap, front = rest ++ ws ∧ (∀ t ∈ ws, t.kind = .whitespace) ∧
      (ws = [] → (File.read source).gapBefore? a.start = none) ∧
      (∀ b ∈ gap, Lexer.isBlank b = true) ∧ '\n' ∈ gap ∧
      Edit.applyAll source.toList [(File.read source).insertBlock a.start outer block] =
        Token.concat rest ++ block ++ gap ++ Token.concat (t :: behind) := by
  have hbreak : ∀ b ∈ '\n' :: outer, Lexer.isBlank b = true := List.forall_mem_cons.2 ⟨rfl, houter⟩
  rw [File.insertBlock_eq, Edit.applyAll_singleton, h.toList]
  dsimp only
  cases hgap : (File.read source).gapBefore? a.start with
  | none =>
    refine ⟨front, [], '\n' :: outer, by rw [List.append_nil], by simp, fun _ => rfl, hbreak,
      by simp, ?_⟩
    simp [Edit.insert, Edit.apply, h.start]
  | some g =>
    obtain ⟨rest, t, rfl, hk, htext, hstart⟩ := h.gap hgap
    have hconcat : Token.concat [t] = g.text.toList := by simp [Token.concat, htext]
    rw [Option.elim, Token.concat_append, List.append_assoc, hconcat]
    split
    · rename_i hline
      refine ⟨rest, [t], g.text.toList, rfl, by simpa using hk, by simp, ?_, hline, ?_⟩
      · rw [← htext]
        exact (h.fits (by simp)).blank hk
      · simp [Edit.insert, Edit.apply, hstart, Token.concat]
    · refine ⟨rest, [t], '\n' :: outer, rfl, by simpa using hk, by simp, hbreak, by simp, ?_⟩
      have hdrop (us : List Char) : (Token.concat rest ++ (g.text.toList ++ us)).drop
          (g.start + g.text.length) = us := by
        rw [hstart, ← String.length_toList, ← List.length_append, ← List.append_assoc,
          List.drop_left]
      rw [Edit.apply]
      dsimp only
      rw [hdrop, hstart, List.take_left]
      simp

end Spot

namespace Site

variable (h : Site source a front behind)
include h

/-- Behind the preamble there is a token in front of the brace. -/
theorem exists_preamble {p : Preamble} (hw : File.WellFormed source)
    (hp : Preamble.ofChars? source.toList = some p) :
    ∃ ts, front = Token.preamble p source.toList ++ ts ∧ ∃ t ∈ ts, t.kind.isTrivia = false := by
  have htokens := h.tokens
  rw [Token.ofSource_eq hp] at htokens
  obtain ⟨ts, rfl, -⟩ := exists_append_of_notMem htokens fun hmem => by
    have hk := Token.kind_of_mem_preamble hmem
    simp at hk
  exact ⟨ts, rfl, Token.exists_solid_of_brace hw h.tokens rfl⟩

end Site

end Docsmith.Source
