import Docsmith.Proofs.Source.Edit
import Docsmith.Proofs.Source.Nodes
import Docsmith.Source.Layout

/-!
# Edits in front of tokens

A block goes in front of a closing token, and at most the blanks between that token and the one
before make room for it.

* `fronts_insertBlock`: so nothing but blanks is replaced, and nothing at all behind the token;
* `Fronts.apart`: edits in front of two tokens are apart from each other.
-/

namespace Docsmith.Source

/-- The characters of a text that are not blank. -/
def solid (cs : List Char) : List Char := cs.filter (!Lexer.isBlank ·)

theorem solid_eq_nil {cs : List Char} : solid cs = [] ↔ ∀ c ∈ cs, Lexer.isBlank c = true := by
  simp [solid, List.filter_eq_nil_iff]

/-- An edit in front of the token at a position. It replaces nothing but blanks that stand behind
all tokens in front of that one. -/
structure Fronts (t : Tree) (position : Nat) (e : Edit) : Prop where
  start_le : e.start ≤ e.stop
  stop_le : e.stop ≤ position
  blank : solid (e.replaced t.text) = []
  behind : ∀ b, some b ∈ t.leavesFrom 0 → b.kind ≠ .whitespace → b.start < position →
    b.start < e.start

/-- An edit in front of a token and one in front of a later token are apart. -/
theorem Fronts.apart {t : Tree} {a b : Leaf} {d e : Edit} (hd : Fronts t a.start d)
    (he : Fronts t b.start e) (ha : some a ∈ t.leavesFrom 0) (hk : a.kind ≠ .whitespace)
    (hl : a.start < b.start) : d.Apart e := by
  have := hd.stop_le
  have := he.behind a ha hk hl
  exact .inl (by omega)

/-- An insertion in front of a token replaces nothing. -/
theorem Fronts.insert {t : Tree} {position : Nat} (text : List Char) :
    Fronts t position (.insert position text) where
  start_le := Nat.le_refl _
  stop_le := Nat.le_refl _
  blank := by simp [Edit.replaced, Edit.insert, solid]
  behind := fun _ _ _ h => h

namespace File

variable {f : File}

/-- What precedes the token at a position tiles the text up to it. -/
theorem tiles_before {a : Leaf} (ha : some a ∈ f.leaves) :
    ∃ c d ls, f.tree.text = c ++ d ∧ c.length = a.start ∧ Tiles 0 (f.before a.start).reverse c ∧
      f.leaves = (f.before a.start).reverse ++ ls ∧ Tiles a.start ls d := by
  let p : Option Leaf → Bool := fun l => l.all (·.start ≠ a.start)
  have hcut : f.leaves = f.leaves.takeWhile p ++ f.leaves.dropWhile p :=
    List.takeWhile_append_dropWhile.symm
  have ht := Tree.tiles_leavesFrom 0 f.tree
  rw [← f.leaves_eq, hcut] at ht
  obtain ⟨c, d, hcd, hc, hd⟩ := ht.split
  rw [Nat.zero_add] at hd
  -- the rest starts with a token at the position, so the text in front of it is that long
  have hne : f.leaves.dropWhile p ≠ [] := by
    intro hnil
    have := List.dropWhile_eq_nil_iff.1 hnil _ ha
    simp [p] at this
  have hhead := List.head_dropWhile_not p hne
  have hlen : c.length = a.start := by
    generalize f.leaves.dropWhile p = ls at hd hne hhead
    cases hd with
    | nil => exact absurd rfl hne
    | hollow h => simp [p] at hhead
    | leaf kind text h => simpa [p] using hhead
  refine ⟨c, d, f.leaves.dropWhile p, hcd, hlen, ?_, ?_, hlen ▸ hd⟩
  · rwa [before, List.reverse_reverse]
  · rw [before, List.reverse_reverse]
    exact hcut

/-- The blanks in front of a token end where it starts and stand behind all tokens before it. -/
theorem fronts_of_gapBefore? (hs : f.tree.Sound) {a gap : Leaf} (ha : some a ∈ f.leaves)
    (hg : f.gapBefore? a.start = some gap) (text : List Char) :
    Fronts f.tree a.start ⟨gap.start, a.start, text⟩ ∧
      gap.start + gap.text.length = a.start := by
  obtain ⟨hp, hk⟩ := Option.filter_eq_some_iff.1 hg
  rw [decide_eq_true_eq] at hk
  obtain ⟨c, d, ls, hcd, hlen, hc, hls, hd⟩ := tiles_before ha
  -- the gap is the last of the leaves in front
  obtain ⟨us, hus⟩ : ∃ us, (f.before a.start).reverse = us ++ [some gap] := by
    rw [previous?, Option.join_eq_some_iff] at hp
    obtain ⟨ms, hms⟩ := List.head?_eq_some_iff.1 hp
    exact ⟨ms.reverse, by rw [hms, List.reverse_cons]⟩
  rw [hus] at hc hls
  obtain ⟨x, y, rfl, hx, hy⟩ := hc.split
  rw [Nat.zero_add] at hy
  cases hy with
  | leaf kind s hnil =>
    cases hnil
    rw [List.append_nil] at hcd hlen
    rw [List.length_append, String.length_toList] at hlen
    have hmem : some (⟨x.length, kind, s⟩ : Leaf) ∈ f.tree.leavesFrom 0 := by
      rw [← f.leaves_eq, hls]
      simp
    have hblank := (Tree.fits_of_mem_leavesFrom hs hmem).blank hk
    refine ⟨⟨by simp only; omega, Nat.le_refl _, ?_, fun b hb hkb hlt => ?_⟩, hlen⟩
    · have hr : (Edit.mk x.length a.start text).replaced f.tree.text = s.toList := by
        rw [Edit.replaced, hcd, List.append_assoc, List.drop_left]
        simp only
        rw [show a.start - x.length = s.toList.length by rw [String.length_toList]; omega,
          List.take_left]
      rw [hr, solid_eq_nil]
      exact hblank
    · rw [← f.leaves_eq, hls, List.mem_append, List.mem_append, List.mem_singleton] at hb
      rcases hb with (hb | hb) | hb
      · have hlen' := (hx.bounds hb).2
        have hfit : 0 < b.text.length := by
          have hb' : some b ∈ f.tree.leavesFrom 0 := by
            rw [← f.leaves_eq, hls]
            simp [hb]
          rw [← String.length_toList]
          exact List.length_pos_of_ne_nil (Tree.fits_of_mem_leavesFrom hs hb').nonempty
        simp only
        omega
      · obtain rfl := Option.some.inj hb
        exact absurd hk hkb
      · have := (hd.bounds hb).1
        omega

/-- Where a block goes, told by the characters of the gap. -/
theorem insertBlock_eq : insertBlock = fun f closing outer block =>
    (f.gapBefore? closing).elim (.insert closing (block ++ '\n' :: outer)) fun gap =>
      if '\n' ∈ gap.text.toList then .insert gap.start block
      else ⟨gap.start, gap.start + gap.text.length, block ++ '\n' :: outer⟩ := by
  funext f closing outer block
  rw [insertBlock]
  cases f.gapBefore? closing with
  | none => rfl
  | some gap => simp only [String.contains_char_eq, decide_eq_true_eq, Option.elim]

/-- A block in front of a closing token takes the place of blanks at most. -/
theorem fronts_insertBlock (hs : f.tree.Sound) {a : Leaf} (ha : some a ∈ f.leaves)
    (outer block : List Char) : Fronts f.tree a.start (f.insertBlock a.start outer block) := by
  rw [insertBlock]
  split
  · rename_i gap hg
    obtain ⟨h, hstop⟩ := fronts_of_gapBefore? hs ha hg (block ++ '\n' :: outer)
    split
    · refine ⟨Nat.le_refl _, Nat.le_trans h.start_le h.stop_le, ?_, h.behind⟩
      simp [Edit.replaced, Edit.insert, solid]
    · rwa [hstop]
  · exact .insert _

end File

/-! ## Indentation -/

theorem blank_indentAt (cs : List Char) (position : Nat) :
    ∀ b ∈ indentAt cs position, Lexer.isBlank b = true := by
  intro b hb
  have h : decide (b = ' ' ∨ b = '\t') = true := by
    simpa using List.mem_takeWhile_imp hb
  rcases of_decide_eq_true h with rfl | rfl <;> rfl

end Docsmith.Source
