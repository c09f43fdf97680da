import Docsmith.Proofs.Source.Lexer
import Docsmith.Source.File
import Mathlib.Data.List.ReduceOption

/-!
# Tokens in a tree

The tokens of a file that has been read stand one behind the other and make up its text, whatever
the grammar has made of them.

* `sound_read`: every token of a read file fits its kind;
* `tiles_leavesFrom`: the leaves of a tree tile its text;
* `Tiles.nodup_start`: so no two of them start at one position.
-/

namespace Docsmith.Source

/-! ## Sound trees -/

/-- Every token of a tree fits its kind. -/
inductive Tree.Sound : Tree → Prop
  | token {kind : TokenKind} {text : String} : kind.Fits text → Sound (.token kind text)
  | node {kind : NodeKind} {cs : List Tree} : (∀ t ∈ cs, t.Sound) → Sound (.node kind cs)

theorem Tree.Sound.of_mem {kind : NodeKind} {cs : List Tree} {t : Tree}
    (h : Sound (Tree.node kind cs)) (ht : t ∈ cs) : t.Sound := by
  cases h with
  | node h => exact h t ht

theorem Tree.sound_map_ofToken {ts : List Token} (h : ∀ t ∈ ts, t.kind.Fits t.text) :
    ∀ t ∈ ts.map ofToken, t.Sound := by
  rw [List.forall_mem_map]
  exact fun t ht => .token (h t ht)

namespace Outline

variable {ts : List Token}

/-- Tokens that fit are joined into one that fits, unless it is a blank or a comment. -/
theorem sound_joined {kind : TokenKind} (hk : kind.isTrivia = false) (hn : ts ≠ [])
    (h : ∀ t ∈ ts, t.kind.Fits t.text) : (joined kind ts).Sound := by
  refine .token ⟨?_, fun hw => ?_, fun hw => ?_⟩
  · obtain ⟨t, rest, rfl⟩ := List.exists_cons_of_ne_nil hn
    have ht := (h t (List.mem_cons_self ..)).nonempty
    simp [Token.concat_cons, ht]
  all_goals
    subst hw
    exact absurd hk (by decide)

mutual

theorem weave_suffix (o : Outline) (ts : List Token) : (weave o ts).2 <:+ ts := by
  cases o with
  | leaf kind width =>
    have hd := @List.dropWhile_suffix _ ts (·.kind.isTrivia)
    rw [weave]
    split
    · exact hd
    · exact (List.drop_suffix _ _).trans hd
  | node kind cs =>
    rw [weave]
    exact (weaveAll_suffix cs _).trans (List.dropWhile_suffix _)

theorem weaveAll_suffix (os : List Outline) (ts : List Token) : (weaveAll os ts).2 <:+ ts := by
  cases os with
  | nil => exact List.suffix_refl _
  | cons o os => exact (weaveAll_suffix os _).trans (weave_suffix o ts)

end

mutual

theorem sound_weave (o : Outline) (ts : List Token) (h : ∀ t ∈ ts, t.kind.Fits t.text) :
    ∀ t ∈ (weave o ts).1, t.Sound := by
  have hgap : ∀ t ∈ ts.takeWhile (·.kind.isTrivia), t.kind.Fits t.text :=
    fun t ht => h t ((List.takeWhile_prefix _).mem ht)
  have hrest : ∀ t ∈ ts.dropWhile (·.kind.isTrivia), t.kind.Fits t.text :=
    fun t ht => h t ((List.dropWhile_suffix _).mem ht)
  cases o with
  | leaf kind width =>
    rw [weave]
    split
    · exact Tree.sound_map_ofToken hgap
    · rename_i hk
      rw [Bool.or_eq_true, not_or, Bool.not_eq_true, List.isEmpty_iff] at hk
      rw [List.forall_mem_append, List.forall_mem_singleton]
      refine ⟨Tree.sound_map_ofToken hgap, ?_⟩
      exact sound_joined hk.1 hk.2 fun t ht => hrest t (List.mem_of_mem_take ht)
  | node kind cs =>
    rw [weave]
    simp only [List.forall_mem_append, List.forall_mem_singleton]
    refine ⟨Tree.sound_map_ofToken fun t ht => hgap t (List.mem_of_mem_take ht), .node ?_⟩
    rw [List.forall_mem_append]
    exact ⟨Tree.sound_map_ofToken fun t ht => hgap t (List.mem_of_mem_drop ht),
      sound_weaveAll cs _ hrest⟩

theorem sound_weaveAll (os : List Outline) (ts : List Token)
    (h : ∀ t ∈ ts, t.kind.Fits t.text) : ∀ t ∈ (weaveAll os ts).1, t.Sound := by
  cases os with
  | nil => simp [weaveAll]
  | cons o os =>
    rw [weaveAll, List.forall_mem_append]
    exact ⟨sound_weave o ts h,
      sound_weaveAll os _ fun t ht => h t ((weave_suffix o ts).mem ht)⟩

end

end Outline

theorem Tree.sound_ofOutline (os : List Outline) {ts : List Token}
    (h : ∀ t ∈ ts, t.kind.Fits t.text) : (ofOutline os ts).Sound := by
  refine .node ?_
  rw [List.forall_mem_append]
  exact ⟨Outline.sound_weaveAll os ts h,
    sound_map_ofToken fun t ht => h t ((Outline.weaveAll_suffix os ts).mem ht)⟩

theorem File.tree_read (source : String) :
    (read source).tree = Tree.ofOutline
      (Grammar.outlineOf (Grammar.Input.ofTokens false (Token.ofSource source))).1
      (Token.ofSource source) := by
  simp only [read]

theorem File.sound_read (source : String) : (read source).tree.Sound := by
  rw [tree_read]
  exact Tree.sound_ofOutline _ fun _ => Token.fits_of_mem_ofSource

/-! ## Tilings -/

/-- The leaves stand one behind the other from a position on, and make up a text. -/
inductive Tiles : Nat → List (Option Leaf) → List Char → Prop
  | nil (n : Nat) : Tiles n [] []
  | hollow {n : Nat} {ls : List (Option Leaf)} {cs : List Char} :
      Tiles n ls cs → Tiles n (none :: ls) cs
  | leaf {n : Nat} {ls : List (Option Leaf)} {cs : List Char} (kind : TokenKind) (text : String) :
      Tiles (n + text.length) ls cs → Tiles n (some ⟨n, kind, text⟩ :: ls) (text.toList ++ cs)

namespace Tiles

variable {n : Nat} {ls ms : List (Option Leaf)} {cs ds : List Char} {l : Leaf}

theorem append (h : Tiles n ls cs) (hm : Tiles (n + cs.length) ms ds) :
    Tiles n (ls ++ ms) (cs ++ ds) := by
  induction h with
  | nil n => exact hm
  | hollow _ ih => exact .hollow (ih hm)
  | leaf kind text _ ih =>
    rw [List.append_assoc]
    refine .leaf kind text (ih ?_)
    rwa [List.length_append, String.length_toList, ← Nat.add_assoc] at hm

/-- A tiling can be cut anywhere. -/
theorem split (h : Tiles n (ls ++ ms) cs) :
    ∃ c d, cs = c ++ d ∧ Tiles n ls c ∧ Tiles (n + c.length) ms d := by
  induction ls generalizing n cs with
  | nil => exact ⟨[], cs, rfl, .nil n, h⟩
  | cons x ls ih =>
    cases h with
    | hollow h =>
      obtain ⟨c, d, rfl, hc, hd⟩ := ih h
      exact ⟨c, d, rfl, .hollow hc, hd⟩
    | leaf kind text h =>
      obtain ⟨c, d, rfl, hc, hd⟩ := ih h
      refine ⟨text.toList ++ c, d, by rw [List.append_assoc], .leaf kind text hc, ?_⟩
      rwa [List.length_append, String.length_toList, ← Nat.add_assoc]

/-- A leaf of a tiling lies within its text. -/
theorem bounds (h : Tiles n ls cs) (hl : some l ∈ ls) :
    n ≤ l.start ∧ l.start + l.text.length ≤ n + cs.length := by
  induction h with
  | nil n => simp at hl
  | hollow _ ih =>
    rcases List.mem_cons.1 hl with hl | hl
    · exact absurd hl (by simp)
    · exact ih hl
  | leaf kind text _ ih =>
    rw [List.length_append, String.length_toList]
    rcases List.mem_cons.1 hl with hl | hl
    · obtain rfl := Option.some.inj hl
      simp only
      omega
    · have := ih hl
      omega

/-- No two leaves of a tiling start at one position if all of them have a text. -/
theorem nodup_start (h : Tiles n ls cs) (hn : ∀ l, some l ∈ ls → l.text.toList ≠ []) :
    (ls.reduceOption.map (·.start)).Nodup := by
  induction h with
  | nil n => exact List.nodup_nil
  | hollow _ ih => exact ih fun l hl => hn l (List.mem_cons_of_mem _ hl)
  | @leaf n ls cs kind text h ih =>
    rw [List.reduceOption_cons_of_some, List.map_cons, List.nodup_cons]
    refine ⟨fun hm => ?_, ih fun l hl => hn l (List.mem_cons_of_mem _ hl)⟩
    obtain ⟨l, hl, hs⟩ := List.mem_map.1 hm
    have hb := (h.bounds (List.reduceOption_mem_iff.1 hl)).1
    have ht : 0 < text.length := by
      rw [← String.length_toList]
      exact List.length_pos_of_ne_nil (hn ⟨n, kind, text⟩ (List.mem_cons_self ..))
    simp only at hs
    omega

end Tiles

namespace Tree

mutual

theorem length_text : ∀ t : Tree, t.text.length = t.width
  | .token _ s => by rw [text, width, String.length_toList]
  | .node _ cs => by rw [text, width, length_textAll cs]

theorem length_textAll : ∀ ts : List Tree, (textAll ts).length = widthAll ts
  | [] => rfl
  | t :: ts => by rw [textAll, widthAll, List.length_append, length_text t, length_textAll ts]

end

mutual

/-- The leaves of a tree tile its text. -/
theorem tiles_leavesFrom (n : Nat) : ∀ t : Tree, Tiles n (t.leavesFrom n) t.text
  | .token kind s => by
    have h := Tiles.leaf kind s (.nil (n + s.length))
    rwa [List.append_nil] at h
  | .node _ [] => .hollow (.nil n)
  | .node _ (t :: ts) => tiles_leavesAllFrom n (t :: ts)

theorem tiles_leavesAllFrom (n : Nat) :
    ∀ ts : List Tree, Tiles n (leavesAllFrom n ts) (textAll ts)
  | [] => .nil n
  | t :: ts => by
    refine (tiles_leavesFrom n t).append ?_
    rw [length_text]
    exact tiles_leavesAllFrom _ ts

end

mutual

theorem fits_of_mem_leavesFrom {n : Nat} {l : Leaf} : ∀ {t : Tree}, t.Sound →
    some l ∈ t.leavesFrom n → l.kind.Fits l.text
  | .token kind s, .token hs, hl => by
    obtain rfl := Option.some.inj (List.mem_singleton.1 hl)
    exact hs
  | .node _ [], _, hl => by simp [leavesFrom] at hl
  | .node _ (t :: ts), hs, hl =>
    fits_of_mem_leavesAllFrom (fun _ hu => hs.of_mem hu) hl

theorem fits_of_mem_leavesAllFrom {n : Nat} {l : Leaf} : ∀ {ts : List Tree},
    (∀ t ∈ ts, t.Sound) → some l ∈ leavesAllFrom n ts → l.kind.Fits l.text
  | [], _, hl => by simp [leavesAllFrom] at hl
  | t :: ts, hs, hl => by
    rcases List.mem_append.1 hl with hl | hl
    · exact fits_of_mem_leavesFrom (hs t (List.mem_cons_self ..)) hl
    · exact fits_of_mem_leavesAllFrom (fun u hu => hs u (List.mem_cons_of_mem _ hu)) hl

end

end Tree

end Docsmith.Source
