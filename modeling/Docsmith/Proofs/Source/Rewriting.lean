import Docsmith.Proofs.Source.Layout

/-!
# Rewritings

What a list of edits does to a text, read from left to right without positions in the new text:
characters are kept, and now and then a stretch gives way to another one.

* `rewrites_applyAll`: edits in order rewrite a text;
* `File.insertBlock_cases`: a block that goes in front of a token is put in, or takes the place of
  blanks without a line break directly in front of that token.
-/

namespace Docsmith.Source

/-- The old text from a position on becomes the new one. `P` says what may be put in the place of
what at which position, and each time that happens it has a label. -/
inductive Rewrites {α : Type} (P : α → Nat → List Char → List Char → Prop) :
    Nat → List Char → List α → List Char → Prop
  | done (n : Nat) : Rewrites P n [] [] []
  | keep {n : Nat} {cs ds : List Char} {as : List α} (c : Char) :
      Rewrites P (n + 1) cs as ds → Rewrites P n (c :: cs) as (c :: ds)
  | replace {n : Nat} {cs ds old new : List Char} {a : α} {as : List α} :
      P a n old new → Rewrites P (n + old.length) cs as ds →
        Rewrites P n (old ++ cs) (a :: as) (new ++ ds)

namespace Rewrites

variable {α : Type} {P : α → Nat → List Char → List Char → Prop} {n : Nat}
  {cs ds us : List Char} {as : List α}

theorem keep_append (h : Rewrites P (n + us.length) cs as ds) :
    Rewrites P n (us ++ cs) as (us ++ ds) := by
  induction us generalizing n with
  | nil => exact h
  | cons c us ih =>
    refine .keep c (ih ?_)
    rwa [List.length_cons, Nat.add_comm us.length, ← Nat.add_assoc] at h

theorem refl (n : Nat) (cs : List Char) : Rewrites P n cs [] cs := by
  have h : Rewrites P n (cs ++ []) [] (cs ++ []) := keep_append (.done _)
  rwa [List.append_nil] at h

/-- A text where nothing is replaced stays as it is. -/
theorem eq_of_nil (h : Rewrites P n cs [] ds) : ds = cs := by
  generalize hl : ([] : List α) = ls at h
  induction h with
  | done n => rfl
  | keep c _ ih => rw [ih hl]
  | replace => cases hl

/-- Labels can be exchanged for others. -/
theorem map_labels {β : Type} {Q : β → Nat → List Char → List Char → Prop} {label : α → β}
    (h : Rewrites (fun a => Q (label a)) n cs as ds) : Rewrites Q n cs (as.map label) ds := by
  induction h with
  | done n => exact .done n
  | keep c _ ih => exact .keep c ih
  | replace hp _ ih => exact .replace hp ih

/-- Labels that tell their positions tell them in order. -/
theorem pairwise_labels {position : α → Nat}
    (hp : ∀ {a m old new}, P a m old new → m = position a) (h : Rewrites P n cs as ds) :
    (∀ a ∈ as, n ≤ position a) ∧ as.Pairwise fun a b => position a ≤ position b := by
  induction h with
  | done n => exact ⟨nofun, .nil⟩
  | keep c _ ih => exact ⟨fun a ha => (Nat.le_succ _).trans (ih.1 a ha), ih.2⟩
  | @replace n _ _ old _ a _ hpa _ ih =>
    obtain rfl := hp hpa
    have hle : ∀ b ∈ _, position a ≤ position b :=
      fun b hb => (Nat.le_add_right _ old.length).trans (ih.1 b hb)
    exact ⟨List.forall_mem_cons.2 ⟨Nat.le_refl _, hle⟩, .cons hle ih.2⟩

end Rewrites

/-! ## Edits rewrite -/

section

variable {α : Type} {P : α → Nat → List Char → List Char → Prop} {edit : α → Edit}
  {cs : List Char}

theorem rewrites_splice {as : List α} {n : Nat}
    (h : Edit.InOrder cs.length n (as.map edit))
    (hp : ∀ a ∈ as, P a (edit a).start ((edit a).replaced cs) (edit a).text) :
    Rewrites P n (cs.drop n) as (Edit.splice cs n (as.map edit)) := by
  induction as generalizing n with
  | nil => exact .refl n _
  | cons a as ih =>
    obtain ⟨hn, he, hs⟩ := h
    obtain ⟨hpa, hps⟩ := List.forall_mem_cons.1 hp
    have hkept := Edit.length_front hn (he.trans hs.le)
    have hgone := Edit.length_replaced he hs.le
    have hrest := ih hs hps
    rw [Edit.drop_eq_append hn he, List.map_cons, Edit.splice, List.append_assoc]
    refine .keep_append ?_
    rw [hkept, show n + ((edit a).start - n) = (edit a).start by omega]
    refine .replace hpa ?_
    rwa [hgone, show (edit a).start + ((edit a).stop - (edit a).start) = (edit a).stop by omega]

/-- Edits that are in order once they are sorted rewrite a text. Sorting moves their labels. -/
theorem rewrites_applyAll {as : List α}
    (h : Edit.InOrder cs.length 0 (Edit.sorted (as.map edit)))
    (hp : ∀ a ∈ as, P a (edit a).start ((edit a).replaced cs) (edit a).text) :
    ∃ bs : List α, bs.Perm as ∧ Rewrites P 0 cs bs (Edit.applyAll cs (as.map edit)) := by
  let bs := as.mergeSort fun a b => (edit a).start ≤ (edit b).start
  have hperm : bs.Perm as := List.mergeSort_perm ..
  have hbs : Edit.sorted (as.map edit) = bs.map edit :=
    (List.map_mergeSort (f := edit) fun _ _ _ _ => rfl).symm
  refine ⟨bs, hperm, ?_⟩
  rw [Edit.applyAll_eq_splice h, hbs]
  rw [hbs] at h
  exact rewrites_splice h fun a ha => hp a (hperm.mem_iff.1 ha)

/-- A single edit rewrites a text. -/
theorem rewrites_edit {P : Edit → Nat → List Char → List Char → Prop} {e : Edit}
    (he : e.start ≤ e.stop ∧ e.stop ≤ cs.length) (hp : P e e.start (e.replaced cs) e.text) :
    Rewrites P 0 cs [e] (Edit.applyAll cs [e]) := by
  have ho : Edit.InOrder cs.length 0 (Edit.sorted ([e].map id)) := by
    rw [List.map_id, Edit.sorted, List.mergeSort_singleton]
    exact ⟨Nat.zero_le _, he⟩
  obtain ⟨made, hperm, h⟩ := rewrites_applyAll ho (List.forall_mem_singleton.2 hp)
  rwa [List.perm_singleton.1 hperm, List.map_id] at h

end

/-! ## Gaps -/

/-- A leaf of a tiling is there in the text. -/
theorem Tiles.take_drop {n : Nat} {ls : List (Option Leaf)} {cs : List Char} {l : Leaf}
    (h : Tiles n ls cs) (hl : some l ∈ ls) :
    (cs.drop (l.start - n)).take l.text.length = l.text.toList := by
  obtain ⟨us, vs, rfl⟩ := List.append_of_mem hl
  obtain ⟨c, d, rfl, -, hd⟩ := h.split
  cases hd with
  | leaf kind text h =>
    rw [Nat.add_sub_cancel_left, List.drop_left, ← String.length_toList, List.take_left]

namespace File

variable {f : File} {a gap : Leaf}

/-- A token stands directly in front of another one. -/
def Precedes (f : File) (a b : Leaf) : Prop :=
  ∃ us vs, f.leaves = us ++ some a :: some b :: vs

/-- The token that is found in front of another one is there. -/
theorem precedes_of_previous? (hs : f.tree.Sound) (ha : some a ∈ f.leaves)
    (hg : f.previous? a.start = some gap) : f.Precedes gap a := by
  let p : Option Leaf → Bool := fun l => l.all (·.start ≠ a.start)
  obtain ⟨c, d, ls, -, -, -, hls, hd⟩ := tiles_before ha
  have hrest : ls = f.leaves.dropWhile p := by
    have h := hls.symm.trans (@List.takeWhile_append_dropWhile _ p f.leaves).symm
    rw [before, List.reverse_reverse] at h
    exact List.append_cancel_left h
  obtain ⟨us, hus⟩ : ∃ us, (f.before a.start).reverse = us ++ [some gap] := by
    rw [previous?, Option.join_eq_some_iff] at hg
    obtain ⟨ms, hms⟩ := List.head?_eq_some_iff.1 hg
    exact ⟨ms.reverse, by rw [hms, List.reverse_cons]⟩
  -- the token is the first of the rest, which starts at its position
  have hmem : some a ∈ ls := by
    rw [hls, List.mem_append, before, List.reverse_reverse] at ha
    refine ha.resolve_left fun h => ?_
    simpa using List.mem_takeWhile_imp h
  obtain ⟨x, vs, rfl⟩ := List.exists_cons_of_ne_nil (List.ne_nil_of_mem hmem)
  have hx : p x = false := by
    have := List.head_dropWhile_not p (l := f.leaves) (by rw [← hrest]; simp)
    simpa [← hrest] using this
  have hxa : x = some a := by
    cases hd with
    | hollow _ => simp [p] at hx
    | leaf kind text h =>
      rcases List.mem_cons.1 hmem with hm | hm
      · exact hm.symm
      · have hb := (h.bounds hm).1
        have hfit : 0 < text.length := by
          rw [← String.length_toList]
          refine List.length_pos_of_ne_nil (Tree.fits_of_mem_leavesFrom (n := 0) hs
            (l := ⟨a.start, kind, text⟩) ?_).nonempty
          rw [← f.leaves_eq, hls]
          simp
        omega
  exact ⟨us, vs, by rw [hls, hus, hxa, List.append_assoc, List.singleton_append]⟩

theorem Precedes.mem_left {b : Leaf} (h : f.Precedes a b) : some a ∈ f.tree.leavesFrom 0 := by
  obtain ⟨us, vs, h⟩ := h
  rw [← f.leaves_eq, h]
  simp

/-- Blanks without a line break, in front of a token. -/
def RoomBefore (f : File) (a : Leaf) (n : Nat) (old : List Char) : Prop :=
  ∃ gap : Leaf, gap.kind = .whitespace ∧ gap.start = n ∧ gap.text.toList = old ∧ '\n' ∉ old ∧
    f.Precedes gap a

/-- A block that goes in front of a token is put in there, or takes the place of blanks without a
line break that stand directly in front of the token. -/
theorem insertBlock_cases (hs : f.tree.Sound) (ha : some a ∈ f.leaves)
    (outer block : List Char) :
    let e := f.insertBlock a.start outer block
    e.start ≤ e.stop ∧ e.stop ≤ f.tree.text.length ∧
      (e.replaced f.tree.text = [] ∨ f.RoomBefore a e.start (e.replaced f.tree.text)) := by
  have hf := fronts_insertBlock hs ha outer block
  have hb := ((Tree.tiles_leavesFrom 0 f.tree).bounds (f.leaves_eq ▸ ha)).2
  have hstop := hf.stop_le
  refine ⟨hf.start_le, by omega, ?_⟩
  rw [insertBlock]
  split
  · rename_i gap hg
    split
    · exact .inl (by simp [Edit.replaced, Edit.insert])
    · rename_i hn
      obtain ⟨hp, hk⟩ := Option.filter_eq_some_iff.1 hg
      have hp := precedes_of_previous? hs ha hp
      have ht := (Tree.tiles_leavesFrom 0 f.tree).take_drop hp.mem_left
      rw [Nat.sub_zero] at ht
      refine .inr ⟨gap, by simpa using hk, rfl, ?_, ?_, hp⟩
      · rw [Edit.replaced, Nat.add_sub_cancel_left, ht]
      · rw [Edit.replaced, Nat.add_sub_cancel_left, ht]
        simpa using hn
  · exact .inl (by simp [Edit.replaced, Edit.insert])

end File

end Docsmith.Source
