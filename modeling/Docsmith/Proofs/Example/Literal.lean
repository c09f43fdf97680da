import Docsmith.Example.Literal
import Docsmith.Proofs.Source.Layout
import Mathlib.Data.List.Flatten
import Mathlib.Data.Option.Basic

/-!
# What completed literals keep

New fields go in front of a token of each literal, and these tokens are distinct: a literal's list
of fields is directly inside that literal only.

* `nodup_anchors`: no two literals get their fields in front of one token;
* `solid_sublist_populate`: so what is not blank in a document is there when its literals have been
  completed.
-/

namespace Docsmith.Example

open Docsmith.Source

/-! ## Where fields go -/

theorem mem_ownLeaves_of_fieldAnchor? {list : Located} {a : Leaf} (h : fieldAnchor? list = some a) :
    a ∈ list.ownLeaves ∧ (a.kind = .dot2 ∨ a.kind = .rCurly) := by
  rw [fieldAnchor?, Option.orElse_eq_some] at h
  rcases h with h | ⟨-, h⟩
  · obtain ⟨ha, hk⟩ := Located.mem_ownLeaves_of_token? h
    exact ⟨ha, .inl hk⟩
  · obtain ⟨ha, hk⟩ := Located.mem_ownLeaves_of_token? h
    exact ⟨ha, .inr hk⟩

theorem ne_whitespace_of_fieldAnchor? {list : Located} {a : Leaf}
    (h : fieldAnchor? list = some a) : a.kind ≠ .whitespace := by
  rcases (mem_ownLeaves_of_fieldAnchor? h).2 with hk | hk <;> rw [hk] <;> decide

theorem literalLists_sublist (f : File) (model : String) :
    (literalLists f model).Sublist (f.nodes.flatMap Located.childNodes) := by
  rw [literalLists, File.nodesOf]
  induction f.nodes with
  | nil => exact .slnil
  | cons l ls ih =>
    rw [List.flatMap_cons, List.filter_cons]
    split
    · rw [List.filterMap_cons]
      split
      · exact ih.trans (List.sublist_append_right _ _)
      · rename_i list h
        simp only [Option.bind_eq_bind, Option.bind_eq_some_iff] at h
        obtain ⟨path, -, c, hc, h⟩ := h
        split at h
        · obtain rfl := Option.some.inj h
          have hm := Located.mem_childNodes_of_child? hc
          exact (List.singleton_sublist.2 hm).append ih
        · simp at h
    · exact ih.trans (List.sublist_append_right _ _)

theorem mem_nodes_of_mem_literalLists {f : File} {model : String} {list : Located}
    (h : list ∈ literalLists f model) : list ∈ f.nodes := by
  obtain ⟨p, hp, hl⟩ := List.mem_flatMap.1 ((literalLists_sublist f model).mem h)
  exact Tree.mem_nodesFrom_of_mem_childNodes hp hl

theorem anchors_sublist (lists : List Located) :
    (lists.filterMap fieldAnchor?).Sublist (lists.flatMap Located.ownLeaves) := by
  induction lists with
  | nil => exact .slnil
  | cons list lists ih =>
    rw [List.filterMap_cons, List.flatMap_cons]
    split
    · exact ih.trans (List.sublist_append_right _ _)
    · rename_i a h
      exact (List.singleton_sublist.2 (mem_ownLeaves_of_fieldAnchor? h).1).append ih

theorem anchors_literalLists_sublist (f : File) (model : String) :
    ((literalLists f model).filterMap fieldAnchor?).Sublist
      ((f.nodes.flatMap Located.childNodes).flatMap Located.ownLeaves) :=
  (anchors_sublist _).trans ((literalLists_sublist f model).flatMap _)

/-- No two literals get their fields in front of one token. -/
theorem nodup_anchors {f : File} (hs : f.tree.Sound) (model : String) :
    (((literalLists f model).filterMap fieldAnchor?).map (·.start)).Nodup :=
  ((anchors_literalLists_sublist f model).map _).nodup (hs.nodup_ownLeaves_childNodes 0)

theorem mem_leavesFrom_of_mem_anchors {f : File} {model : String} {a : Leaf}
    (h : a ∈ (literalLists f model).filterMap fieldAnchor?) : some a ∈ f.tree.leavesFrom 0 := by
  obtain ⟨l, hl, ha⟩ := List.mem_filterMap.1 h
  exact Tree.mem_leavesFrom_of_mem_ownLeaves (mem_nodes_of_mem_literalLists hl)
    (mem_ownLeaves_of_fieldAnchor? ha).1

/-! ## The edits -/

variable {f : File} {source : List Char} {model : String} {fields : List Field}

/-- The edits for some literals are those for all but the first, and maybe one for that. -/
theorem completions_cons (list : Located) (rest : List Located) (s : Synthesizer) :
    ∃ s', (completions f source model fields (list :: rest) s).1 =
        (completions f source model fields rest s').1 ∨
      ∃ a items inner, fieldAnchor? list = some a ∧ items ≠ [] ∧
        (completions f source model fields (list :: rest) s).1 =
          f.appendItems source a.start items inner ::
            (completions f source model fields rest s').1 := by
  refine ⟨(renderFields model (fields.filter fun x => !(presentFields list).contains x.name) s).2,
    ?_⟩
  rw [completions]
  dsimp only
  split
  · exact .inl rfl
  · exact .inl rfl
  · rename_i a ha hne
    exact .inr ⟨a, _, _, ha, hne, rfl⟩

/-- Every edit appends fields in front of the anchor of one of the literals. -/
theorem mem_completions {lists : List Located} {s : Synthesizer} {e : Edit}
    (he : e ∈ (completions f source model fields lists s).1) :
    ∃ list ∈ lists, ∃ a items inner, fieldAnchor? list = some a ∧ items ≠ [] ∧
      e = f.appendItems source a.start items inner := by
  induction lists generalizing s with
  | nil => simp [completions] at he
  | cons list rest ih =>
    obtain ⟨s', h | ⟨a, items, inner, ha, hne, h⟩⟩ := completions_cons (f := f) list rest s
    · rw [h] at he
      obtain ⟨list', hl, hx⟩ := ih he
      exact ⟨list', List.mem_cons_of_mem _ hl, hx⟩
    · rw [h] at he
      rcases List.mem_cons.1 he with rfl | he
      · exact ⟨list, List.mem_cons_self .., a, items, inner, ha, hne, rfl⟩
      · obtain ⟨list', hl, hx⟩ := ih he
        exact ⟨list', List.mem_cons_of_mem _ hl, hx⟩

/-- Every edit goes in front of the anchor of one of the literals. -/
theorem fronts_of_mem_completions (hs : f.tree.Sound) {lists : List Located}
    (hl : ∀ a ∈ lists.filterMap fieldAnchor?, some a ∈ f.tree.leavesFrom 0) {s : Synthesizer}
    {e : Edit} (he : e ∈ (completions f source model fields lists s).1) :
    ∃ a ∈ lists.filterMap fieldAnchor?, Fronts f.tree a.start e := by
  obtain ⟨list, hlist, a, items, inner, ha, -, rfl⟩ := mem_completions he
  have hm : a ∈ lists.filterMap fieldAnchor? := List.mem_filterMap.2 ⟨list, hlist, ha⟩
  refine ⟨a, hm, File.fronts_insertBlock hs ?_ _ _⟩
  rw [f.leaves_eq]
  exact hl a hm

/-- The edits for literals with distinct anchors are apart from each other. -/
theorem pairwise_apart_completions (hs : f.tree.Sound) {lists : List Located}
    (hl : ∀ a ∈ lists.filterMap fieldAnchor?, some a ∈ f.tree.leavesFrom 0)
    (hn : ((lists.filterMap fieldAnchor?).map (·.start)).Nodup) (s : Synthesizer) :
    (completions f source model fields lists s).1.Pairwise Edit.Apart := by
  induction lists generalizing s with
  | nil => exact .nil
  | cons list rest ih =>
    have hsub := (List.sublist_cons_self list rest).filterMap fieldAnchor?
    have hlr : ∀ a ∈ rest.filterMap fieldAnchor?, some a ∈ f.tree.leavesFrom 0 :=
      fun a ha => hl a (hsub.mem ha)
    have hnr := (hsub.map (·.start)).nodup hn
    obtain ⟨s', h | ⟨a, items, inner, ha, hne, h⟩⟩ := completions_cons (f := f) list rest s
    · rw [h]
      exact ih hlr hnr s'
    · rw [h, List.pairwise_cons]
      refine ⟨fun e he => ?_, ih hlr hnr s'⟩
      rw [List.filterMap_cons_some ha] at hl hn
      rw [List.map_cons, List.nodup_cons] at hn
      have hma := hl a (List.mem_cons_self ..)
      have hka := ne_whitespace_of_fieldAnchor? ha
      have hfa : Fronts f.tree a.start (f.appendItems source a.start items inner) :=
        File.fronts_insertBlock hs (by rwa [f.leaves_eq]) _ _
      obtain ⟨b, hb, hfb⟩ := fronts_of_mem_completions hs hlr he
      have hne : a.start ≠ b.start := fun e => hn.1 (e ▸ List.mem_map_of_mem hb)
      have hkb : b.kind ≠ .whitespace := by
        obtain ⟨l, -, hb⟩ := List.mem_filterMap.1 hb
        exact ne_whitespace_of_fieldAnchor? hb
      rcases Nat.lt_or_gt_of_ne hne with hlt | hlt
      · exact hfa.apart hfb hma hka hlt
      · exact (hfb.apart hfa (hlr b hb) hkb hlt).symm

/-! ## What documents keep -/

/-- What is not blank in a document is there, in its order, when its literals have been
completed. -/
theorem solid_sublist_populate (source model : String) (fields : List Field) (s : Synthesizer) :
    (solid source.toList).Sublist (solid (populate source model fields s).1.after.toList) := by
  have hs := File.sound_read source
  have ht := File.text_read source
  have hl (a : Leaf)
      (ha : a ∈ (literalLists (File.read source) model).filterMap fieldAnchor?) :=
    mem_leavesFrom_of_mem_anchors ha
  rw [populate]
  simp only [String.toList_ofList]
  refine Edit.filter_sublist_applyAll (fun e he => ?_)
    (pairwise_apart_completions hs hl (nodup_anchors hs model) s) fun e he => ?_
  · obtain ⟨a, ha, hf⟩ := fronts_of_mem_completions hs hl he
    have hb := ((Tree.tiles_leavesFrom 0 (File.read source).tree).bounds (hl a ha)).2
    have := hf.stop_le
    rw [ht, Nat.zero_add] at hb
    exact ⟨hf.start_le, by omega⟩
  · obtain ⟨a, ha, hf⟩ := fronts_of_mem_completions hs hl he
    have hb := hf.blank
    rwa [ht] at hb

/-- A model without fields leaves every document as it is. -/
theorem populate_nil (source model : String) (s : Synthesizer) :
    populate source model [] s = (.unchanged source, s) := by
  have h (lists : List Located) (s : Synthesizer) :
      completions (File.read source) source.toList model [] lists s = ([], s) := by
    induction lists generalizing s with
    | nil => rfl
    | cons list rest ih =>
      rw [completions]
      simp [renderFields, ih]
  rw [populate]
  simp [h, Edit.applyAll_nil, Revision.unchanged]

end Docsmith.Example
