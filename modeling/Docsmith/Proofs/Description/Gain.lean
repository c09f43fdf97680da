import Docsmith.Description.Regions
import Docsmith.Proofs.Description.Attributes
import Docsmith.Proofs.Source.Gain

/-!
# Descriptions add to a text

* `gains_annotate`: new attributes add to a document;
* `gains_declareConstants`, `gains_declareIn`: so do new constants, in one region or in several.
-/

namespace Docsmith.Description

open Docsmith.Source

variable {o : MarkOptions}

/-! ## Attributes -/

theorem weight_of_mem_marks {source : String} {m : Mark} (h : m ∈ marks o (File.read source)) :
    m.edit.start = m.edit.stop ∧ 0 < weight m.edit.text := by
  obtain ⟨⟨hp, -⟩, -, attr, separator, ha, -, ht⟩ :=
    placed_of_mem_marks (File.sound_read source) h
  rw [ht]
  exact ⟨hp, weight_pos_of_mem (List.mem_append_left _ ha.pound_mem) (by decide)⟩

theorem gains_annotate (o : MarkOptions) (source : String) :
    (annotate o source).revision.Gains := by
  rw [annotate]
  dsimp only
  generalize hm : marks o (File.read source) = found
  have hw : ∀ m ∈ found, m.edit.start = m.edit.stop ∧ 0 < weight m.edit.text :=
    fun m h => weight_of_mem_marks (hm ▸ h)
  cases found with
  | nil =>
    left
    simp [Edit.applyAll_nil]
  | cons m ms =>
    right
    have h := @Edit.weight_applyAll_inserts source.toList ((m :: ms).map (·.edit))
      (by simpa using fun m h => (hw m h).1) (by simpa using fun m h => (hw m h).2)
    rw [List.length_map, List.length_cons] at h
    change weight source.toList < weight (String.toList (String.ofList _))
    rw [String.toList_ofList]
    omega

/-! ## Constants -/

theorem weight_regionBlock (indent : List Char) (region : String)
    (constants : List (String × String)) : 0 < weight (regionBlock indent region constants) := by
  have h : '/' ∈ "// region: ".toList := by decide
  refine weight_pos_of_mem (c := '/') ?_ (by decide)
  rw [regionBlock]
  refine List.mem_append_left _ (List.mem_append_left _ (List.mem_append_left _ ?_))
  refine List.mem_append_right _ ?_
  simp only [String.toList_append, List.mem_append]
  exact .inl h

/-- The impls of a type are nodes of the document. -/
theorem mem_nodes_of_ownImpls {f : File} {typeName : String} {list : Located}
    (h : (f.ownImpls typeName).getLast?.bind (·.child? .assocItemList) = some list) :
    list ∈ f.nodes := by
  obtain ⟨impl, hi, hl⟩ := Option.bind_eq_some_iff.1 h
  have hi := (List.mem_filter.1 (List.mem_of_getLast? hi)).1
  have hi := (List.mem_filter.1 hi).1
  exact Tree.mem_nodesFrom_of_mem_childNodes hi (Located.mem_childNodes_of_child? hl)

/-- If no constant is missing the text stays. Otherwise a block goes in front of the closing brace
of the last impl. -/
theorem declareConstants_ok {source typeName region : String} {constants : Table String String}
    {r : Revision} (h : declareConstants source typeName region constants = .ok r) :
    r.before = source ∧
      ((∀ c ∈ constants.entries, c.1 ∈ declared source typeName) ∧ r.after = source ∨
        (¬∀ c ∈ constants.entries, c.1 ∈ declared source typeName) ∧
        ∃ list closing outer block,
          ((File.read source).ownImpls typeName).getLast?.bind (·.child? .assocItemList) =
            some list ∧
          list.token? .rCurly = some closing ∧ 0 < weight block ∧
          r.after = String.ofList (Edit.applyAll source.toList
            [(File.read source).insertBlock closing.start outer block])) := by
  have hiff : (constants.entries.filter fun c =>
      !(declaredIn ((File.read source).ownImpls typeName)).contains c.1).isEmpty = true ↔
        ∀ c ∈ constants.entries, c.1 ∈ declared source typeName := by
    rw [List.isEmpty_iff, List.filter_eq_nil_iff, declared]
    simp
  unfold declareConstants at h
  dsimp only at h
  rw [← hiff]
  generalize constants.entries.filter _ = missing at h
  by_cases hne : missing.isEmpty = true
  · rw [if_pos hne] at h
    obtain rfl := Except.ok.inj h
    exact ⟨rfl, .inl ⟨hne, rfl⟩⟩
  · rw [if_neg hne] at h
    cases hl : ((File.read source).ownImpls typeName).getLast?.bind (·.child? .assocItemList) with
    | none =>
      rw [hl] at h
      nomatch h
    | some list =>
      rw [hl] at h
      dsimp only at h
      cases hc : list.token? .rCurly with
      | none =>
        rw [hc] at h
        nomatch h
      | some closing =>
        rw [hc] at h
        simp only [pure, Except.pure, Except.ok.injEq] at h
        subst h
        refine ⟨rfl, .inr ⟨hne, list, closing, _, _, rfl, hc, ?_, rfl⟩⟩
        have hw := weight_regionBlock
          ((list.members.head?.bind (File.read source).indentOf?).getD
            (indentAt source.toList closing.start ++ fourBlanks)) region missing
        rw [weight_append]
        omega

theorem gains_declareConstants {source typeName region : String}
    {constants : Table String String} {r : Revision}
    (h : declareConstants source typeName region constants = .ok r) :
    r.before = source ∧ r.Gains := by
  have hok := declareConstants_ok h
  obtain ⟨before, after⟩ := r
  dsimp only at hok
  obtain ⟨rfl, ⟨-, rfl⟩ | ⟨-, list, closing, outer, block, hl, hc, hw, rfl⟩⟩ := hok
  · exact ⟨rfl, .inl rfl⟩
  · exact ⟨rfl, gains_insertBlock (mem_nodes_of_ownImpls hl) hc hw⟩

theorem gains_declareEach {typeName : String} {regions : List (String × Table String String)}
    {done r : Revision} (h : Regions.declareEach typeName regions done = .ok r)
    (hd : done.Gains) : r.before = done.before ∧ r.Gains := by
  induction regions generalizing done with
  | nil =>
    obtain rfl := Except.ok.inj h
    exact ⟨rfl, hd⟩
  | cons region rest ih =>
    obtain ⟨name, constants⟩ := region
    rw [Regions.declareEach] at h
    cases hs : declareConstants done.after typeName name constants with
    | error e =>
      rw [hs] at h
      nomatch h
    | ok step =>
      rw [hs] at h
      change Regions.declareEach typeName rest ⟨done.before, step.after⟩ = .ok r at h
      obtain ⟨hb, hg⟩ := gains_declareConstants hs
      obtain ⟨hb', hg'⟩ := ih h (hd.trans hg hb)
      exact ⟨hb', hg'⟩

theorem gains_declareIn {regions : Regions} {source typeName : String} {r : Revision}
    (h : regions.declareIn source typeName = .ok r) : r.before = source ∧ r.Gains :=
  gains_declareEach h (Revision.gains_unchanged source)

end Docsmith.Description
