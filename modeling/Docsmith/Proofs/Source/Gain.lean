import Docsmith.Proofs.Source.Layout
import Docsmith.Proofs.Source.Registration
import Docsmith.Source.Imports

/-!
# Changes add to a text

What a change of a document replaces is blank, and what it puts there is not. So a document that
has been changed weighs more than before, however many changes it has seen.

* `Edit.weight_apply`: an edit that replaces blanks adds what its text weighs;
* `gains_insertBlock`: so does a block in front of a closing token;
* `gains_addImports`, `gains_registerTypes`: new imports and new entries of a registry.
-/

namespace Docsmith.Source

/-- How many characters of a text are not blank. -/
def weight (cs : List Char) : Nat := (solid cs).length

theorem weight_append (cs ds : List Char) : weight (cs ++ ds) = weight cs + weight ds := by
  rw [weight, solid, List.filter_append, List.length_append]
  rfl

theorem weight_pos_of_mem {c : Char} {cs : List Char} (hc : c ∈ cs)
    (hb : Lexer.isBlank c = false) : 0 < weight cs :=
  List.length_pos_of_mem (List.mem_filter.2 ⟨hc, by rw [hb]; rfl⟩)

namespace Edit

variable {cs : List Char} {e : Edit} {es : List Edit}

/-- An edit that replaces nothing but blanks adds what its text weighs. -/
theorem weight_apply (he : e.start ≤ e.stop) (hr : solid (e.replaced cs) = []) :
    weight (e.apply cs) = weight cs + weight e.text := by
  have hcut : cs = cs.take e.start ++ (e.replaced cs ++ cs.drop e.stop) := by
    have h := List.take_append_drop (e.stop - e.start) (cs.drop e.start)
    rw [List.drop_drop, show e.start + (e.stop - e.start) = e.stop by omega] at h
    rw [replaced, h, List.take_append_drop]
  have hw : weight cs = weight (cs.take e.start) + weight (cs.drop e.stop) := by
    conv_lhs => rw [hcut, weight_append, weight_append]
    rw [show weight (e.replaced cs) = 0 by rw [weight, hr]; rfl, Nat.zero_add]
  rw [apply, weight_append, weight_append, hw]
  omega

theorem weight_apply_insert (he : e.start = e.stop) :
    weight (e.apply cs) = weight cs + weight e.text := by
  refine weight_apply (Nat.le_of_eq he) ?_
  rw [replaced, he, Nat.sub_self, List.take_zero]
  rfl

theorem applyAll_singleton (cs : List Char) (e : Edit) : applyAll cs [e] = e.apply cs := by
  rw [applyAll, sorted, List.mergeSort_singleton]
  rfl

/-- Each of several insertions adds to a text. -/
theorem weight_applyAll_inserts (hs : ∀ e ∈ es, e.start = e.stop)
    (hp : ∀ e ∈ es, 0 < weight e.text) :
    weight cs + es.length ≤ weight (applyAll cs es) := by
  have hperm : (sorted es).reverse.Perm es :=
    (List.reverse_perm _).trans (List.mergeSort_perm es _)
  have hs' : ∀ e ∈ (sorted es).reverse, e.start = e.stop :=
    fun e he => hs e (hperm.mem_iff.1 he)
  have hp' : ∀ e ∈ (sorted es).reverse, 0 < weight e.text :=
    fun e he => hp e (hperm.mem_iff.1 he)
  rw [applyAll, ← hperm.length_eq]
  generalize (sorted es).reverse = ss at hs' hp'
  induction ss generalizing cs with
  | nil => exact Nat.le_refl _
  | cons e ss ih =>
    have hw := @weight_apply_insert cs e (hs' e (List.mem_cons_self ..))
    have he := hp' e (List.mem_cons_self ..)
    have hss := @ih (e.apply cs) (fun d hd => hs' d (List.mem_cons_of_mem _ hd))
      (fun d hd => hp' d (List.mem_cons_of_mem _ hd))
    rw [List.foldl_cons, List.length_cons]
    omega

end Edit

/-! ## Revisions -/

namespace Revision

/-- The text is what it was, or weighs more. -/
def Gains (r : Revision) : Prop :=
  r.after = r.before ∨ weight r.before.toList < weight r.after.toList

variable {r : Revision}

theorem gains_unchanged (source : String) : (unchanged source).Gains := .inl rfl

theorem Gains.le (h : r.Gains) : weight r.before.toList ≤ weight r.after.toList := by
  rcases h with h | h
  · rw [h]
  · exact Nat.le_of_lt h

theorem Gains.lt (h : r.Gains) (hd : r.differs = true) :
    weight r.before.toList < weight r.after.toList := by
  rcases h with h | h
  · rw [differs, h] at hd
    simp at hd
  · exact h

/-- A change of what another change has left. -/
theorem Gains.trans {s : Revision} (hr : r.Gains) (hs : s.Gains) (h : s.before = r.after) :
    Gains ⟨r.before, s.after⟩ := by
  have hle := hr.le
  rcases hs with hs | hs
  · rw [hs, h]
    exact hr
  · rw [h] at hs
    exact .inr (Nat.lt_of_le_of_lt hle hs)

/-- Making an edit that replaces blanks by something else. -/
theorem gains_edit {source : String} {e : Edit} (he : e.start ≤ e.stop)
    (hr : solid (e.replaced source.toList) = []) (hw : 0 < weight e.text) :
    Gains ⟨source, String.ofList (Edit.applyAll source.toList [e])⟩ := by
  refine .inr ?_
  change weight source.toList < _
  rw [Edit.applyAll_singleton, String.toList_ofList, Edit.weight_apply he hr]
  omega

end Revision

/-! ## Blocks -/

namespace File

variable {f : File} {l : Located} {kind : TokenKind} {a : Leaf}

theorem mem_leaves_of_token? (hl : l ∈ f.nodes) (h : l.token? kind = some a) :
    some a ∈ f.leaves := by
  rw [f.leaves_eq]
  exact Tree.mem_leavesFrom_of_mem_ownLeaves hl (Located.mem_ownLeaves_of_token? h).1

theorem weight_insertBlock (f : File) (closing : Nat) (outer block : List Char) :
    weight block ≤ weight (f.insertBlock closing outer block).text := by
  have h : weight block ≤ weight (block ++ '\n' :: outer) := by
    rw [weight_append]
    omega
  rw [insertBlock]
  split
  · split
    · exact Nat.le_refl _
    · exact h
  · exact h

end File

/-- The items of a list are not blank: each has a comma behind it. -/
theorem weight_items {items : List (List Char)} (h : items ≠ []) (comma indent : List Char) :
    0 < weight (comma ++ items.flatMap fun item => '\n' :: indent ++ item ++ [',']) := by
  obtain ⟨item, items, rfl⟩ := List.exists_cons_of_ne_nil h
  exact weight_pos_of_mem (c := ',') (by simp) (by decide)

/-- A block in front of a closing token adds to a document. -/
theorem gains_insertBlock {source : String} {l : Located} {kind : TokenKind} {closing : Leaf}
    {outer block : List Char} (hl : l ∈ (File.read source).nodes)
    (h : l.token? kind = some closing) (hw : 0 < weight block) :
    Revision.Gains ⟨source, String.ofList (Edit.applyAll source.toList
      [(File.read source).insertBlock closing.start outer block])⟩ := by
  have hf := File.fronts_insertBlock (File.sound_read source) (File.mem_leaves_of_token? hl h)
    outer block
  have hb := hf.blank
  rw [File.text_read] at hb
  have hle := File.weight_insertBlock (File.read source) closing.start outer block
  exact Revision.gains_edit hf.start_le hb (by omega)

/-! ## Imports and registries -/

/-- What stands directly inside a tree ends within it. -/
theorem stop_le_of_mem_locate {n : Nat} {ts : List Tree} {c : Located}
    (h : c ∈ Located.locate n ts) : c.stop ≤ n + Tree.widthAll ts := by
  induction ts generalizing n with
  | nil => simp [Located.locate] at h
  | cons t ts ih =>
    rw [Tree.widthAll]
    rcases List.mem_cons.1 h with rfl | h
    · simp only [Located.stop]
      omega
    · have := ih h
      omega

theorem stop_le_of_mem_imports {f : File} {c : Located} (h : c ∈ f.imports) :
    c.stop ≤ f.tree.text.length := by
  have hc := (List.mem_filter.1 h).1
  rw [Located.children, File.root] at hc
  rw [Tree.length_text]
  cases ht : f.tree with
  | token kind text => simp [ht] at hc
  | node kind cs =>
    rw [ht] at hc
    rw [Tree.width, ← Nat.zero_add (Tree.widthAll cs)]
    exact stop_le_of_mem_locate hc

theorem newImports_eq_nil_iff {known imports : List String} :
    newImports known imports = [] ↔
      ∀ i ∈ imports, importedName i = "" ∨ Text.toLower (importedName i) ∈ known := by
  induction imports with
  | nil => simp [newImports]
  | cons i rest ih =>
    rw [newImports, List.forall_mem_cons]
    split <;> simp_all

/-- If no import is missing the text stays. Otherwise imports are put in at one place. -/
theorem addImports_cases (source : String) (imports : List String) :
    (addImports source imports).before = source ∧
      (newImports ((File.read source).importTrees.map Text.toLower) imports = [] ∧
          (addImports source imports).after = source ∨
        newImports ((File.read source).importTrees.map Text.toLower) imports ≠ [] ∧
        ∃ position text, position ≤ source.toList.length ∧ 0 < weight text ∧
          (addImports source imports).after =
            String.ofList (Edit.applyAll source.toList [.insert position text])) := by
  have hu : 'u' ∈ "\nuse ".toList ∧ 'u' ∈ "use ".toList := by decide
  rw [addImports]
  dsimp only
  generalize hm : newImports _ imports = missing
  split
  · rename_i he
    exact ⟨rfl, .inl ⟨List.isEmpty_iff.1 he, rfl⟩⟩
  · rename_i he
    have hne : missing ≠ [] := by simpa using he
    obtain ⟨p, hp⟩ := List.exists_mem_of_ne_nil _ hne
    refine ⟨rfl, .inr ⟨hne, ?_⟩⟩
    split
    · rename_i last hlast
      refine ⟨last.stop, _, ?_, ?_, rfl⟩
      · rw [← File.text_read source]
        exact stop_le_of_mem_imports (List.mem_of_getLast? hlast)
      · refine weight_pos_of_mem (c := 'u') (List.mem_flatMap.2 ⟨p, hp, ?_⟩) (by decide)
        simpa using .inl hu.1
    · refine ⟨0, _, Nat.zero_le _, ?_, rfl⟩
      refine weight_pos_of_mem (c := 'u') (List.mem_flatMap.2 ⟨p, hp, ?_⟩) (by decide)
      simpa using .inl hu.2

theorem before_addImports (source : String) (imports : List String) :
    (addImports source imports).before = source := (addImports_cases source imports).1

theorem gains_addImports (source : String) (imports : List String) :
    (addImports source imports).Gains := by
  have h := addImports_cases source imports
  generalize addImports source imports = r at h
  obtain ⟨before, after⟩ := r
  dsimp only at h
  obtain ⟨rfl, ⟨-, rfl⟩ | ⟨-, position, text, -, hw, rfl⟩⟩ := h
  · exact .inl rfl
  · exact Revision.gains_edit (Nat.le_refl _) (by simp [Edit.replaced, Edit.insert, solid]) hw

/-- What is found to be the array of a registry is a node of the document. -/
theorem mem_nodes_of_registryArray? {f : File} {binding : String} {array : Located}
    (h : registryArray? f binding = some array) : array ∈ f.nodes := by
  rw [registryArray?] at h
  obtain ⟨l, hl, h⟩ := List.exists_of_findSome?_eq_some h
  exact Tree.mem_nodesFrom_of_mem_nodes (List.mem_filter.1 hl).1 (List.mem_of_find?_eq_some h)

/-- If no type is missing the text stays. Otherwise a block goes in front of the closing bracket of
the array. -/
theorem registerTypes_ok {source binding : String} {types : List String} {r : Revision}
    (h : registerTypes source binding types = .ok r) :
    r.before = source ∧ ∃ array, registryArray? (File.read source) binding = some array ∧
      (newEntries (knownNames array) types = [] ∧ r.after = source ∨
        newEntries (knownNames array) types ≠ [] ∧ ∃ closing outer block,
          array.token? .rBrack = some closing ∧ 0 < weight block ∧
          r.after = String.ofList (Edit.applyAll source.toList
            [(File.read source).insertBlock closing.start outer block])) := by
  rw [registerTypes_eq] at h
  split at h
  · rename_i array ha
    obtain ⟨hbefore, ⟨hi, hafter⟩ | ⟨hi, closing, hc, hafter⟩⟩ := extended_eq_ok h
    · exact ⟨hbefore, array, ha, .inl ⟨hi, hafter⟩⟩
    · rw [extension, File.appendItems] at hafter
      exact ⟨hbefore, array, ha, .inr ⟨hi, closing, _, _, hc, weight_items hi .., hafter⟩⟩
  · nomatch h

theorem gains_registerTypes {source binding : String} {types : List String} {r : Revision}
    (h : registerTypes source binding types = .ok r) : r.before = source ∧ r.Gains := by
  have hok := registerTypes_ok h
  obtain ⟨before, after⟩ := r
  dsimp only at hok
  obtain ⟨rfl, array, ha, ⟨-, rfl⟩ | ⟨-, closing, outer, block, hc, hw, rfl⟩⟩ := hok
  · exact ⟨rfl, .inl rfl⟩
  · exact ⟨rfl, gains_insertBlock (mem_nodes_of_registryArray? ha) hc hw⟩

end Docsmith.Source
