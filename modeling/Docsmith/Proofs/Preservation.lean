import Docsmith.Proofs.Description.Gain
import Docsmith.Proofs.Example.Literal
import Docsmith.Proofs.Source.Rewriting

/-!
# What lists keep when they grow

New constants, imports, registered types and fields are put into a document, and make room for
themselves at most in the blanks in front of a closing bracket or of the dots of a base expression.
All else stays, in its order; and if nothing is missing, all stays.

* `Fills`: what may happen to a document;
* `rewrites_declareConstants`, `rewrites_addImports`, `rewrites_registerTypes`,
  `rewrites_populate`: nothing else happens to it;
* `lists_preserve`: the four together.
-/

namespace Docsmith

open Docsmith.Source Docsmith.Text

/-! ## Filling room -/

namespace Source

/-- Blanks without a line break, directly in front of a closing bracket or of two dots directly
inside one of the lists. -/
def Room (f : File) (lists : List Located) (n : Nat) (old : List Char) : Prop :=
  ∃ list ∈ lists, ∃ a ∈ list.ownLeaves, a.kind ∈ [.rCurly, .rBrack, .dot2] ∧ f.RoomBefore a n old

/-- An edit puts in a text that is not blank, or puts it in the place of blanks in front of a
closing token of a list. -/
structure Fills (f : File) (lists : List Located) (e : Edit) (n : Nat) (old new : List Char) :
    Prop where
  edit : e = ⟨n, n + old.length, new⟩
  room : old = [] ∨ Room f lists n old
  solid : ∃ c ∈ new, Lexer.isBlank c = false

/-- Edits that fill room in the lists of a document turn it into the new text. -/
def Filled (source : String) (lists : List Located) (es : List Edit) (after : String) : Prop :=
  Rewrites (Fills (File.read source) lists) 0 source.toList es after.toList

theorem Filled.refl (source : String) (lists : List Located) : Filled source lists [] source :=
  Rewrites.refl 0 source.toList

variable {f : File} {lists : List Located} {es : List Edit}

theorem Room.blank (hs : f.tree.Sound) {n : Nat} {old : List Char} (h : Room f lists n old) :
    solid old = [] := by
  obtain ⟨list, -, a, -, -, gap, hk, -, rfl, -, hp⟩ := h
  exact solid_eq_nil.2 ((Tree.fits_of_mem_leavesFrom hs hp.mem_left).blank hk)

/-- Every edit that fills room adds to a text. -/
theorem weight_of_rewrites (hs : f.tree.Sound) {n : Nat} {cs ds : List Char}
    (h : Rewrites (Fills f lists) n cs es ds) : weight cs + es.length ≤ weight ds := by
  induction h with
  | done n => exact Nat.le_refl _
  | @keep _ cs ds _ c _ ih =>
    rw [← List.singleton_append, weight_append, ← List.singleton_append (l := ds), weight_append]
    omega
  | @replace _ cs ds old new e es hf _ ih =>
    have hold : weight old = 0 := by
      rcases hf.room with rfl | hr
      · rfl
      · rw [weight, hr.blank hs, List.length_nil]
    obtain ⟨c, hc, hb⟩ := hf.solid
    have hnew := weight_pos_of_mem hc hb
    rw [weight_append, weight_append, List.length_cons]
    omega

/-- A text that no edit fills stays, and only that does. -/
theorem eq_iff_of_rewrites (hs : f.tree.Sound) {n : Nat} {cs ds : List Char}
    (h : Rewrites (Fills f lists) n cs es ds) : ds = cs ↔ es = [] := by
  refine ⟨fun he => ?_, fun he => ?_⟩
  · have hw := weight_of_rewrites hs h
    rw [he] at hw
    exact List.length_eq_zero_iff.1 (by omega)
  · subst he
    exact h.eq_of_nil

theorem Filled.eq_iff {source after : String} (h : Filled source lists es after) :
    after = source ↔ es = [] :=
  String.toList_inj.symm.trans (eq_iff_of_rewrites (File.sound_read source) h)

/-- Edits in order that fill room make a filled text. -/
theorem rewrites_of_inOrder (ho : Edit.InOrder f.tree.text.length 0 (Edit.sorted es))
    (hf : ∀ e ∈ es, Fills f lists e e.start (e.replaced f.tree.text) e.text) :
    ∃ made : List Edit, made.Perm es ∧
      Rewrites (Fills f lists) 0 f.tree.text made (Edit.applyAll f.tree.text es) := by
  have h := @rewrites_applyAll _ (Fills f lists) id f.tree.text es (by rwa [List.map_id]) hf
  rwa [List.map_id] at h

theorem edit_eq {cs : List Char} {e : Edit} (he : e.start ≤ e.stop ∧ e.stop ≤ cs.length) :
    e = ⟨e.start, e.start + (e.replaced cs).length, e.text⟩ := by
  have hlen : (e.replaced cs).length = e.stop - e.start := by
    rw [Edit.replaced, List.length_take, List.length_drop]
    omega
  rw [hlen, show e.start + (e.stop - e.start) = e.stop by omega]

/-- A block in front of a closing token of a list fills room there. -/
theorem fills_insertBlock (hs : f.tree.Sound) {list : Located} {a : Leaf} (hl : list ∈ f.nodes)
    (hlist : list ∈ lists) (ha : a ∈ list.ownLeaves) (hk : a.kind ∈ [.rCurly, .rBrack, .dot2])
    {block : List Char} (hw : 0 < weight block) (outer : List Char) :
    ((f.insertBlock a.start outer block).start ≤ (f.insertBlock a.start outer block).stop ∧
        (f.insertBlock a.start outer block).stop ≤ f.tree.text.length) ∧
      Fills f lists (f.insertBlock a.start outer block) (f.insertBlock a.start outer block).start
        ((f.insertBlock a.start outer block).replaced f.tree.text)
        (f.insertBlock a.start outer block).text := by
  have hmem : some a ∈ f.leaves := by
    rw [f.leaves_eq]
    exact Tree.mem_leavesFrom_of_mem_ownLeaves hl ha
  have hw := Nat.lt_of_lt_of_le hw (File.weight_insertBlock f a.start outer block)
  obtain ⟨hstart, hstop, hroom⟩ := File.insertBlock_cases hs hmem outer block
  generalize f.insertBlock a.start outer block = e at hw hstart hstop hroom
  refine ⟨⟨hstart, hstop⟩, edit_eq ⟨hstart, hstop⟩, ?_, ?_⟩
  · exact hroom.imp_right fun h => ⟨list, hlist, a, ha, hk, h⟩
  · obtain ⟨c, hc⟩ := List.exists_mem_of_length_pos hw
    obtain ⟨hc, hb⟩ := List.mem_filter.1 hc
    exact ⟨c, hc, by simpa using hb⟩

/-- A block in front of a closing token of a list makes a filled text. -/
theorem rewrites_insertBlock (hs : f.tree.Sound) {list : Located} {a : Leaf} (hl : list ∈ f.nodes)
    (hlist : list ∈ lists) (ha : a ∈ list.ownLeaves) (hk : a.kind ∈ [.rCurly, .rBrack, .dot2])
    {block : List Char} (hw : 0 < weight block) (outer : List Char) :
    ∃ e, Rewrites (Fills f lists) 0 f.tree.text [e]
      (Edit.applyAll f.tree.text [f.insertBlock a.start outer block]) := by
  obtain ⟨he, hf⟩ := fills_insertBlock hs hl hlist ha hk hw outer
  exact ⟨_, rewrites_edit he hf⟩

end Source

/-! ## Constants and registered types -/

open Description in
/-- Declaring constants fills room in the last impl. -/
theorem filled_declareConstants {source typeName region : String}
    {constants : Table String String} {r : Revision}
    (h : declareConstants source typeName region constants = .ok r) :
    ∃ es, Filled source
        (((File.read source).ownImpls typeName).getLast?.bind (·.child? .assocItemList)).toList
        es r.after ∧
      (es = [] ↔ ∀ c ∈ constants.entries, c.1 ∈ declared source typeName) := by
  obtain ⟨-, ⟨hd, ha⟩ | ⟨hd, list, closing, outer, block, hl, hc, hw, ha⟩⟩ := declareConstants_ok h
  · exact ⟨[], by rw [ha]; exact .refl _ _, iff_of_true rfl hd⟩
  · obtain ⟨hown, hk⟩ := Located.mem_ownLeaves_of_token? hc
    obtain ⟨e, hr⟩ := rewrites_insertBlock (File.sound_read source) (mem_nodes_of_ownImpls hl)
      (List.mem_singleton_self list) hown (by rw [hk]; decide) hw outer
    rw [File.text_read] at hr
    rw [hl, ha]
    refine ⟨[e], ?_, iff_of_false (List.cons_ne_nil _ _) hd⟩
    rw [Filled, String.toList_ofList]
    exact hr

theorem newEntries_eq_nil_iff {known : List (List Char)} {types : List String} :
    newEntries known types = [] ↔ ∀ t ∈ types, registeredName (entryText t) ∈ known := by
  induction types with
  | nil => simp [newEntries]
  | cons t rest ih =>
    rw [newEntries, List.forall_mem_cons]
    split <;> simp_all

/-- Registering types fills room in the array. -/
theorem filled_registerTypes {source binding : String} {types : List String} {r : Revision}
    (h : registerTypes source binding types = .ok r) :
    ∃ array es, registryArray? (File.read source) binding = some array ∧
      Filled source [array] es r.after ∧
      (es = [] ↔ ∀ t ∈ types, ∃ e ∈ elements array,
        registeredName e.chars = registeredName (entryText t)) := by
  obtain ⟨-, array, harray, hok⟩ := registerTypes_ok h
  simp only [Ne, newEntries_eq_nil_iff, knownNames, List.mem_map] at hok
  refine ⟨array, ?_⟩
  obtain ⟨hd, ha⟩ | ⟨hd, closing, outer, block, hc, hw, ha⟩ := hok
  · exact ⟨[], harray, by rw [ha]; exact .refl _ _, iff_of_true rfl hd⟩
  · obtain ⟨hown, hk⟩ := Located.mem_ownLeaves_of_token? hc
    obtain ⟨e, hr⟩ := rewrites_insertBlock (File.sound_read source)
      (mem_nodes_of_registryArray? harray) (List.mem_singleton_self array) hown
      (by rw [hk]; decide) hw outer
    rw [File.text_read] at hr
    refine ⟨[e], harray, ?_, iff_of_false (List.cons_ne_nil _ _) hd⟩
    rw [Filled, ha, String.toList_ofList]
    exact hr

/-! ## Imports -/

/-- Adding imports puts them in, behind the last import or at the top. -/
theorem filled_addImports (source : String) (imports : List String) :
    ∃ es, Filled source [] es (addImports source imports).after ∧
      (es = [] ↔ ∀ i ∈ imports, importedName i = "" ∨
        ∃ t ∈ (File.read source).importTrees, toLower t = toLower (importedName i)) := by
  have hcases := (addImports_cases source imports).2
  simp only [Ne, newImports_eq_nil_iff, List.mem_map] at hcases
  obtain ⟨hd, ha⟩ | ⟨hd, position, text, hp, hw, ha⟩ := hcases
  · exact ⟨[], by rw [ha]; exact .refl _ _, iff_of_true rfl hd⟩
  · have hput : Fills (File.read source) [] (.insert position text) position [] text := by
      obtain ⟨c, hc⟩ := List.exists_mem_of_length_pos hw
      obtain ⟨hc, hb⟩ := List.mem_filter.1 hc
      exact ⟨rfl, .inl rfl, c, hc, by simpa using hb⟩
    have h : Rewrites (Fills (File.read source) []) 0 source.toList [.insert position text] _ :=
      rewrites_edit ⟨Nat.le_refl _, hp⟩ (by simpa [Edit.replaced, Edit.insert] using hput)
    refine ⟨[.insert position text], ?_, iff_of_false (List.cons_ne_nil _ _) hd⟩
    rw [Filled, ha, String.toList_ofList]
    exact h

/-! ## Fields -/

open Example

theorem renderFields_eq_nil_iff {model : String} {fields : List Field} {s : Synthesizer} :
    (renderFields model fields s).1 = [] ↔ fields = [] := by
  cases fields <;> simp [renderFields]

/-- Literals stay as they are if none of them has room for a field it lacks. -/
theorem completions_eq_nil_iff {f : File} {source : List Char} {model : String}
    {fields : List Field} {lists : List Located} {s : Synthesizer} :
    (completions f source model fields lists s).1 = [] ↔ ∀ list ∈ lists,
      fieldAnchor? list = none ∨ ∀ x ∈ fields, x.name ∈ presentFields list := by
  induction lists generalizing s with
  | nil => simp [completions]
  | cons list rest ih =>
    have hlacks : (fields.filter fun x => !(presentFields list).contains x.name) = [] ↔
        ∀ x ∈ fields, x.name ∈ presentFields list := by
      rw [List.filter_eq_nil_iff]
      simp
    have hrender := @renderFields_eq_nil_iff model
      (fields.filter fun x => !(presentFields list).contains x.name) s
    rw [completions, List.forall_mem_cons, ← hlacks, ← hrender]
    dsimp only
    generalize renderFields model _ s = rendered
    obtain ⟨items, s'⟩ := rendered
    dsimp only
    split
    · simp [ih]
    · rename_i ha
      simp [ha, ih]
    · rename_i hne ha
      simpa [ha] using fun h => absurd h hne

/-- The edits for literals fill room in their lists of fields. -/
theorem rewrites_completions {f : File} (hs : f.tree.Sound) (source : List Char) (model : String)
    (fields : List Field) (s : Synthesizer) :
    ∃ made : List Edit,
      made.Perm (completions f source model fields (literalLists f model) s).1 ∧
      Rewrites (Fills f (literalLists f model)) 0 f.tree.text made
        (Edit.applyAll f.tree.text
          (completions f source model fields (literalLists f model) s).1) := by
  have hanchors (a : Leaf) (ha : a ∈ (literalLists f model).filterMap fieldAnchor?) :=
    mem_leavesFrom_of_mem_anchors ha
  have hap : (completions f source model fields (literalLists f model) s).1.Pairwise Edit.Apart :=
    pairwise_apart_completions hs hanchors (nodup_anchors hs model) s
  have hfills (e : Edit)
      (he : e ∈ (completions f source model fields (literalLists f model) s).1) :
      (e.start ≤ e.stop ∧ e.stop ≤ f.tree.text.length) ∧
        Fills f (literalLists f model) e e.start (e.replaced f.tree.text) e.text := by
    obtain ⟨list, hlist, a, items, inner, ha, hne, rfl⟩ := mem_completions he
    obtain ⟨hown, hk⟩ := mem_ownLeaves_of_fieldAnchor? ha
    exact fills_insertBlock hs (mem_nodes_of_mem_literalLists hlist) hlist hown
      (by rcases hk with hk | hk <;> rw [hk] <;> decide) (weight_items hne ..) _
  exact rewrites_of_inOrder (Edit.inOrder_sorted (fun e he => (hfills e he).1) hap)
    fun e he => (hfills e he).2

theorem before_populate (source model : String) (fields : List Field) (s : Synthesizer) :
    (populate source model fields s).1.before = source := by
  rw [populate]

/-- Completing literals fills room in their lists of fields. -/
theorem filled_populate (source model : String) (fields : List Field) (s : Synthesizer) :
    ∃ es, Filled source (literalLists (File.read source) model) es
        (populate source model fields s).1.after ∧
      (es = [] ↔ ∀ list ∈ literalLists (File.read source) model, fieldAnchor? list = none ∨
        ∀ x ∈ fields, x.name ∈ presentFields list) := by
  obtain ⟨made, hperm, h⟩ := rewrites_completions (File.sound_read source) source.toList model
    fields s
  rw [File.text_read] at h
  refine ⟨made, ?_, ?_⟩
  · rw [Filled, populate, String.toList_ofList]
    exact h
  · rw [← @completions_eq_nil_iff (File.read source) source.toList model fields _ s]
    exact ⟨fun hn => (hn ▸ hperm).nil_eq.symm, fun hn => (hn ▸ hperm).eq_nil⟩

/-! ## The four together -/

/-- What lists get is put in, in the place of blanks at most; if nothing is missing the text stays,
and only then. -/
theorem lists_preserve :
    (∀ (source typeName region : String) (constants : Table String String) (r : Revision),
      Description.declareConstants source typeName region constants = .ok r →
      r.before = source ∧
      (∃ es, Filled source
        (((File.read source).ownImpls typeName).getLast?.bind (·.child? .assocItemList)).toList
        es r.after) ∧
      (r.after = source ↔ ∀ c ∈ constants.entries, c.1 ∈ Description.declared source typeName)) ∧
    (∀ (source : String) (imports : List String),
      (addImports source imports).before = source ∧
      (∃ es, Filled source [] es (addImports source imports).after) ∧
      ((addImports source imports).after = source ↔ ∀ i ∈ imports, importedName i = "" ∨
        ∃ t ∈ (File.read source).importTrees, toLower t = toLower (importedName i))) ∧
    (∀ (source binding : String) (types : List String) (r : Revision),
      registerTypes source binding types = .ok r →
      r.before = source ∧ ∃ array, registryArray? (File.read source) binding = some array ∧
        (∃ es, Filled source [array] es r.after) ∧
        (r.after = source ↔ ∀ t ∈ types, ∃ e ∈ elements array,
          registeredName e.chars = registeredName (entryText t))) ∧
    ∀ (source model : String) (fields : List Field) (s : Synthesizer),
      (populate source model fields s).1.before = source ∧
      (∃ es, Filled source (literalLists (File.read source) model) es
        (populate source model fields s).1.after) ∧
      ((populate source model fields s).1.after = source ↔
        ∀ list ∈ literalLists (File.read source) model, fieldAnchor? list = none ∨
          ∀ x ∈ fields, x.name ∈ presentFields list) := by
  refine ⟨fun source typeName region constants r h => ?_, fun source imports => ?_,
    fun source binding types r h => ?_, fun source model fields s => ?_⟩
  · obtain ⟨es, hf, hn⟩ := filled_declareConstants h
    exact ⟨(Description.declareConstants_ok h).1, ⟨es, hf⟩, hf.eq_iff.trans hn⟩
  · obtain ⟨es, hf, hn⟩ := filled_addImports source imports
    exact ⟨before_addImports source imports, ⟨es, hf⟩, hf.eq_iff.trans hn⟩
  · obtain ⟨array, es, ha, hf, hn⟩ := filled_registerTypes h
    exact ⟨(registerTypes_ok h).1, array, ha, ⟨es, hf⟩, hf.eq_iff.trans hn⟩
  · obtain ⟨es, hf, hn⟩ := filled_populate source model fields s
    exact ⟨before_populate source model fields s, ⟨es, hf⟩, hf.eq_iff.trans hn⟩

/-- An impl and an array on one line, and what becomes of them. -/
def tightImpl : Revision where
  before := "impl D\x7bfn f()\x7b\x7d\x7d"
  after := "impl D\x7bfn f()\x7b\x7d\n\n    // region: R\n" ++
    "    pub const A: &str = \"a\";\n    // endregion: R\n\x7d"

@[inherit_doc tightImpl]
def tightArray : Revision where
  before := "static T: X = [a];"
  after := "static T: X = [a,\n    TypeId::of::<B>(),\n];"

/-- A new constant and a new entry are put in front of the bracket. -/
theorem lists_preserve_tight :
    Description.declareConstants tightImpl.before "D" "R" ⟨[("A", "a")], by decide⟩ =
      .ok tightImpl ∧
    registerTypes tightArray.before "T" ["B"] = .ok tightArray ∧
    (¬∀ c ∈ [("A", "a")], c.1 ∈ Description.declared tightImpl.before "D") ∧
    ∃ list, registryArray? (File.read tightArray.before) "T" = some list ∧
      ∃ es, Filled tightArray.before [list] es tightArray.after := by
  obtain ⟨hconstants, -, htypes, -⟩ := lists_preserve
  have hc : Description.declareConstants tightImpl.before "D" "R" ⟨[("A", "a")], by decide⟩ =
      .ok tightImpl := by
    decide +kernel
  have ht : registerTypes tightArray.before "T" ["B"] = .ok tightArray := by decide +kernel
  obtain ⟨-, -, hiff⟩ := hconstants _ _ _ _ _ hc
  obtain ⟨-, list, hlist, hf, -⟩ := htypes _ _ _ _ ht
  have hne : tightImpl.after ≠ tightImpl.before := by decide
  exact ⟨hc, ht, fun h => hne (hiff.2 h), list, hlist, hf⟩

end Docsmith
