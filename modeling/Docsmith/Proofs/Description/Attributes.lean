import Docsmith.Description.Annotation
import Docsmith.Proofs.Source.Rewriting

/-!
# New attributes

New attributes are put into a document in front of fields and parameters, and nothing else happens
to it. The constants they name are told once each, and none are told of a document that stays as it
is.

* `placed_of_mem_marks`: what a new attribute is, and where it goes;
* `annotate_inserts`: what becomes of the document;
* `annotate_unfinished_twice`: a document that becomes more each time.
-/

namespace Docsmith

open Docsmith.Source Docsmith.Naming Docsmith.Text

/-! ## Where attributes go -/

namespace Description

/-- One blank, or a line break with an indentation. -/
inductive IsSeparator : List Char → Prop
  | blank : IsSeparator [' ']
  | line {indent : List Char} : (∀ c ∈ indent, Lexer.isBlank c = true ∧ c ≠ '\n') →
      IsSeparator ('\n' :: indent)

/-- An attribute for a field or a parameter that names a constant of a type. -/
inductive IsAttribute (type constant : String) : List Char → Prop
  | field : IsAttribute type constant s!"#[schema(description = {type}::{constant})]".toList
  | parameter : IsAttribute type constant s!"#[param(description = {type}::{constant})]".toList
  | required :
      IsAttribute type constant
        s!"#[param(description = {type}::{constant}, required = true)]".toList

/-- An attribute with what separates it from the declaration is put where nothing was. -/
def Describes (o : MarkOptions) (constant : String) (_ : Nat) (old new : List Char) : Prop :=
  old = [] ∧ ∃ attr separator, IsAttribute o.descriptionsType constant attr ∧
    IsSeparator separator ∧ new = attr ++ separator

variable {o : MarkOptions} {f : File}

theorem IsAttribute.pound_mem {type constant : String} {attr : List Char}
    (h : IsAttribute type constant attr) : '#' ∈ attr := by
  cases h with
  | field =>
    have h : '#' ∈ "#[schema(description = ".toList := by decide
    simpa using .inl h
  | parameter =>
    have h : '#' ∈ "#[param(description = ".toList := by decide
    simpa using .inl h
  | required =>
    have h : '#' ∈ "#[param(description = ".toList := by decide
    simpa using .inl h

theorem isAttribute_parameterAttr (o : MarkOptions) (constant : String) (required : Bool) :
    IsAttribute o.descriptionsType constant (parameterAttr o constant required) := by
  cases required with
  | false =>
    have h : parameterAttr o constant false =
        s!"#[param(description = {o.descriptionsType}::{constant})]".toList := by
      simp [parameterAttr, toString]
    exact h ▸ .parameter
  | true =>
    have h : parameterAttr o constant true =
        s!"#[param(description = {o.descriptionsType}::{constant}, required = true)]".toList := by
      simp [parameterAttr, toString]
    exact h ▸ .required

/-- The indentation of a line is blank. -/
theorem isSeparator_of_breakIndent? (hs : f.tree.Sound) {position : Nat} {indent : List Char}
    (h : f.breakIndent? position = some indent) : IsSeparator ('\n' :: indent) := by
  rw [File.breakIndent?] at h
  split at h
  · rename_i l hl
    split at h
    · rename_i hk
      have hmem : some l ∈ f.leaves := by
        rw [File.previous?, Option.join_eq_some_iff] at hl
        rw [File.before] at hl
        exact (List.takeWhile_prefix _).mem (List.mem_reverse.1 (List.mem_of_mem_head? hl))
      have hblank := (Tree.fits_of_mem_leavesFrom hs (f.leaves_eq ▸ hmem)).blank hk
      rw [afterLastBreak?] at h
      split at h
      · obtain rfl := Option.some.inj h
        refine .line fun c hc => ?_
        rw [List.mem_reverse] at hc
        refine ⟨hblank c ?_, by simpa using List.mem_takeWhile_imp hc⟩
        exact List.mem_reverse.1 ((List.takeWhile_prefix _).mem hc)
      · cases h
    · cases h
  · cases h

/-- An attribute goes in front of a token of the declaration. -/
theorem insertAttr?_eq_some (hs : f.tree.Sound) {l : Located} (hl : l ∈ f.nodes)
    {attr : List Char} {e : Edit} (h : f.insertAttr? l attr = some e) :
    ∃ (first : Leaf) (separator : List Char), some first ∈ f.tree.leavesFrom 0 ∧
      IsSeparator separator ∧ e = .insert first.start (attr ++ separator) := by
  rw [File.insertAttr?] at h
  simp only [Option.bind_eq_bind, Option.bind_eq_some_iff] at h
  obtain ⟨content, hc, first, hf, h⟩ := h
  obtain rfl := Option.some.inj h
  refine ⟨first, _, ?_, ?_, rfl⟩
  · rw [Located.firstLeaf, Option.join_eq_some_iff] at hf
    exact Tree.mem_leavesFrom_of_mem_children hl (List.mem_of_find?_eq_some hc)
      (List.mem_of_mem_head? hf)
  · split
    · exact isSeparator_of_breakIndent? hs ‹_›
    · exact .blank

/-- A new attribute for a constant is put in front of a token of the file. -/
structure Mark.Placed (o : MarkOptions) (f : File) (m : Mark) : Prop where
  position : m.edit.start = m.edit.stop ∧ m.edit.stop ≤ f.tree.text.length
  describes : Describes o m.constant m.edit.start [] m.edit.text

theorem placed_of_insertAttr? (hs : f.tree.Sound) {l : Located} (hl : l ∈ f.nodes)
    {attr : List Char} {constant : String} {e : Edit}
    (ha : IsAttribute o.descriptionsType constant attr) (h : f.insertAttr? l attr = some e) :
    Mark.Placed o f ⟨e, constant⟩ := by
  obtain ⟨first, separator, hfirst, hsep, rfl⟩ := insertAttr?_eq_some hs hl h
  have hb := ((Tree.tiles_leavesFrom 0 f.tree).bounds hfirst).2
  exact ⟨⟨rfl, by simp only [Edit.insert]; omega⟩, rfl, attr, separator, ha, hsep, rfl⟩

/-- A field gets an attribute for the constant with its name, unless it is described or holds that
attribute. -/
theorem markField?_eq_some_iff {owner : String} {field : Located} {m : Mark} :
    markField? o f owner field = some m ↔ ∃ name e, field.name? = some name ∧
      (field.attributeBodies.any isSchemaDescription ||
        occurs (fieldAttr o (constantOf owner name)) field.chars) = false ∧
      f.insertAttr? field (fieldAttr o (constantOf owner name)) = some e ∧
      m = ⟨e, constantOf owner name⟩ := by
  simp only [markField?, Option.bind_eq_bind, Option.bind_eq_some_iff]
  constructor
  · rintro ⟨name, hname, h⟩
    split at h
    · cases h
    · rename_i hnot
      obtain ⟨e, he, h⟩ := Option.bind_eq_some_iff.1 h
      exact ⟨name, e, hname, Bool.eq_false_iff.2 hnot, he, (Option.some.inj h).symm⟩
  · rintro ⟨name, e, hname, hnot, he, rfl⟩
    refine ⟨name, hname, ?_⟩
    rw [if_neg (Bool.eq_false_iff.1 hnot), he]
    rfl

/-- A parameter gets an attribute for the constant with the name it binds, unless it is documented or
holds that attribute. -/
theorem markParameter?_eq_some_iff {owner : String} {param : Located} {m : Mark} :
    markParameter? o f owner param = some m ↔ ∃ pattern name attr e,
      param.pattern? = some pattern ∧ pattern.boundName? = some name ∧
      attr = parameterAttr o (constantOf owner name)
        (param.attributeBodies.contains "required".toList) ∧
      (param.attributeBodies.any isParameterDoc || occurs attr param.chars) = false ∧
      f.insertAttr? param attr = some e ∧ m = ⟨e, constantOf owner name⟩ := by
  simp only [markParameter?, Option.bind_eq_bind, Option.bind_eq_some_iff]
  constructor
  · rintro ⟨pattern, hpattern, name, hname, h⟩
    split at h
    · cases h
    · rename_i hnot
      obtain ⟨e, he, h⟩ := Option.bind_eq_some_iff.1 h
      exact ⟨pattern, name, _, e, hpattern, hname, rfl, Bool.eq_false_iff.2 hnot, he,
        (Option.some.inj h).symm⟩
  · rintro ⟨pattern, name, attr, e, hpattern, hname, rfl, hnot, he, rfl⟩
    refine ⟨pattern, hpattern, name, hname, ?_⟩
    rw [if_neg (Bool.eq_false_iff.1 hnot), he]
    rfl

theorem placed_of_markField? (hs : f.tree.Sound) {owner : String} {field : Located}
    (hl : field ∈ f.nodes) {m : Mark} (h : markField? o f owner field = some m) :
    m.Placed o f := by
  obtain ⟨name, e, -, -, he, rfl⟩ := markField?_eq_some_iff.1 h
  exact placed_of_insertAttr? hs hl .field he

theorem placed_of_markParameter? (hs : f.tree.Sound) {owner : String} {param : Located}
    (hl : param ∈ f.nodes) {m : Mark} (h : markParameter? o f owner param = some m) :
    m.Placed o f := by
  obtain ⟨pattern, name, attr, e, -, -, rfl, -, he, rfl⟩ := markParameter?_eq_some_iff.1 h
  exact placed_of_insertAttr? hs hl (isAttribute_parameterAttr o _ _) he

/-! ## Fields and parameters -/

theorem mem_nodes_of_recordFields {l field : Located} (hl : l ∈ f.nodes)
    (h : field ∈ l.recordFields) : field ∈ f.nodes := by
  rw [Located.recordFields] at h
  split at h
  · rename_i list hlist
    have hlist := Tree.mem_nodesFrom_of_mem_childNodes hl
      (Located.mem_childNodes_of_childWhere? hlist)
    exact Tree.mem_nodesFrom_of_mem_childNodes hlist (Located.mem_childNodes_of_childrenOf h)
  · simp at h

theorem mem_nodes_of_parameters {impl fn param : Located} (hl : impl ∈ f.nodes)
    (hfn : fn ∈ operations o impl) (h : param ∈ parameters fn) : param ∈ f.nodes := by
  have hfn : fn ∈ f.nodes := by
    rw [operations] at hfn
    split at hfn
    · rename_i list hlist
      have hlist := Tree.mem_nodesFrom_of_mem_childNodes hl
        (Located.mem_childNodes_of_child? hlist)
      exact Tree.mem_nodesFrom_of_mem_childNodes hlist
        (Located.mem_childNodes_of_childrenOf (List.mem_filter.1 hfn).1)
    · simp at hfn
  rw [parameters] at h
  cases hp : fn.child? .paramList with
  | none => simp [hp] at h
  | some list =>
    rw [hp] at h
    have hlist := Tree.mem_nodesFrom_of_mem_childNodes hfn (Located.mem_childNodes_of_child? hp)
    exact Tree.mem_nodesFrom_of_mem_childNodes hlist (Located.mem_childNodes_of_childrenOf h)

/-- Every new attribute names its constant, and is put in front of a token of the file. -/
theorem placed_of_mem_marks (hs : f.tree.Sound) {m : Mark} (h : m ∈ marks o f) :
    m.Placed o f := by
  rw [marks] at h
  rcases List.mem_append.1 h with h | h
  · rw [markFields] at h
    obtain ⟨s, hl, h⟩ := List.mem_flatMap.1 h
    split at h
    · obtain ⟨field, hfield, h⟩ := List.mem_filterMap.1 h
      exact placed_of_markField? hs
        (mem_nodes_of_recordFields (List.mem_filter.1 hl).1 hfield) h
    · simp at h
  · split at h
    · rw [markParameters] at h
      obtain ⟨impl, hl, h⟩ := List.mem_flatMap.1 h
      have hl := (List.mem_filter.1 (List.mem_filter.1 hl).1).1
      split at h
      · obtain ⟨param, hparam, h⟩ := List.mem_filterMap.1 h
        obtain ⟨fn, hfn, hparam⟩ := List.mem_flatMap.1 hparam
        exact placed_of_markParameter? hs (mem_nodes_of_parameters hl hfn hparam) h
      · simp at h
    · simp at h

/-! ## What becomes of a document -/

theorem nodup_eraseDups (names : List String) : names.eraseDups.Nodup := by
  induction hn : names.length using Nat.strongRecOn generalizing names with
  | ind n ih =>
    cases names with
    | nil => simp
    | cons name names =>
      rw [List.eraseDups_cons, List.nodup_cons, List.mem_eraseDups]
      refine ⟨by simp, ih _ ?_ _ rfl⟩
      have := List.length_filter_le (fun x => !x == name) names
      rw [List.length_cons] at hn
      omega

/-- Every new attribute makes a text longer. -/
theorem length_of_rewrites {n : Nat} {cs ds : List Char} {names : List String}
    (h : Rewrites (Describes o) n cs names ds) : cs.length + names.length ≤ ds.length := by
  induction h with
  | done n => exact Nat.le_refl _
  | keep c _ ih =>
    simp only [List.length_cons] at ih ⊢
    omega
  | replace hp _ ih =>
    obtain ⟨rfl, attr, separator, ha, -, rfl⟩ := hp
    have hpos := List.length_pos_of_mem ha.pound_mem
    simp only [List.length_append, List.length_cons, List.length_nil] at ih ⊢
    omega

/-- A document without new attributes is as before, and only that is. -/
theorem eq_iff_of_rewrites {n : Nat} {cs ds : List Char} {names : List String}
    (h : Rewrites (Describes o) n cs names ds) : ds = cs ↔ names = [] := by
  refine ⟨fun he => ?_, fun hn => ?_⟩
  · have hlen := length_of_rewrites h
    rw [he] at hlen
    exact List.length_eq_zero_iff.1 (by omega)
  · subst hn
    exact h.eq_of_nil

/-- Placed attributes rewrite a file, and the rewriting names their constants. -/
theorem rewrites_of_placed {found : List Mark} (h : ∀ m ∈ found, m.Placed o f) :
    ∃ names : List String, names.Perm (found.map (·.constant)) ∧
      Rewrites (Describes o) 0 f.tree.text names
        (Edit.applyAll f.tree.text (found.map (·.edit))) := by
  obtain ⟨ms, hperm, hr⟩ := rewrites_applyAll (P := fun m => Describes o m.constant)
    (Edit.inOrder_sorted_inserts (List.forall_mem_map.2 fun m hm => (h m hm).position))
    fun m hm => by
      obtain ⟨⟨hp, -⟩, hd⟩ := h m hm
      rwa [Edit.replaced, hp, Nat.sub_self, List.take_zero, ← hp]
  exact ⟨ms.map (·.constant), hperm.map _, hr.map_labels⟩

/-- Annotating puts attributes into a document and does nothing else. The constants they name are
returned once each, and if there are none the document is as before. -/
theorem annotate_inserts (o : MarkOptions) (source : String) :
    ∃ names : List String,
      (annotate o source).revision.before = source ∧
      Rewrites (Describes o) 0 source.toList names (annotate o source).revision.after.toList ∧
      (annotate o source).constants.Nodup ∧
      (∀ constant, constant ∈ (annotate o source).constants ↔ constant ∈ names) ∧
      ((annotate o source).revision.differs = true ↔ (annotate o source).constants ≠ []) := by
  have hplaced : ∀ m ∈ marks o (File.read source), m.Placed o (File.read source) :=
    fun m hm => placed_of_mem_marks (File.sound_read source) hm
  obtain ⟨names, hperm, hr⟩ := rewrites_of_placed hplaced
  rw [File.text_read] at hr
  rw [annotate]
  generalize marks o (File.read source) = found at hperm hr
  have hmem (constant : String) :
      constant ∈ (found.map (·.constant)).eraseDups ↔ constant ∈ names := by
    rw [List.mem_eraseDups, hperm.mem_iff]
  have hnil : (found.map (·.constant)).eraseDups = [] ↔ names = [] := by
    simp only [List.eq_nil_iff_forall_not_mem, hmem]
  refine ⟨names, rfl, ?_, nodup_eraseDups _, hmem, ?_⟩
  · rw [String.toList_ofList]
    exact hr
  · rw [Ne, hnil, ← eq_iff_of_rewrites hr, Revision.differs, decide_eq_true_eq, Ne,
      ← String.toList_inj, String.toList_ofList, eq_comm]

/-! ## Annotating twice

An attribute in front of a field is read as part of it when the document is read again, unless
something in front of the field is broken off: there the attribute is read as what is missing. -/

/-- A structure whose first field has no type yet, and what becomes of it. -/
def unfinished : Revision where
  before := "struct S \x7b\n    a:\n    pub y: u8,\n\x7d\n"
  after := "struct S \x7b\n    #[schema(description = Descriptions::SA)]\n    a:\n" ++
    "    #[schema(description = Descriptions::SY)]\n    pub y: u8,\n\x7d\n"

theorem annotate_unfinished :
    (annotate .standard unfinished.before).revision = unfinished := by
  let edits : List Edit :=
    [.insert 15 "#[schema(description = Descriptions::SA)]\n    ".toList,
      .insert 22 "#[schema(description = Descriptions::SY)]\n    ".toList]
  have hm : (marks .standard (File.read unfinished.before)).map (·.edit) = edits := by
    decide +kernel
  have hs : Edit.sorted edits = edits := List.mergeSort_of_pairwise (by decide)
  rw [annotate, hm, Edit.applyAll, hs]
  decide +kernel

/-- The attribute of the second field is read as the type of the first one, so the second run takes
its name for a field and describes both that and the second field again. -/
theorem annotate_unfinished_twice :
    (annotate .standard unfinished.before).revision = unfinished ∧
      (annotate .standard unfinished.after).constants = ["SSchema", "SY"] := by
  refine ⟨annotate_unfinished, ?_⟩
  decide +kernel

end Description

end Docsmith
