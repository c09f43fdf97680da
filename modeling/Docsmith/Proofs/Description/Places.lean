import Docsmith.Proofs.Description.Attributes
import Docsmith.Proofs.Source.Nesting

/-!
# Places of new attributes

New attributes are known by the fields and parameters they are for. These are visited structure by
structure and then impl by impl, and the attributes stand in the order of the text.

* `annotate_at_places`: what becomes of a document, told by places;
* `pairwise_places`: where a place that is visited later stands.
-/

namespace Docsmith.Description

open Docsmith.Source

/-- A field or parameter with its new attribute, and the structure or impl it is visited with. -/
structure Place where
  holder : Located
  item : Located
  mark : Mark

namespace Place

def constant (p : Place) : String := p.mark.constant

/-- Where the new attribute is put. -/
def position (p : Place) : Nat := p.mark.edit.start

end Place

/-- The fields that get an attribute, as they are visited. -/
def fieldPlaces (o : MarkOptions) (f : File) : List Place :=
  (f.nodesOf .structItem).flatMap fun s =>
    match s.name? with
    | some owner => s.recordFields.filterMap fun l => (markField? o f owner l).map (⟨s, l, ·⟩)
    | none => []

/-- The parameters that get an attribute, as they are visited. -/
def parameterPlaces (o : MarkOptions) (f : File) : List Place :=
  ((f.nodesOf .implItem).filter Located.isInherent).flatMap fun impl =>
    match impl.implOwner? with
    | some owner =>
      ((operations o impl).flatMap parameters).filterMap fun l =>
        (markParameter? o f (shortTypeName owner.chars) l).map (⟨impl, l, ·⟩)
    | none => []

/-- The places of new attributes, as they are visited. -/
def places (o : MarkOptions) (f : File) : List Place :=
  fieldPlaces o f ++ if o.decorateParameters then parameterPlaces o f else []

variable {o : MarkOptions} {f : File} {p q : Place}

theorem map_filterMap_place (holder : Located) (mark? : Located → Option Mark)
    (ls : List Located) :
    (ls.filterMap fun l => (mark? l).map (⟨holder, l, ·⟩)).map Place.mark = ls.filterMap mark? := by
  rw [List.map_filterMap]
  congr 1
  funext l
  cases mark? l <;> rfl

theorem map_mark_places (o : MarkOptions) (f : File) :
    (places o f).map Place.mark = marks o f := by
  have hfields : (fieldPlaces o f).map Place.mark = markFields o f := by
    rw [fieldPlaces, List.map_flatMap, markFields]
    congr 1
    funext s
    cases s.name? with
    | none => rfl
    | some owner => exact map_filterMap_place ..
  have hparameters : (parameterPlaces o f).map Place.mark = markParameters o f := by
    rw [parameterPlaces, List.map_flatMap, markParameters]
    congr 1
    funext impl
    cases impl.implOwner? with
    | none => rfl
    | some owner => exact map_filterMap_place ..
  rw [places, List.map_append, hfields, marks]
  split
  · rw [hparameters]
  · rfl

/-! ## Fields and parameters stand in order -/

theorem pairwise_recordFields (l : Located) : l.recordFields.Pairwise Located.Before := by
  rw [Located.recordFields]
  split
  · exact Located.pairwise_childrenOf ..
  · exact .nil

theorem within_of_mem_recordFields {l field : Located} (h : field ∈ l.recordFields) :
    field.Within l := by
  rw [Located.recordFields] at h
  split at h
  · rename_i list hlist
    exact (Located.within_of_mem_childNodes (Located.mem_childNodes_of_childrenOf h)).trans
      (Located.within_of_mem_childNodes (Located.mem_childNodes_of_childWhere? hlist))
  · cases h

theorem pairwise_operations (o : MarkOptions) (impl : Located) :
    (operations o impl).Pairwise Located.Before := by
  rw [operations]
  split
  · exact (Located.pairwise_childrenOf ..).filter _
  · exact .nil

theorem within_of_mem_operations {impl fn : Located} (h : fn ∈ operations o impl) :
    fn.Within impl := by
  rw [operations] at h
  split at h
  · rename_i list hlist
    exact (Located.within_of_mem_childNodes
      (Located.mem_childNodes_of_childrenOf (List.mem_filter.1 h).1)).trans
        (Located.within_of_mem_childNodes (Located.mem_childNodes_of_child? hlist))
  · cases h

theorem parameters_eq (fn : Located) :
    parameters fn = [] ∨ ∃ list, fn.child? .paramList = some list ∧
      parameters fn = list.childrenOf .param := by
  rw [parameters]
  cases fn.child? .paramList with
  | none => exact .inl rfl
  | some list => exact .inr ⟨list, rfl, rfl⟩

theorem within_of_mem_parameters {fn param : Located} (h : param ∈ parameters fn) :
    param.Within fn := by
  rcases parameters_eq fn with hp | ⟨list, hlist, hp⟩
  · rw [hp] at h
    cases h
  · rw [hp] at h
    exact (Located.within_of_mem_childNodes (Located.mem_childNodes_of_childrenOf h)).trans
      (Located.within_of_mem_childNodes (Located.mem_childNodes_of_child? hlist))

theorem pairwise_parameters (fn : Located) : (parameters fn).Pairwise Located.Before := by
  rcases parameters_eq fn with hp | ⟨list, -, hp⟩ <;> rw [hp]
  · exact .nil
  · exact Located.pairwise_childrenOf ..

/-- The parameters of all operations of an impl. -/
theorem pairwise_operands (o : MarkOptions) (impl : Located) :
    ((operations o impl).flatMap parameters).Pairwise Located.Before := by
  refine List.pairwise_flatMap.2 ⟨fun fn _ => pairwise_parameters fn, ?_⟩
  refine (pairwise_operations o impl).imp fun {a b} hab x hx y hy => ?_
  exact ((within_of_mem_parameters hx).2.trans hab).trans (within_of_mem_parameters hy).1

/-! ## Where places stand -/

/-- A place is found in a file. -/
structure Place.Found (f : File) (p : Place) : Prop where
  holder : p.holder ∈ f.nodes
  within : p.item.Within p.holder
  bounds : p.item.start ≤ p.position ∧ p.position < p.item.stop

theorem bounds_of_insertAttr? (hs : f.tree.Sound) {l : Located} (hl : l ∈ f.nodes)
    {attr : List Char} {e : Edit} (h : f.insertAttr? l attr = some e) :
    l.start ≤ e.start ∧ e.start < l.stop := by
  rw [File.insertAttr?] at h
  simp only [Option.bind_eq_bind, Option.bind_eq_some_iff] at h
  obtain ⟨content, hc, first, hf, h⟩ := h
  obtain rfl := Option.some.inj h
  have hchild := List.mem_of_find?_eq_some hc
  have hfits : first.kind.Fits first.text := by
    rw [Located.firstLeaf, Option.join_eq_some_iff] at hf
    exact Tree.fits_of_mem_leavesFrom hs
      (Tree.mem_leavesFrom_of_mem_children hl hchild (List.mem_of_mem_head? hf))
  have hb := Located.bounds_of_firstLeaf hf hfits.nonempty
  have hw := Located.within_of_mem_children hchild
  exact ⟨hw.1.trans hb.1, hb.2.trans_le hw.2⟩

theorem bounds_of_markField? (hs : f.tree.Sound) {owner : String} {field : Located}
    (hl : field ∈ f.nodes) {m : Mark} (h : markField? o f owner field = some m) :
    field.start ≤ m.edit.start ∧ m.edit.start < field.stop := by
  obtain ⟨name, e, -, -, he, rfl⟩ := markField?_eq_some_iff.1 h
  exact bounds_of_insertAttr? hs hl he

theorem bounds_of_markParameter? (hs : f.tree.Sound) {owner : String} {param : Located}
    (hl : param ∈ f.nodes) {m : Mark} (h : markParameter? o f owner param = some m) :
    param.start ≤ m.edit.start ∧ m.edit.start < param.stop := by
  obtain ⟨pattern, name, attr, e, -, -, rfl, -, he, rfl⟩ := markParameter?_eq_some_iff.1 h
  exact bounds_of_insertAttr? hs hl he

theorem mem_fieldPlaces : p ∈ fieldPlaces o f ↔ p.holder ∈ f.nodesOf .structItem ∧
    ∃ owner, p.holder.name? = some owner ∧ p.item ∈ p.holder.recordFields ∧
      markField? o f owner p.item = some p.mark := by
  rw [fieldPlaces, List.mem_flatMap]
  constructor
  · rintro ⟨s, hs, h⟩
    split at h
    · rename_i owner howner
      obtain ⟨field, hfield, h⟩ := List.mem_filterMap.1 h
      obtain ⟨m, hm, rfl⟩ := Option.map_eq_some_iff.1 h
      exact ⟨hs, owner, howner, hfield, hm⟩
    · cases h
  · rintro ⟨hs, owner, howner, hfield, hm⟩
    refine ⟨p.holder, hs, ?_⟩
    simp only [howner]
    exact List.mem_filterMap.2 ⟨p.item, hfield, by rw [hm, Option.map_some]⟩

theorem mem_parameterPlaces : p ∈ parameterPlaces o f ↔
    (p.holder ∈ f.nodesOf .implItem ∧ p.holder.isInherent) ∧
      ∃ owner, p.holder.implOwner? = some owner ∧
        p.item ∈ (operations o p.holder).flatMap parameters ∧
          markParameter? o f (shortTypeName owner.chars) p.item = some p.mark := by
  rw [parameterPlaces, List.mem_flatMap]
  constructor
  · rintro ⟨impl, hi, h⟩
    split at h
    · rename_i owner howner
      obtain ⟨param, hparam, h⟩ := List.mem_filterMap.1 h
      obtain ⟨m, hm, rfl⟩ := Option.map_eq_some_iff.1 h
      exact ⟨List.mem_filter.1 hi, owner, howner, hparam, hm⟩
    · cases h
  · rintro ⟨hi, owner, howner, hparam, hm⟩
    refine ⟨p.holder, List.mem_filter.2 hi, ?_⟩
    simp only [howner]
    exact List.mem_filterMap.2 ⟨p.item, hparam, by rw [hm, Option.map_some]⟩

theorem found_of_mem_fieldPlaces (hs : f.tree.Sound) (h : p ∈ fieldPlaces o f) : p.Found f := by
  obtain ⟨hholder, owner, -, hitem, hm⟩ := mem_fieldPlaces.1 h
  have hholder := (List.mem_filter.1 hholder).1
  have hnode := mem_nodes_of_recordFields hholder hitem
  exact ⟨hholder, within_of_mem_recordFields hitem, bounds_of_markField? hs hnode hm⟩

theorem found_of_mem_parameterPlaces (hs : f.tree.Sound) (h : p ∈ parameterPlaces o f) :
    p.Found f := by
  obtain ⟨⟨hholder, -⟩, owner, -, hitem, hm⟩ := mem_parameterPlaces.1 h
  have hholder := (List.mem_filter.1 hholder).1
  obtain ⟨fn, hfn, hparam⟩ := List.mem_flatMap.1 hitem
  have hnode := mem_nodes_of_parameters hholder hfn hparam
  exact ⟨hholder, (within_of_mem_parameters hparam).trans (within_of_mem_operations hfn),
    bounds_of_markParameter? hs hnode hm⟩

theorem placed_of_mem_places (hs : f.tree.Sound) (h : p ∈ places o f) : p.mark.Placed o f :=
  placed_of_mem_marks hs (map_mark_places o f ▸ List.mem_map_of_mem h)

theorem position_lt_of_before (hp : p.Found f) (hq : q.Found f)
    (h : p.holder.Before q.holder) : p.position < q.position :=
  calc p.position < p.item.stop := hp.bounds.2
    _ ≤ p.holder.stop := hp.within.2
    _ ≤ q.holder.start := h
    _ ≤ q.item.start := hq.within.1
    _ ≤ q.position := hq.bounds.1

theorem pairwise_positions {holder : Located} {mark? : Located → Option Mark} {ls : List Located}
    (hls : ls.Pairwise Located.Before)
    (hb : ∀ l ∈ ls, ∀ m, mark? l = some m → l.start ≤ m.edit.start ∧ m.edit.start < l.stop) :
    (ls.filterMap fun l => (mark? l).map (⟨holder, l, ·⟩ : Mark → Place)).Pairwise
      fun p q => p.position < q.position := by
  refine List.pairwise_filterMap.2 (hls.imp_of_mem fun {a b} ha hb' hab p hp q hq => ?_)
  obtain ⟨m, hm, rfl⟩ := Option.map_eq_some_iff.1 hp
  obtain ⟨n, hn, rfl⟩ := Option.map_eq_some_iff.1 hq
  exact (hb a ha m hm).2.trans_le (hab.trans (hb b hb' n hn).1)

/-- Of two places of one kind, the one visited later stands behind the other, or belongs to a
structure or impl within that of the other. -/
theorem pairwise_flatMap_places {holders : List Located} {visit : Located → List Place}
    (hholders : holders.Pairwise fun l m => l.Before m ∨ m.Within l)
    (hvisit : ∀ l ∈ holders, (visit l).Pairwise fun p q => p.position < q.position)
    (hfound : ∀ l ∈ holders, ∀ p ∈ visit l, p.holder = l ∧ p.Found f) :
    (holders.flatMap visit).Pairwise
      fun p q => p.position < q.position ∨ q.holder.Within p.holder := by
  refine List.pairwise_flatMap.2 ⟨fun l hl => (hvisit l hl).imp .inl, ?_⟩
  refine hholders.imp_of_mem fun {l m} hl hm hlm p hp q hq => ?_
  obtain ⟨rfl, hpf⟩ := hfound l hl p hp
  obtain ⟨rfl, hqf⟩ := hfound m hm q hq
  exact hlm.imp_left (position_lt_of_before hpf hqf)

theorem pairwise_fieldPlaces (hs : f.tree.Sound) : (fieldPlaces o f).Pairwise
    fun p q => p.position < q.position ∨ q.holder.Within p.holder := by
  have hfound (p : Place) (h : p ∈ fieldPlaces o f) := found_of_mem_fieldPlaces hs h
  refine pairwise_flatMap_places (f := f) (f.pairwise_nodes.filter _) (fun s hl => ?_) (fun s hl p hp => ?_)
  · split
    · refine pairwise_positions (pairwise_recordFields s) fun field hfield m hm => ?_
      exact bounds_of_markField? hs (mem_nodes_of_recordFields (List.mem_filter.1 hl).1 hfield) hm
    · exact .nil
  · refine ⟨?_, hfound p (List.mem_flatMap.2 ⟨s, hl, hp⟩)⟩
    split at hp
    · obtain ⟨field, -, hp⟩ := List.mem_filterMap.1 hp
      obtain ⟨m, -, rfl⟩ := Option.map_eq_some_iff.1 hp
      rfl
    · cases hp

theorem pairwise_parameterPlaces (hs : f.tree.Sound) : (parameterPlaces o f).Pairwise
    fun p q => p.position < q.position ∨ q.holder.Within p.holder := by
  have hfound (p : Place) (h : p ∈ parameterPlaces o f) := found_of_mem_parameterPlaces hs h
  refine pairwise_flatMap_places (f := f) ((f.pairwise_nodes.filter _).filter _) (fun i hl => ?_)
    (fun i hl p hp => ?_)
  · have hi := (List.mem_filter.1 (List.mem_filter.1 hl).1).1
    split
    · refine pairwise_positions (pairwise_operands o i) fun param hparam m hm => ?_
      obtain ⟨fn, hfn, hparam⟩ := List.mem_flatMap.1 hparam
      exact bounds_of_markParameter? hs (mem_nodes_of_parameters hi hfn hparam) hm
    · exact .nil
  · refine ⟨?_, hfound p (List.mem_flatMap.2 ⟨i, hl, hp⟩)⟩
    split at hp
    · obtain ⟨param, -, hp⟩ := List.mem_filterMap.1 hp
      obtain ⟨m, -, rfl⟩ := Option.map_eq_some_iff.1 hp
      rfl
    · cases hp

/-- A place stands behind those visited before it, unless it is a parameter and the other one a
field, or it belongs to a structure or impl within that of the other. -/
theorem pairwise_places (hs : f.tree.Sound) : (places o f).Pairwise fun p q =>
    p.position < q.position ∨ q.holder.Within p.holder ∨
      (p.holder.is .structItem = true ∧ q.holder.is .implItem = true) := by
  rw [places]
  refine List.pairwise_append.2 ⟨(pairwise_fieldPlaces hs).imp (·.imp_right .inl), ?_, ?_⟩
  · split
    · exact (pairwise_parameterPlaces hs).imp (·.imp_right .inl)
    · exact .nil
  · intro p hp q hq
    split at hq
    · exact .inr (.inr ⟨(List.mem_filter.1 (mem_fieldPlaces.1 hp).1).2,
        (List.mem_filter.1 (mem_parameterPlaces.1 hq).1.1).2⟩)
    · cases hq

/-! ## What becomes of a document -/

/-- The attribute of a place, with what separates it from the declaration, is put where nothing
was. -/
def Place.Describes (o : MarkOptions) (p : Place) (n : Nat) (old new : List Char) : Prop :=
  n = p.position ∧ Description.Describes o p.constant n old new

/-- Annotating puts the attributes of all places into a document and does nothing else. It returns
their constants once each, in the order of the visit. -/
theorem annotate_at_places (o : MarkOptions) (source : String) :
    ∃ ps : List Place, ps.Perm (places o (File.read source)) ∧
      (ps.Pairwise fun p q => p.position ≤ q.position) ∧
      Rewrites (Place.Describes o) 0 source.toList ps (annotate o source).revision.after.toList ∧
      (annotate o source).constants =
        ((places o (File.read source)).map Place.constant).eraseDups := by
  let f := File.read source
  have hs : f.tree.Sound := File.sound_read source
  have hplaced (p : Place) (hp : p ∈ places o f) := placed_of_mem_places hs hp
  have hedits : (places o f).map (·.mark.edit) = (marks o f).map (·.edit) := by
    rw [← map_mark_places, List.map_map]
    rfl
  have hconstants : (places o f).map Place.constant = (marks o f).map (·.constant) := by
    rw [← map_mark_places, List.map_map]
    rfl
  have horder : Edit.InOrder f.tree.text.length 0 (Edit.sorted ((places o f).map (·.mark.edit))) :=
    Edit.inOrder_sorted_inserts (List.forall_mem_map.2 fun p hp => (hplaced p hp).position)
  obtain ⟨ps, hperm, hr⟩ := rewrites_applyAll (P := Place.Describes o) horder fun p hp => by
    refine ⟨rfl, ?_⟩
    obtain ⟨⟨hstop, -⟩, hd⟩ := hplaced p hp
    rwa [Edit.replaced, hstop, Nat.sub_self, List.take_zero, ← hstop]
  refine ⟨ps, hperm, (hr.pairwise_labels (·.1)).2, ?_, ?_⟩
  · rw [annotate, String.toList_ofList, ← hedits]
    rwa [File.text_read] at hr
  · rw [annotate, hconstants]

end Docsmith.Description
