import Docsmith.Discovery.Catalog
import Docsmith.Proofs.Discovery.Visits
import Docsmith.Proofs.Metadata.Contents

/-!
# Leaves of several references

References whose leaves are collected one after another share the leaves found, but no walk sees
what another has found: where it goes depends on what it has expanded itself. So what is collected
is the union of what each reference leads to, in order.

* `walk_foldl`: a walk adds to leaves what it finds without them;
* `addLeaves_firstNamed`: the leaves of several references;
* `Answers`: what makes a type an answer of an action;
* `models_union`: the models of a controller are the leaves of what its actions answer with, then of
  what they take.
-/

namespace Docsmith.Discovery

open Docsmith.Metadata Docsmith.Naming

variable {o : Ownership} {s : Session}

/-! ## Adding leaves to leaves -/

theorem addLeaf_eq (leaves : List DescribedType) (d : DescribedType) :
    addLeaf leaves d = if d.name ∈ leaves.map (·.name) then leaves else leaves ++ [d] := by
  simp [addLeaf]

theorem mem_names_foldl_addLeaf {found leaves : List DescribedType} {name : String} :
    name ∈ (found.foldl addLeaf leaves).map (·.name) ↔
      name ∈ leaves.map (·.name) ∨ name ∈ found.map (·.name) := by
  induction found generalizing leaves with
  | nil => simp
  | cons d found ih =>
    rw [List.foldl_cons, ih, addLeaf_eq, List.map_cons, List.mem_cons]
    split
    · next h =>
      constructor
      · exact Or.imp_right .inr
      · rintro (hl | rfl | hf)
        exacts [.inl hl, .inl h, .inr hf]
    · rw [List.map_append, List.mem_append, List.map_singleton, List.mem_singleton, or_assoc]

/-- A leaf that is added to leaves first, and these to others then, is added last. -/
theorem foldl_addLeaf_addLeaf (leaves found : List DescribedType) (d : DescribedType) :
    (addLeaf found d).foldl addLeaf leaves = addLeaf (found.foldl addLeaf leaves) d := by
  rw [addLeaf_eq found]
  split
  · next h => rw [addLeaf_eq, if_pos (mem_names_foldl_addLeaf.2 (.inr h))]
  · rw [List.foldl_append, List.foldl_cons, List.foldl_nil]

theorem foldl_addLeaf_foldl (leaves found more : List DescribedType) :
    (more.foldl addLeaf found).foldl addLeaf leaves =
      more.foldl addLeaf (found.foldl addLeaf leaves) := by
  induction more generalizing found with
  | nil => rfl
  | cons d more ih => rw [List.foldl_cons, ih, foldl_addLeaf_addLeaf, List.foldl_cons]

theorem foldl_addLeaf_firstNamed (ds es : List DescribedType) :
    es.foldl addLeaf (firstNamed ds) = firstNamed (ds ++ es) := by
  induction es generalizing ds with
  | nil => rw [List.foldl_nil, List.append_nil]
  | cons e es ih =>
    have he : addLeaf (firstNamed ds) e = firstNamed (ds ++ [e]) := by
      simp only [addLeaf_eq, firstNamed_concat, mem_names_firstNamed]
    rw [List.foldl_cons, he, ih, List.append_assoc, List.singleton_append]

/-! ## Several references -/

/-- A walk that starts with leaves adds to them what it finds without them. -/
theorem walk_foldl (leaves found : List DescribedType) (todo : List TypeReference)
    (expanded : List String) :
    walk o s todo (found.foldl addLeaf leaves) expanded =
      (walk o s todo found expanded).foldl addLeaf leaves := by
  induction todo, expanded using walk_induction o s generalizing found with
  | nil expanded => rw [walk_nil, walk_nil]
  | cons t rest expanded ih => rw [walk_cons, walk_cons, ← ih, foldl_addLeaf_foldl]

theorem addLeaves_firstNamed (o : Ownership) (s : Session) (roots : List TypeReference)
    (ds : List DescribedType) :
    roots.foldl (fun leaves root => addLeaves o s root leaves) (firstNamed ds) =
      firstNamed (ds ++ roots.flatMap (reachedTypes o s)) := by
  induction roots generalizing ds with
  | nil => rw [List.foldl_nil, List.flatMap_nil, List.append_nil]
  | cons root roots ih =>
    have h : addLeaves o s root (firstNamed ds) = firstNamed (ds ++ reachedTypes o s root) := by
      rw [← foldl_addLeaf_firstNamed]
      exact walk_foldl (firstNamed ds) [] [root] []
    rw [List.foldl_cons, h, ih, List.flatMap_cons, List.append_assoc]

theorem foldl_addLeaves (o : Ownership) (s : Session) (roots : List TypeReference) :
    roots.foldl (fun leaves root => addLeaves o s root leaves) [] =
      firstNamed (roots.flatMap (reachedTypes o s)) :=
  addLeaves_firstNamed o s roots []

/-- What is not owned has no leaves. -/
theorem reachedTypes_of_not_owns {root : TypeReference} (h : ¬o.owns s root = true) :
    reachedTypes o s root = [] := by
  rw [reachedTypes, addLeaves, walk_cons, visit_of_not_owns h]
  exact walk_nil _ _

theorem flatMap_reachedTypes_filter (roots : List TypeReference) :
    (roots.filter (o.owns s)).flatMap (reachedTypes o s) = roots.flatMap (reachedTypes o s) := by
  induction roots with
  | nil => rfl
  | cons root roots ih =>
    by_cases h : o.owns s root = true
    · rw [List.filter_cons_of_pos h, List.flatMap_cons, List.flatMap_cons, ih]
    · rw [List.filter_cons_of_neg h, List.flatMap_cons, reachedTypes_of_not_owns h,
        List.nil_append, ih]

/-! ## Actions -/

/-- An attribute declares that an action answers with a type on success: its short name is that of
responses, one of its numbers is a status of success, and the type is the first one it holds. -/
structure Answers (c : Catalog) (a : Attribute) (t : TypeReference) : Prop where
  response : shortName a.name = c.conventions.responseAttribute
  success : ∃ n : Int64, .int n ∈ a.values ∧ 200 ≤ n.toInt ∧ n.toInt ≤ 299
  first : ∃ before after, a.values = before ++ .type t :: after ∧ ∀ u, .type u ∉ before

/-- The methods a type declares itself and offers to everyone on its instances. -/
def offered (d : DescribedType) : List Method :=
  d.methods.filter fun m => m.visibility = .everyone ∧ m.isStatic = false ∧ m.inherited = false

namespace Catalog

variable {c : Catalog} {a : Attribute} {t : TypeReference}

theorem actions_eq (d : DescribedType) : actions d = offered d := by
  refine List.filter_congr fun m _ => ?_
  simp [Bool.and_assoc]

theorem isSuccess_iff :
    c.isSuccess a = true ↔ shortName a.name = c.conventions.responseAttribute ∧
      ∃ n : Int64, .int n ∈ a.values ∧ 200 ≤ n.toInt ∧ n.toInt ≤ 299 := by
  rw [isSuccess, Bool.and_eq_true, decide_eq_true_iff, List.any_eq_true]
  refine and_congr_right fun _ => ⟨?_, ?_⟩
  · rintro ⟨x, hx, hs⟩
    obtain ⟨v, hv, he⟩ := List.mem_filterMap.1 hx
    cases v with
    | int n =>
      obtain rfl := Option.some.inj he
      simp only [Bool.and_eq_true, decide_eq_true_eq] at hs
      exact ⟨n, hv, hs.1, by omega⟩
    | _ => simp at he
  · rintro ⟨n, hn, hl, hu⟩
    refine ⟨n.toInt, List.mem_filterMap.2 ⟨_, hn, rfl⟩, ?_⟩
    simp only [Bool.and_eq_true, decide_eq_true_eq]
    omega

theorem argumentType?_eq_some_iff :
    a.argumentType? = some t ↔
      ∃ before after, a.values = before ++ .type t :: after ∧ ∀ u, .type u ∉ before := by
  rw [Attribute.argumentType?, List.findSome?_eq_some_iff]
  constructor
  · rintro ⟨before, v, after, hv, ht, hb⟩
    cases v with
    | type u =>
      obtain rfl := Option.some.inj ht
      exact ⟨before, after, hv, fun w hw => by simpa using hb _ hw⟩
    | _ => simp at ht
  · rintro ⟨before, after, hv, hb⟩
    refine ⟨before, _, after, hv, rfl, fun v hm => ?_⟩
    cases v with
    | type u => exact absurd hm (hb u)
    | _ => rfl

theorem answers_iff :
    (if c.isSuccess a then a.argumentType? else none) = some t ↔ Answers c a t := by
  constructor
  · intro h
    obtain ⟨hs, ht⟩ := Option.ite_none_right_eq_some.1 h
    obtain ⟨hr, hn⟩ := isSuccess_iff.1 hs
    exact ⟨hr, hn, argumentType?_eq_some_iff.1 ht⟩
  · intro h
    rw [if_pos (isSuccess_iff.2 ⟨h.response, h.success⟩)]
    exact argumentType?_eq_some_iff.2 h.first

end Catalog

/-- Collecting the leaves of several references in turn comes to the union of the leaves of each, in
order. So the models of a controller are the leaves of what the methods it offers answer with on
success, then those of their parameters, each in the order they are declared in, and the models of
the responses come first. -/
theorem models_union :
    (∀ (o : Ownership) (s : Session) (roots : List TypeReference),
      roots.foldl (fun leaves root => addLeaves o s root leaves) [] =
        firstNamed (roots.flatMap (reachedTypes o s))) ∧
    ∀ (c : Catalog) (d : DescribedType), ∃ answer? : Attribute → Option TypeReference,
      (∀ a t, answer? a = some t ↔ Answers c a t) ∧
      c.modelsOfResponses (Catalog.actions d) =
        firstNamed ((((offered d).flatMap (·.attributes)).filterMap answer?).flatMap
          (reachedTypes c.ownership c.session)) ∧
      c.modelsOfActions d =
        firstNamed ((((offered d).flatMap (·.attributes)).filterMap answer? ++
          ((offered d).flatMap (·.parameters)).map (·.type)).flatMap
            (reachedTypes c.ownership c.session)) ∧
      c.modelsOfResponses (Catalog.actions d) <+: c.modelsOfActions d := by
  refine ⟨foldl_addLeaves, fun c d => ⟨_, fun a t => Catalog.answers_iff, ?_⟩⟩
  have hr : c.modelsOfResponses (offered d) =
      firstNamed ((((offered d).flatMap (·.attributes)).filterMap fun a =>
        if c.isSuccess a then a.argumentType? else none).flatMap
          (reachedTypes c.ownership c.session)) := by
    rw [← flatMap_reachedTypes_filter]
    exact foldl_addLeaves ..
  have hm : c.leavesOf (c.responseRoots (offered d) ++ c.parameterRoots (offered d)) [] =
      firstNamed ((((offered d).flatMap (·.attributes)).filterMap (fun a =>
        if c.isSuccess a then a.argumentType? else none) ++
          ((offered d).flatMap (·.parameters)).map (·.type)).flatMap
            (reachedTypes c.ownership c.session)) := by
    rw [← flatMap_reachedTypes_filter, List.filter_append]
    exact foldl_addLeaves ..
  rw [Catalog.modelsOfActions, Catalog.actions_eq, hr, hm]
  refine ⟨rfl, rfl, ?_⟩
  rw [List.flatMap_append]
  exact firstNamed_prefix ..

end Docsmith.Discovery
