import Docsmith.Discovery.Catalog
import Docsmith.Proofs.Discovery.Reach
import Docsmith.Proofs.Discovery.Visits

/-!
# Foreign types are opaque

Of types that are not owned nothing is read but their names and modules. So sessions that differ in
what else such types are have the same leaves and the same models of controllers.

* `SameOwned`: sessions that differ in foreign types only;
* `visit_congr`, `walk_congr`: a walk reads of a session which owned types its names stand for;
* `opaque_foreign`: the leaves of references and the models of controllers are the same.
-/

namespace Docsmith.Discovery

open Docsmith.Metadata

variable {o : Ownership} {s s' : Session}

/-! ## Sessions alike -/

/-- Two descriptions of a type that agree on its name and its module, and on all if it is owned. -/
structure Resembles (o : Ownership) (d e : DescribedType) : Prop where
  name : d.name = e.name
  module : d.module = e.module
  owned : o.holdsModule d.module = true → d = e

/-- Sessions of one target whose types resemble each other one by one. -/
structure SameOwned (o : Ownership) (s s' : Session) : Prop where
  target : s.target = s'.target
  types : List.Forall₂ (Resembles o) s.types s'.types

theorem Resembles.symm {d e : DescribedType} (h : Resembles o d e) : Resembles o e d :=
  ⟨h.name.symm, h.module.symm, fun ho => (h.owned (h.module ▸ ho)).symm⟩

theorem SameOwned.symm (h : SameOwned o s s') : SameOwned o s' s :=
  ⟨h.target.symm, (h.types.imp fun _ _ hr => hr.symm).flip⟩

theorem find?_resembles {ds es : List DescribedType} (h : List.Forall₂ (Resembles o) ds es)
    (name : String) :
    Option.Rel (Resembles o) (ds.find? (·.name = name)) (es.find? (·.name = name)) := by
  induction h with
  | nil => exact .none
  | @cons d e ds es hr _ ih =>
    rw [List.find?_cons, List.find?_cons, hr.name]
    split
    · exact .some hr
    · exact ih

theorem SameOwned.named? (h : SameOwned o s s') (name : String) :
    Option.Rel (Resembles o) (s.named? name) (s'.named? name) :=
  find?_resembles h.types name

theorem SameOwned.find? (h : SameOwned o s s') (name : String) :
    Option.Rel (Resembles o) (s.find? name) (s'.find? name) := by
  have hn := h.named? name
  have hq := h.named? (s.target ++ "::" ++ name)
  rw [Session.find?_eq, Session.find?_eq, ← h.target]
  revert hn
  generalize s.named? name = found, s'.named? name = found'
  rintro (hr | _)
  · exact .some hr
  · exact hq

theorem eq_of_rel {d : DescribedType} {found : Option DescribedType}
    (h : Option.Rel (Resembles o) (some d) found) (ho : o.holdsModule d.module = true) :
    found = some d := by
  cases h with
  | some hr => rw [hr.owned ho]

theorem SameOwned.resolves (h : SameOwned o s s') {name : String} {d : DescribedType}
    (hd : Resolves o s name d) : Resolves o s' name d :=
  ⟨eq_of_rel (hd.found ▸ h.find? name) hd.owned, hd.owned⟩

/-- An owned type of one session is in the other. -/
theorem SameOwned.mem (h : SameOwned o s s') {d : DescribedType} (hd : d ∈ s.types)
    (ho : o.holdsModule d.module = true) : d ∈ s'.types := by
  have hn : s.named? d.name = some d := Session.named?_eq_some_iff.2 ⟨hd, rfl⟩
  exact Session.mem_of_named? (eq_of_rel (hn ▸ h.named? d.name) ho)

/-! ## Walks -/

/-- Sessions in which names stand for the same owned types. -/
def AgreeOnOwned (o : Ownership) (s s' : Session) : Prop :=
  ∀ name d, Resolves o s name d ↔ Resolves o s' name d

theorem SameOwned.agree (h : SameOwned o s s') : AgreeOnOwned o s s' :=
  fun _ _ => ⟨h.resolves, h.symm.resolves⟩

mutual

theorem owns_congr (h : AgreeOnOwned o s s') : ∀ t, o.owns s t = o.owns s' t
  | .named name => by
    rw [Bool.eq_iff_iff, owns_named, owns_named]
    exact exists_congr (h name)
  | .generic _ args => by
    rw [Ownership.owns, Ownership.owns]
    exact ownsAny_congr h args
  | .array element => by
    rw [Ownership.owns, Ownership.owns]
    exact owns_congr h element

theorem ownsAny_congr (h : AgreeOnOwned o s s') : ∀ ts, o.ownsAny s ts = o.ownsAny s' ts
  | [] => by rw [Ownership.ownsAny, Ownership.ownsAny]
  | t :: ts => by
    rw [Ownership.ownsAny, Ownership.ownsAny, owns_congr h t, ownsAny_congr h ts]

end

/-- An owned name stands for the same type in both sessions. -/
theorem find?_congr (h : AgreeOnOwned o s s') {name : String} (ho : o.owns s (.named name) = true) :
    s.find? name = s'.find? name := by
  obtain ⟨d, hd⟩ := owns_named.1 ho
  rw [hd.found, ((h name d).1 hd).found]

/-- A visit reads of a session only which owned types names stand for. -/
theorem visit_congr (h : AgreeOnOwned o s s') (expanded : List String) (t : TypeReference) :
    visit o s expanded t = visit o s' expanded t := by
  by_cases ho : o.owns s t = true
  · have ho' : o.owns s' t = true := owns_congr h t ▸ ho
    rw [visit.eq_def, visit.eq_def, if_pos ho, if_pos ho']
    cases t with
    | generic name args => rfl
    | array element =>
      cases element with
      | named name =>
        rw [Ownership.owns] at ho
        simp only [Session.resolve?, find?_congr h ho]
      | generic name args => rfl
      | array element => rfl
    | named name => simp only [find?_congr h ho]
  · have ho' : ¬o.owns s' t = true := owns_congr h t ▸ ho
    rw [visit_of_not_owns ho, visit_of_not_owns ho']

theorem walk_congr (h : AgreeOnOwned o s s') (todo : List TypeReference)
    (leaves : List DescribedType) (expanded : List String) :
    walk o s todo leaves expanded = walk o s' todo leaves expanded := by
  induction todo, expanded using walk_induction o s generalizing leaves with
  | nil expanded => rw [walk_nil, walk_nil]
  | cons t rest expanded ih => rw [walk_cons, ih, walk_cons, visit_congr h]

theorem addLeaves_congr (h : AgreeOnOwned o s s') (root : TypeReference)
    (leaves : List DescribedType) : addLeaves o s root leaves = addLeaves o s' root leaves :=
  walk_congr h [root] leaves []

namespace Catalog

variable {conventions : CatalogConventions}

theorem ownership_congr (h : SameOwned o s s') :
    ownership ⟨s', conventions⟩ = ownership ⟨s, conventions⟩ := by
  rw [ownership, ownership, h.target]

theorem inDomain_congr (h : SameOwned (ownership ⟨s, conventions⟩) s s')
    (roots : List TypeReference) :
    inDomain ⟨s, conventions⟩ roots = inDomain ⟨s', conventions⟩ roots := by
  rw [inDomain, inDomain, ownership_congr h]
  exact List.filter_congr fun t _ => owns_congr h.agree t

theorem leavesOf_congr (h : SameOwned (ownership ⟨s, conventions⟩) s s')
    (roots : List TypeReference) (leaves : List DescribedType) :
    leavesOf ⟨s, conventions⟩ roots leaves = leavesOf ⟨s', conventions⟩ roots leaves := by
  rw [leavesOf, leavesOf, ownership_congr h]
  simp only [addLeaves_congr h.agree]

theorem modelsOfActions_congr (h : SameOwned (ownership ⟨s, conventions⟩) s s')
    (d : DescribedType) :
    modelsOfActions ⟨s, conventions⟩ d = modelsOfActions ⟨s', conventions⟩ d := by
  have hr : responseRoots ⟨s, conventions⟩ (actions d) =
      responseRoots ⟨s', conventions⟩ (actions d) := inDomain_congr h _
  have hp : parameterRoots ⟨s, conventions⟩ (actions d) =
      parameterRoots ⟨s', conventions⟩ (actions d) := inDomain_congr h _
  rw [modelsOfActions, modelsOfActions, hr, hp, leavesOf_congr h]

end Catalog

/-- Foreign types are opaque: in two sessions of one target, with types of the same names and
modules in the same order, that differ at most in what the types are that are not owned, all
references have the same leaves in the same order. An owned controller of one session is in the
other, and has the same models there. -/
theorem opaque_foreign :
    (∀ (o : Ownership) (s s' : Session), SameOwned o s s' →
      ∀ root, reachedTypes o s root = reachedTypes o s' root) ∧
    ∀ (conventions : CatalogConventions) (s s' : Session),
      SameOwned (Catalog.ownership ⟨s, conventions⟩) s s' →
      ∀ d ∈ s.types, (Catalog.ownership ⟨s, conventions⟩).holdsModule d.module = true →
        d ∈ s'.types ∧
        Catalog.modelsOfActions ⟨s, conventions⟩ d =
          Catalog.modelsOfActions ⟨s', conventions⟩ d := by
  refine ⟨fun o s s' h root => ?_, fun conventions s s' h d hd ho => ?_⟩
  · exact addLeaves_congr h.agree root []
  · exact ⟨h.mem hd ho, Catalog.modelsOfActions_congr h d⟩

/-! ## A foreign base -/

/-- A type of another module, as a structured type that leads to an owned one or as a scalar. -/
def foreignBase (kind : TypeForm) : DescribedType :=
  ⟨"web::Entity", "web", kind, none, [⟨"secret", .named "acme::Secret"⟩], [], [], []⟩

def secretModel : DescribedType :=
  ⟨"acme::Secret", "acme", .structured, none, [], [], [], []⟩

def orderModel : DescribedType :=
  ⟨"acme::Order", "acme", .structured, some (.named "web::Entity"),
    [⟨"parent", .generic "Option" [.named "web::Entity", .named "Order"]⟩], [], [], []⟩

/-- A controller that answers with orders. -/
def orderController : DescribedType :=
  ⟨"acme::OrderController", "acme", .structured, some (.named "ControllerBase"), [],
    [⟨"list", .everyone, false, false, [⟨"base", .named "web::Entity"⟩],
      [⟨"response", [.int 200, .type (.named "acme::Order")], .empty⟩]⟩], [], []⟩

def orderSession (kind : TypeForm) : Session :=
  .ofSnapshots [⟨"acme", [], [orderController, foreignBase kind, orderModel, secretModel]⟩]

theorem sameOwned_orderSession (kind kind' : TypeForm) :
    SameOwned ⟨"acme", []⟩ (orderSession kind) (orderSession kind') := by
  have same (d : DescribedType) : Resembles ⟨"acme", []⟩ d d := ⟨rfl, rfl, fun _ => rfl⟩
  have foreign : Resembles ⟨"acme", []⟩ (foreignBase kind) (foreignBase kind') := by
    refine ⟨rfl, rfl, fun h => ?_⟩
    have hn : ¬Ownership.holdsModule ⟨"acme", []⟩ "web" = true := by decide
    exact absurd h hn
  exact ⟨rfl, .cons (same _) (.cons foreign (.cons (same _) (.cons (same _) .nil)))⟩

/-- A foreign base and a foreign property are passed over, whatever they are. -/
theorem opaque_foreign_base :
    SameOwned (Catalog.ownership ⟨orderSession .structured, .standard⟩) (orderSession .structured)
      (orderSession .scalar) ∧
    orderModel ∈ reachedTypes ⟨"acme", []⟩ (orderSession .structured) (.named "Order") ∧
    reachedTypes ⟨"acme", []⟩ (orderSession .structured) (.named "Order") =
      reachedTypes ⟨"acme", []⟩ (orderSession .scalar) (.named "Order") ∧
    orderController ∈ (orderSession .scalar).types ∧
    Catalog.modelsOfActions ⟨orderSession .structured, .standard⟩ orderController =
      Catalog.modelsOfActions ⟨orderSession .scalar, .standard⟩ orderController := by
  have h : SameOwned (Catalog.ownership ⟨orderSession .structured, .standard⟩)
      (orderSession .structured) (orderSession .scalar) := sameOwned_orderSession ..
  have hr : Resolves ⟨"acme", []⟩ (orderSession .structured) "Order" orderModel := ⟨rfl, rfl⟩
  have hd : orderController ∈ (orderSession .structured).types := List.mem_cons_self ..
  exact ⟨h, (mem_addLeaves orderModel).2 (.expanded .root hr rfl), opaque_foreign.1 _ _ _ h _,
    opaque_foreign.2 .standard _ _ h orderController hd (by decide)⟩

end Docsmith.Discovery
