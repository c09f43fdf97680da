import Docsmith.Proofs.Discovery.Reach
import Docsmith.Proofs.Discovery.Union

/-!
# Elements of arrays

An array leads to its element and no further. A plain name is a leaf there, whatever form the type
it stands for has, and anything else is not looked into. So arrays are the one place where a name is
lost, and the one place from which a type that is not structured becomes a leaf.

* `Mentions`, `Shows`: that a name occurs in a reference, and that it does where it is seen;
* `wrapped_found_iff`: the names whose types are found in every session;
* `interfaces_excluded_iff`: the roots without an interface among their leaves;
* `mem_responseProperties`: the types whose properties are listed for a controller;
* `responseProperties_structured_iff`: the controllers for which these are all structured.
-/

namespace Docsmith.Metadata.TypeReference

/-- A name occurs in a reference, at any depth. -/
inductive Mentions : TypeReference → String → Prop
  | named {name : String} : Mentions (.named name) name
  | argument {generic name : String} {args : List TypeReference} {t : TypeReference} :
      t ∈ args → Mentions t name → Mentions (.generic generic args) name
  | element {name : String} {t : TypeReference} : Mentions t name → Mentions (.array t) name

/-- A name occurs in a reference with no array around it but one of which it is the element. -/
inductive Shows : TypeReference → String → Prop
  | named {name : String} : Shows (.named name) name
  | argument {generic name : String} {args : List TypeReference} {t : TypeReference} :
      t ∈ args → Shows t name → Shows (.generic generic args) name
  | element {name : String} : Shows (.array (.named name)) name

end Docsmith.Metadata.TypeReference

namespace Docsmith.Discovery

open Docsmith.Metadata

variable {o : Ownership} {s : Session} {root : TypeReference} {d : DescribedType} {name : String}

/-! ## Names in wrappers -/

theorem IsLeaf.mem_types (h : IsLeaf o s root d) : d ∈ s.types := by
  cases h with
  | expanded _ hd _ => exact Session.mem_of_find? hd.found
  | element _ hd => exact Session.mem_of_find? hd.found

theorem mem_reachedTypes : d ∈ reachedTypes o s root ↔ IsLeaf o s root d := mem_addLeaves d

theorem isLeaf_of_shows (h : root.Shows name) (hd : Resolves o s name d)
    (hk : d.kind = .structured) : IsLeaf o s root d := by
  induction h with
  | named => exact .expanded .root hd hk
  | argument ht _ ih => exact (ih hd).of_reaches (.argument .root ht)
  | element => exact .element .root hd

/-- A structured type that leads nowhere. -/
def loneModel (name : String) : DescribedType :=
  ⟨name, name, .structured, none, [], [], [], []⟩

/-- A session of one type, whose target is no part of its name. -/
def loneSession (name : String) : Session :=
  ⟨name, [loneModel name], ⟨[(name, 0)], List.nodup_singleton _⟩, rfl⟩

theorem find?_loneSession {key : String} :
    (loneSession name).find? key = some d ↔ key = name ∧ d = loneModel name := by
  have hlong : name ≠ name ++ "::" ++ key := fun h => by
    have hl := congrArg String.length h
    rw [String.length_append, String.length_append, show "::".length = 2 from rfl] at hl
    omega
  rw [Session.find?_eq_some_iff]
  constructor
  · rintro (⟨hd, hn⟩ | ⟨-, hd, hn⟩)
    · obtain rfl := List.mem_singleton.1 hd
      exact ⟨hn.symm, rfl⟩
    · obtain rfl := List.mem_singleton.1 hd
      exact absurd hn hlong
  · rintro ⟨rfl, rfl⟩
    exact .inl ⟨List.mem_singleton_self _, rfl⟩

theorem resolves_loneModel : Resolves ⟨name, []⟩ (loneSession name) name (loneModel name) :=
  ⟨find?_loneSession.2 ⟨rfl, rfl⟩, by simp [Ownership.holdsModule, loneModel]⟩

/-- Where the only type leads nowhere, what is led to shows names only that the root shows. -/
theorem shows_of_reaches {t : TypeReference} (h : Reaches o (loneSession name) root t)
    (ht : t.Shows name) : root.Shows name := by
  induction h with
  | root => exact ht
  | argument _ hu ih => exact ih (.argument hu ht)
  | base _ hd _ hb =>
    obtain ⟨-, rfl⟩ := find?_loneSession.1 hd.found
    simp [loneModel] at hb
  | property _ hd _ hp =>
    obtain ⟨-, rfl⟩ := find?_loneSession.1 hd.found
    simp [loneModel] at hp

theorem shows_of_isLeaf (h : IsLeaf o (loneSession name) root d) : root.Shows name := by
  cases h with
  | expanded hr hd _ =>
    obtain ⟨rfl, -⟩ := find?_loneSession.1 hd.found
    exact shows_of_reaches hr .named
  | element hr hd =>
    obtain ⟨rfl, -⟩ := find?_loneSession.1 hd.found
    exact shows_of_reaches hr .element

/-- The type of a name is found in every session exactly if the name is shown. So no type of a name
that occurs in a reference is lost exactly if the reference shows all the names it mentions: if no
array has an array or a generic type for an element that mentions a name which is not shown
elsewhere. -/
theorem wrapped_found_iff (t : TypeReference) :
    (∀ name, t.Shows name ↔
      ∀ o s d, Resolves o s name d → d.kind = .structured → d ∈ reachedTypes o s t) ∧
    ((∀ name, t.Mentions name →
        ∀ o s d, Resolves o s name d → d.kind = .structured → d ∈ reachedTypes o s t) ↔
      ∀ name, t.Mentions name → t.Shows name) := by
  have hshows (name : String) : t.Shows name ↔
      ∀ o s d, Resolves o s name d → d.kind = .structured → d ∈ reachedTypes o s t := by
    refine ⟨fun h o s d hd hk => mem_reachedTypes.2 (isLeaf_of_shows h hd hk), fun h => ?_⟩
    have hl := h ⟨name, []⟩ (loneSession name) (loneModel name) resolves_loneModel rfl
    exact shows_of_isLeaf (mem_reachedTypes.1 hl)
  exact ⟨hshows, forall_congr' fun name => imp_congr_right fun _ => (hshows name).symm⟩

/-- What an array of anything but a plain name has for leaves. -/
theorem reachedTypes_array_of_resolve? {element : TypeReference} (h : s.resolve? element = none) :
    reachedTypes o s (.array element) = [] := by
  have hv : visit o s [] (.array element) = .idle [] := by
    rw [visit, h]
    exact ite_self _
  rw [reachedTypes, addLeaves, walk_cons, hv]
  exact walk_nil _ _

def accountModel : DescribedType :=
  ⟨"acme::Account", "acme", .structured, none, [], [], [], []⟩

def accountSession : Session := .ofSnapshots [⟨"acme", [], [accountModel]⟩]

/-- A model is lost in a wrapper whose values are elements of an array. -/
theorem wrapped_lost :
    (TypeReference.array (.generic "Vec" [.named "acme::Account"])).Mentions "acme::Account" ∧
    Resolves ⟨"acme", []⟩ accountSession "acme::Account" accountModel ∧
    accountModel.kind = .structured ∧
    accountModel ∉ reachedTypes ⟨"acme", []⟩ accountSession
      (.array (.generic "Vec" [.named "acme::Account"])) := by
  refine ⟨.element (.argument (List.mem_singleton_self _) .named), ⟨rfl, rfl⟩, rfl, ?_⟩
  rw [reachedTypes_array_of_resolve? rfl]
  simp

/-! ## Forms of leaves -/

/-- What is not structured is a leaf only as the element of an array. -/
theorem isLeaf_iff_of_not_structured (hk : d.kind ≠ .structured) :
    IsLeaf o s root d ↔
      ∃ name, Reaches o s root (.array (.named name)) ∧ Resolves o s name d := by
  constructor
  · intro h
    cases h with
    | expanded _ _ hs => exact absurd hs hk
    | element hr hd => exact ⟨_, hr, hd⟩
  · rintro ⟨name, hr, hd⟩
    exact .element hr hd

/-- No leaf of a root is an interface exactly if no array it leads to has an owned interface for an
element. -/
theorem interfaces_excluded_iff (o : Ownership) (s : Session) (root : TypeReference) :
    (∀ d ∈ reachedTypes o s root, d.kind ≠ .interface) ↔
      ∀ name d, Reaches o s root (.array (.named name)) → Resolves o s name d →
        d.kind ≠ .interface := by
  constructor
  · exact fun h name d hr hd => h d (mem_reachedTypes.2 (.element hr hd))
  · intro h d hd hk
    have hs : d.kind ≠ .structured := by simp [hk]
    obtain ⟨name, hr, hn⟩ := (isLeaf_iff_of_not_structured hs).1 (mem_reachedTypes.1 hd)
    exact h name d hr hn hk

def shapeInterface : DescribedType :=
  ⟨"acme::Shape", "acme", .interface, none, [], [], [], []⟩

def shapeSession : Session := .ofSnapshots [⟨"acme", [], [shapeInterface]⟩]

/-- An interface is a leaf of an array of it. -/
theorem interface_included :
    shapeInterface.kind = .interface ∧
      shapeInterface ∈ reachedTypes ⟨"acme", []⟩ shapeSession (.array (.named "acme::Shape")) :=
  ⟨rfl, mem_reachedTypes.2 (.element .root ⟨rfl, rfl⟩)⟩

/-! ## Leaves of several references -/

namespace Catalog

variable {c : Catalog} {controller version : String}

theorem mem_leavesOf {roots : List TypeReference} :
    d ∈ c.leavesOf roots [] ↔ ∃ root ∈ roots, IsLeaf c.ownership c.session root d := by
  have hl (e : DescribedType) : e ∈ roots.flatMap (reachedTypes c.ownership c.session) ↔
      ∃ root ∈ roots, IsLeaf c.ownership c.session root e := by
    simp only [List.mem_flatMap, mem_reachedTypes]
  have hs (e : DescribedType) (he : e ∈ roots.flatMap (reachedTypes c.ownership c.session)) :
      e ∈ c.session.types := by
    obtain ⟨root, -, he⟩ := (hl e).1 he
    exact he.mem_types
  rw [leavesOf, foldl_addLeaves, mem_firstNamed hs, hl]

/-- The properties listed for a controller are those of the types that its response models lead to
when each is visited by its name. -/
theorem mem_responseProperties {e : String × List Property} :
    e ∈ c.responseProperties controller version ↔
      ∃ k m d, c.controller? controller version = some k ∧ m ∈ c.modelsOfResponses (actions k) ∧
        IsLeaf c.ownership c.session (.named m.name) d ∧ (d.name, d.properties) = e := by
  rw [responseProperties]
  cases c.controller? controller version with
  | none => simp
  | some k =>
    simp only [List.mem_map, mem_leavesOf]
    constructor
    · rintro ⟨d, ⟨_, ⟨m, hm, rfl⟩, hd⟩, he⟩
      exact ⟨k, m, d, rfl, hm, hd, he⟩
    · rintro ⟨_, m, d, hk, hm, hd, he⟩
      obtain rfl := Option.some.inj hk
      exact ⟨d, ⟨_, ⟨m, hm, rfl⟩, hd⟩, he⟩

/-- They are found under their names. -/
theorem find?_of_mem_responseProperties {e : String × List Property}
    (he : e ∈ c.responseProperties controller version) :
    ∃ d, c.session.find? e.1 = some d ∧ (d.name, d.properties) = e := by
  obtain ⟨k, m, d, -, -, hd, rfl⟩ := mem_responseProperties.1 he
  exact ⟨d, Session.find?_of_mem hd.mem_types, rfl⟩

end Catalog

/-- All types whose properties are listed for a controller are structured exactly if no array that
its response models lead to has an owned type that is not structured for an element. -/
theorem responseProperties_structured_iff (c : Catalog) (controller version : String) :
    (∀ e ∈ c.responseProperties controller version,
      ∃ d, c.session.find? e.1 = some d ∧ d.kind = .structured) ↔
    ∀ k, c.controller? controller version = some k →
      ∀ m ∈ c.modelsOfResponses (Catalog.actions k), ∀ name d,
        Reaches c.ownership c.session (.named m.name) (.array (.named name)) →
          Resolves c.ownership c.session name d → d.kind = .structured := by
  have hfind {m d : DescribedType} (h : IsLeaf c.ownership c.session (.named m.name) d) :
      c.session.find? d.name = some d := Session.find?_of_mem h.mem_types
  constructor
  · intro h k hk m hm name d hr hd
    have hl : IsLeaf c.ownership c.session (.named m.name) d := .element hr hd
    obtain ⟨e, he, hs⟩ := h _ (Catalog.mem_responseProperties.2 ⟨k, m, d, hk, hm, hl, rfl⟩)
    rwa [← Option.some.inj ((hfind hl).symm.trans he)] at hs
  · intro h e he
    obtain ⟨k, m, d, hk, hm, hl, rfl⟩ := Catalog.mem_responseProperties.1 he
    refine ⟨d, hfind hl, ?_⟩
    cases hl with
    | expanded _ _ hs => exact hs
    | element hr hd => exact h k hk m hm _ d hr hd

def statusForm : DescribedType :=
  ⟨"acme::Status", "acme", .enumeration, none, [], [], [], ["Open"]⟩

def ticketModel : DescribedType :=
  ⟨"acme::Ticket", "acme", .structured, none, [⟨"history", .array (.named "acme::Status")⟩], [],
    [], []⟩

/-- A controller that answers with tickets. -/
def ticketController : DescribedType :=
  ⟨"acme::TicketController", "acme", .structured, some (.named "ControllerBase"), [],
    [⟨"get", .everyone, false, false, [],
      [⟨"response", [.int 200, .type (.named "acme::Ticket")], .empty⟩]⟩], [], []⟩

def ticketSession : Session :=
  .ofSnapshots [⟨"acme", [], [ticketController, ticketModel, statusForm]⟩]

/-- The properties of an enumeration are listed where a model has an array of it. -/
theorem enumeration_listed :
    ("acme::Status", []) ∈ Catalog.responseProperties ⟨ticketSession, .standard⟩ "Ticket" "" ∧
      ticketSession.find? "acme::Status" = some statusForm ∧ statusForm.kind = .enumeration := by
  have hm : Resolves ⟨"acme", []⟩ ticketSession "acme::Ticket" ticketModel := ⟨rfl, rfl⟩
  have hs : Resolves ⟨"acme", []⟩ ticketSession "acme::Status" statusForm := ⟨rfl, rfl⟩
  have hmodel : ticketModel ∈ Catalog.modelsOfResponses ⟨ticketSession, .standard⟩
      (Catalog.actions ticketController) :=
    Catalog.mem_leavesOf.2 ⟨.named "acme::Ticket", List.mem_singleton_self _,
      .expanded .root hm rfl⟩
  have hleaf : IsLeaf ⟨"acme", []⟩ ticketSession (.named "acme::Ticket") statusForm :=
    .element (.property .root hm rfl (List.mem_singleton_self _)) hs
  exact ⟨Catalog.mem_responseProperties.2 ⟨ticketController, ticketModel, statusForm, rfl,
    hmodel, hleaf, rfl⟩, rfl, rfl⟩

end Docsmith.Discovery
