import Docsmith.Proofs.Discovery.Arrays

/-!
# Closures of controllers

The models of a controller are listed behind its own name, and the lists of all controllers of a
version are put into one table by short name. The names of the models differ from one another, not
always from the controller's; the lists are not lost unless two controllers share a short name.

The properties listed for a controller are those of its response models, visited once more by their
names, because the element of an array is found without what it leads to. That expands the elements
found the first time, not those that are found by it.

* `nodup_all_iff`: the controllers whose closure repeats no name;
* `find?_modelsFor`, `modelsFor_complete_iff`: whose list is found under a short name, and when all
  are found;
* `mem_responseTypes`: the types whose properties are listed for a controller;
* `responseTypes_closed_iff`: the controllers for which these name no type beyond themselves.
-/

namespace Docsmith.Discovery

open Docsmith.Metadata

namespace Catalog

variable {c : Catalog} {controller version : String} {d : DescribedType}

/-! ## Names of a closure -/

theorem nodup_names_leavesOf (c : Catalog) (roots : List TypeReference) :
    ((c.leavesOf roots []).map (·.name)).Nodup := by
  rw [leavesOf, foldl_addLeaves]
  exact nodup_firstNamed _

theorem mem_modelsOfActions {e : DescribedType} :
    e ∈ c.modelsOfActions d ↔
      ∃ root ∈ c.responseRoots (actions d) ++ c.parameterRoots (actions d),
        IsLeaf c.ownership c.session root e :=
  mem_leavesOf

theorem all_closure (c : Catalog) (d : DescribedType) :
    (c.closure d true).all = d.name :: (c.modelsOfActions d).map (·.name) := rfl

end Catalog

/-- No name is twice in the closure of a controller exactly if nothing that its actions answer with
or take leads to a type of the controller's name. -/
theorem nodup_all_iff (c : Catalog) (d : DescribedType) :
    (c.closure d true).all.Nodup ↔
      ∀ root ∈ c.responseRoots (Catalog.actions d) ++ c.parameterRoots (Catalog.actions d),
        ∀ e, IsLeaf c.ownership c.session root e → e.name ≠ d.name := by
  have hn : ((c.modelsOfActions d).map (·.name)).Nodup := c.nodup_names_leavesOf _
  rw [Catalog.all_closure, List.nodup_cons, and_iff_left hn]
  constructor
  · intro h root hr e he hd
    exact h (List.mem_map.2 ⟨e, Catalog.mem_modelsOfActions.2 ⟨root, hr, he⟩, hd⟩)
  · rintro h hd
    obtain ⟨e, he, hd⟩ := List.mem_map.1 hd
    obtain ⟨root, hr, he⟩ := Catalog.mem_modelsOfActions.1 he
    exact h root hr e he hd

/-- A controller without further actions that answers with a type. -/
def answering (name answer : String) : DescribedType :=
  ⟨name, "acme", .structured, some (.named "ControllerBase"), [],
    [⟨"get", .everyone, false, false, [],
      [⟨"response", [.int 200, .type (.named answer)], .empty⟩]⟩], [], []⟩

def guardedUser : DescribedType :=
  ⟨"acme::User", "acme", .structured, none,
    [⟨"guard", .named "acme::UserController"⟩], [], [], []⟩

def guardedSession : Session :=
  .ofSnapshots [⟨"acme", [], [answering "acme::UserController" "acme::User", guardedUser]⟩]

/-- A controller is twice in its closure where a property of its model is of its type. -/
theorem controller_repeated :
    answering "acme::UserController" "acme::User" ∈
        Catalog.controllersFor ⟨guardedSession, .standard⟩ "" ∧
      ¬(Catalog.closure ⟨guardedSession, .standard⟩
        (answering "acme::UserController" "acme::User") true).all.Nodup := by
  have hu : Resolves ⟨"acme", []⟩ guardedSession "acme::User" guardedUser := ⟨rfl, rfl⟩
  have hc : Resolves ⟨"acme", []⟩ guardedSession "acme::UserController"
      (answering "acme::UserController" "acme::User") := ⟨rfl, rfl⟩
  have hr : Reaches ⟨"acme", []⟩ guardedSession (.named "acme::User")
      (.named "acme::UserController") :=
    .property .root hu rfl (List.mem_singleton_self _)
  refine ⟨List.mem_filter.2 ⟨List.mem_cons_self, rfl⟩, fun h => ?_⟩
  rw [Catalog.all_closure, List.nodup_cons] at h
  exact h.1 (List.mem_map.2 ⟨_, Catalog.mem_modelsOfActions.2
    ⟨.named "acme::User", List.mem_singleton_self _, .expanded hr hc rfl⟩, rfl⟩)

/-! ## Controllers of one short name -/

theorem findRev?_eq_some_iff {α : Type} {p : α → Bool} {xs : List α} {x : α} :
    xs.findRev? p = some x ↔
      p x = true ∧ ∃ before after, xs = before ++ x :: after ∧ ∀ y ∈ after, p y = false := by
  rw [List.findRev?_eq_find?_reverse, List.find?_eq_some_iff_append]
  refine and_congr_right fun _ => ⟨?_, ?_⟩
  · rintro ⟨as, bs, hxs, ha⟩
    refine ⟨bs.reverse, as.reverse, ?_, fun y hy => by simpa using ha y (List.mem_reverse.1 hy)⟩
    simpa using congrArg List.reverse hxs
  · rintro ⟨before, after, rfl, ha⟩
    refine ⟨after.reverse, before.reverse, by simp, fun y hy => ?_⟩
    simpa using ha y (List.mem_reverse.1 hy)

theorem exists_findRev? {α : Type} {p : α → Bool} {xs : List α} {x : α} (hx : x ∈ xs)
    (hp : p x = true) : ∃ y, xs.findRev? p = some y := by
  rw [← Option.isSome_iff_exists, List.findRev?_eq_find?_reverse, List.find?_isSome]
  exact ⟨x, List.mem_reverse.2 hx, hp⟩

/-- Under a short name the list of the last controller that has it is found. -/
theorem Catalog.find?_modelsFor (c : Catalog) (version name : String) :
    (c.modelsFor version).find? name =
      ((c.controllersFor version).findRev? (·.shortName = name)).map
        fun d => (c.closure d false).all := by
  rw [modelsFor, Table.find?_foldl_put]
  exact Option.or_none

/-- The lists found are those of the controllers that no other of the same short name follows. -/
theorem Catalog.exists_find?_modelsFor (c : Catalog) (version : String) (names : List String) :
    (∃ name, (c.modelsFor version).find? name = some names) ↔
      ∃ e before after, c.controllersFor version = before ++ e :: after ∧
        (∀ f ∈ after, f.shortName ≠ e.shortName) ∧ (c.closure e false).all = names := by
  simp only [find?_modelsFor, Option.map_eq_some_iff, findRev?_eq_some_iff]
  constructor
  · rintro ⟨name, e, ⟨hn, before, after, hcs, ha⟩, he⟩
    obtain rfl := of_decide_eq_true hn
    exact ⟨e, before, after, hcs, fun f hf => of_decide_eq_false (ha f hf), he⟩
  · rintro ⟨e, before, after, hcs, ha, he⟩
    exact ⟨e.shortName, e, ⟨decide_eq_true rfl, before, after, hcs,
      fun f hf => decide_eq_false (ha f hf)⟩, he⟩

/-- The list of every controller of a version is found under its short name exactly if controllers
of one short name have the same list. It is found somewhere exactly if it is also the list of a
controller that none of the same short name follows. -/
theorem modelsFor_complete_iff (c : Catalog) (version : String) :
    ((∀ d ∈ c.controllersFor version,
        (c.modelsFor version).find? d.shortName = some (c.closure d false).all) ↔
      ∀ d ∈ c.controllersFor version, ∀ e ∈ c.controllersFor version,
        d.shortName = e.shortName → (c.closure d false).all = (c.closure e false).all) ∧
    ((∀ d ∈ c.controllersFor version,
        ∃ name, (c.modelsFor version).find? name = some (c.closure d false).all) ↔
      ∀ d ∈ c.controllersFor version, ∃ e before after,
        c.controllersFor version = before ++ e :: after ∧
          (∀ f ∈ after, f.shortName ≠ e.shortName) ∧
          (c.closure e false).all = (c.closure d false).all) := by
  refine ⟨⟨fun h d hd e he hn => ?_, fun h d hd => ?_⟩,
    forall₂_congr fun d _ => c.exists_find?_modelsFor version _⟩
  · have hfound := h e he
    rw [← hn, h d hd] at hfound
    exact Option.some.inj hfound
  · obtain ⟨e, hlast⟩ := exists_findRev? (p := (·.shortName = d.shortName)) hd (decide_eq_true rfl)
    obtain ⟨hn, before, after, hcs, -⟩ := findRev?_eq_some_iff.1 hlast
    have he : e ∈ c.controllersFor version := hcs ▸ List.mem_append_cons_self
    rw [Catalog.find?_modelsFor, hlast]
    exact congrArg some (h d hd e he (of_decide_eq_true hn).symm).symm

/-- A session with a controller for each of two versions. -/
def versionedSession : Session :=
  .ofSnapshots [⟨"acme", [], [answering "acme::v04::UsersController" "acme::User",
    answering "acme::v05::UsersController" "acme::User"]⟩]

/-- A controller is lost where one of another version has its short name. -/
theorem controller_lost :
    answering "acme::v04::UsersController" "acme::User" ∈
        Catalog.controllersFor ⟨versionedSession, .standard⟩ "" ∧
      ∀ name, (Catalog.modelsFor ⟨versionedSession, .standard⟩ "").find? name ≠
        some (Catalog.closure ⟨versionedSession, .standard⟩
          (answering "acme::v04::UsersController" "acme::User") false).all := by
  have hcs : Catalog.controllersFor ⟨versionedSession, .standard⟩ "" =
      [answering "acme::v04::UsersController" "acme::User",
        answering "acme::v05::UsersController" "acme::User"] := rfl
  have hshort : (answering "acme::v05::UsersController" "acme::User").shortName =
      (answering "acme::v04::UsersController" "acme::User").shortName := by decide +kernel
  have hshown : Catalog.shownName ⟨versionedSession, .standard⟩ "acme::v05::UsersController" false ≠
      Catalog.shownName ⟨versionedSession, .standard⟩ "acme::v04::UsersController" false := by
    decide +kernel
  refine ⟨hcs ▸ List.mem_cons_self, fun name hname => ?_⟩
  obtain ⟨e, before, after, hsplit, hafter, he⟩ :=
    (Catalog.exists_find?_modelsFor _ _ _).1 ⟨name, hname⟩
  rw [hcs] at hsplit
  cases before with
  | nil =>
    obtain ⟨rfl, rfl⟩ := List.cons.inj hsplit
    exact hafter _ (List.mem_singleton_self _) hshort
  | cons first before =>
    obtain ⟨-, hsplit⟩ := List.cons.inj hsplit
    obtain ⟨-, hsplit⟩ | ⟨-, hsplit⟩ := List.singleton_eq_append_iff.1 hsplit
    · obtain ⟨rfl, -⟩ := List.cons.inj hsplit
      exact hshown (List.cons.inj he).1
    · cases hsplit

/-! ## Types of listed properties -/

/-- The types whose properties are listed for a controller, by name. -/
def Catalog.responseTypes (c : Catalog) (controller version : String) : List String :=
  (c.responseProperties controller version).map (·.1)

theorem Catalog.mem_responseTypes {c : Catalog} {controller version : String} {d : DescribedType}
    (hd : d ∈ c.session.types) :
    d.name ∈ c.responseTypes controller version ↔
      ∃ k m, c.controller? controller version = some k ∧ m ∈ c.modelsOfResponses (actions k) ∧
        IsLeaf c.ownership c.session (.named m.name) d := by
  rw [responseTypes, List.mem_map]
  constructor
  · rintro ⟨_, he, hn⟩
    obtain ⟨k, m, e, hk, hm, hl, rfl⟩ := mem_responseProperties.1 he
    obtain rfl := eq_of_name_eq hl.mem_types hd hn
    exact ⟨k, m, hk, hm, hl⟩
  · rintro ⟨k, m, hk, hm, hl⟩
    exact ⟨_, mem_responseProperties.2 ⟨k, m, d, hk, hm, hl, rfl⟩, rfl⟩

/-- The owned structured types whose names occur in properties in a certain way are all among
certain ones. -/
def Catalog.Encloses (c : Catalog) (names : List String) (Occurs : TypeReference → String → Prop)
    (ps : List Property) : Prop :=
  ∀ p ∈ ps, ∀ name d, Occurs p.type name → Resolves c.ownership c.session name d →
    d.kind = .structured → d.name ∈ names

/-- A type that a response model leads to by its name encloses what its properties show. -/
theorem Catalog.encloses_shown {c : Catalog} {controller version name : String}
    {k m e : DescribedType} (hk : c.controller? controller version = some k)
    (hm : m ∈ c.modelsOfResponses (actions k))
    (hr : Reaches c.ownership c.session (.named m.name) (.named name))
    (he : Resolves c.ownership c.session name e) (hs : e.kind = .structured) :
    c.Encloses (c.responseTypes controller version) TypeReference.Shows e.properties := by
  intro p hp x d hx hd hd'
  have hl : IsLeaf c.ownership c.session (.named m.name) d :=
    (isLeaf_of_shows hx hd hd').of_reaches (.property hr he hs hp)
  exact (mem_responseTypes hl.mem_types).2 ⟨k, m, hk, hm, hl⟩

/-- The properties listed for a controller name no owned structured type whose own properties are
not listed, exactly if that is so for the elements of the arrays that its response models lead to by
their names, and for the names in properties that are not shown there. -/
theorem responseTypes_closed_iff (c : Catalog) (controller version : String) :
    (∀ e ∈ c.responseProperties controller version,
      c.Encloses (c.responseTypes controller version) TypeReference.Mentions e.2) ↔
    ∀ k, c.controller? controller version = some k →
      ∀ m ∈ c.modelsOfResponses (Catalog.actions k), ∀ name e,
        Resolves c.ownership c.session name e →
          (Reaches c.ownership c.session (.named m.name) (.array (.named name)) →
            c.Encloses (c.responseTypes controller version) TypeReference.Mentions e.properties) ∧
          (Reaches c.ownership c.session (.named m.name) (.named name) → e.kind = .structured →
            c.Encloses (c.responseTypes controller version) (fun t x => t.Mentions x ∧ ¬t.Shows x)
              e.properties) := by
  constructor
  · intro h k hk m hm name e he
    refine ⟨fun hr => ?_, fun hr hs => ?_⟩
    · exact h _ (Catalog.mem_responseProperties.2 ⟨k, m, e, hk, hm, .element hr he, rfl⟩)
    · have hc := h _ (Catalog.mem_responseProperties.2 ⟨k, m, e, hk, hm, .expanded hr he hs, rfl⟩)
      exact fun p hp x d hx hd => hc p hp x d hx.1 hd
  · intro h e he
    obtain ⟨k, m, d, hk, hm, hl, rfl⟩ := Catalog.mem_responseProperties.1 he
    cases hl with
    | element hr hd => exact (h k hk m hm _ d hd).1 hr
    | expanded hr hd hs =>
      intro p hp x t hx ht ht'
      by_cases hshown : p.type.Shows x
      · exact Catalog.encloses_shown hk hm hr hd hs p hp x t hshown ht ht'
      · exact (h k hk m hm _ d hd).2 hr hs p hp x t ⟨hx, hshown⟩ ht ht'

/-- A structured type whose only successor is an array leads to the element and no further. -/
theorem reachedTypes_of_array {o : Ownership} {s : Session} {name element : String}
    {d e : DescribedType} (hd : Resolves o s name d) (hk : d.kind = .structured)
    (hs : successors d = [.array (.named element)]) (he : Resolves o s element e)
    (hne : e.name ≠ d.name) : reachedTypes o s (.named name) = [d, e] := by
  have hvd : visit o s [] (.named name) = ⟨[.array (.named element)], some d, [d.name]⟩ := by
    rw [visit, if_pos (owns_named.2 ⟨d, hd⟩), ← hs]
    simp [hd.found, hk]
  have hve : visit o s [d.name] (.array (.named element)) = ⟨[], some e, [d.name]⟩ := by
    have ho : o.owns s (.array (.named element)) = true := owns_named.2 ⟨e, he⟩
    rw [visit, if_pos ho]
    exact congrArg (Visit.mk [] · [d.name]) he.found
  rw [reachedTypes, addLeaves, walk_cons, hvd]
  dsimp only [List.cons_append, List.nil_append]
  rw [walk_cons, hve]
  refine (walk_nil _ _).trans ?_
  simp [addLeaf, hne.symm]

/-- A model with one property. -/
def holding (name property : String) (type : TypeReference) : DescribedType :=
  ⟨name, "acme", .structured, none, [⟨property, type⟩], [], [], []⟩

def artistModel : DescribedType :=
  ⟨"acme::Artist", "acme", .structured, none, [], [], [], []⟩

def trackModel : DescribedType := holding "acme::Track" "artist" (.named "acme::Artist")

def discModel : DescribedType := holding "acme::Disc" "tracks" (.array (.named "acme::Track"))

def albumModel : DescribedType := holding "acme::Album" "discs" (.array (.named "acme::Disc"))

def albumSession : Session :=
  .ofSnapshots [⟨"acme", [], [answering "acme::AlbumController" "acme::Album", albumModel,
    discModel, trackModel, artistModel]⟩]

theorem responseProperties_album :
    Catalog.responseProperties ⟨albumSession, .standard⟩ "Album" "" =
      [("acme::Album", albumModel.properties), ("acme::Disc", discModel.properties),
        ("acme::Track", trackModel.properties)] := by
  have halbum : reachedTypes ⟨"acme", []⟩ albumSession (.named "acme::Album") =
      [albumModel, discModel] :=
    reachedTypes_of_array ⟨rfl, rfl⟩ rfl rfl ⟨rfl, rfl⟩ (by decide)
  have hdisc : reachedTypes ⟨"acme", []⟩ albumSession (.named "acme::Disc") =
      [discModel, trackModel] :=
    reachedTypes_of_array ⟨rfl, rfl⟩ rfl rfl ⟨rfl, rfl⟩ (by decide)
  have hm : Catalog.modelsOfResponses ⟨albumSession, .standard⟩
      (Catalog.actions (answering "acme::AlbumController" "acme::Album")) =
        [albumModel, discModel] := by
    change Catalog.leavesOf _ [.named "acme::Album"] [] = _
    rw [Catalog.leavesOf, foldl_addLeaves, List.flatMap_singleton]
    exact (congrArg firstNamed halbum).trans rfl
  have hk : Catalog.controller? ⟨albumSession, .standard⟩ "Album" "" =
      some (answering "acme::AlbumController" "acme::Album") := rfl
  rw [Catalog.responseProperties, hk]
  dsimp only
  rw [hm, Catalog.leavesOf, foldl_addLeaves]
  change (firstNamed (reachedTypes ⟨"acme", []⟩ albumSession (.named "acme::Album") ++
    (reachedTypes ⟨"acme", []⟩ albumSession (.named "acme::Disc") ++ []))).map _ = _
  rw [halbum, hdisc]
  rfl

/-- The model of a property is not listed where only an element of an array has the property, and
only an element of an array has that array. -/
theorem nested_element_unexpanded :
    ("acme::Track", [⟨"artist", .named "acme::Artist"⟩]) ∈
        Catalog.responseProperties ⟨albumSession, .standard⟩ "Album" "" ∧
      Resolves ⟨"acme", []⟩ albumSession "acme::Artist" artistModel ∧
      artistModel.kind = .structured ∧
      artistModel.name ∉ Catalog.responseTypes ⟨albumSession, .standard⟩ "Album" "" := by
  rw [Catalog.responseTypes, responseProperties_album]
  refine ⟨?_, ⟨rfl, rfl⟩, rfl, by decide⟩
  exact List.mem_cons_of_mem _ (List.mem_cons_of_mem _ (List.mem_singleton_self _))

end Docsmith.Discovery
