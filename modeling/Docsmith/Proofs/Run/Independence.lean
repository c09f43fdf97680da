import Docsmith.Proofs.Discovery.Arrays
import Docsmith.Proofs.Run.Containment
import Docsmith.Proofs.Run.Effects
import Docsmith.Proofs.Run.Simulation

/-!
# Models do not touch each other

What a sample run does for a model reads and changes only the document of the model's example. So if
no two models of a controller share the name of their examples, the run for the controller does for
each of them what a run for that model alone does: the same outcome, the same lines shown and the
same text of the example.

* `AgreeOn`: sets that hold the same under a name;
* `sampleModel_spares`: the work on a model leaves documents of other names alone;
* `sampleAll_alone`: a run is made of the runs for its models;
* `sampleTypes_independent`: so is the run for a controller.
-/

namespace Docsmith

open Docsmith.Discovery Docsmith.Metadata

namespace Run

open Docsmith.Example Docsmith.Run.Action

/-- Asks for one model in the place of a controller. -/
def ExampleRequest.alone (r : ExampleRequest) (model : String) : ExampleRequest :=
  { r with controller := none, type := some model }

theorem sampleModels_alone {c : Catalog} {r : ExampleRequest} {controller : String}
    (hc : named? r.controller = some controller) {ms : List (String × List Property)}
    (hms : sampleModels c r = .ok ms) {m : String × List Property} (hm : m ∈ ms)
    (hb : Text.isBlankText m.1 = false) : sampleModels c (r.alone m.1) = .ok [m] := by
  rw [sampleModels, hc] at hms
  obtain rfl := Except.ok.inj hms
  obtain ⟨d, hd, rfl⟩ := Catalog.find?_of_mem_responseProperties hm
  dsimp only at hb hd ⊢
  have hn : named? (some d.name) = some d.name := by
    rw [named?, Option.filter_some, hb]
    rfl
  rw [sampleModels, ExampleRequest.alone, hn]
  dsimp only [named?, Option.filter_none]
  rw [hd]

/-! ## Lines -/

/-- The same end behind lines that have been shown before. -/
def behind {σ α : Type} (lines : List String) :
    EStateM.Result Error (Progress σ) α → EStateM.Result Error (Progress σ) α
  | .ok a p => .ok a { p with lines := lines ++ p.lines }
  | .error e p => .error e { p with lines := lines ++ p.lines }

/-- The lines shown so far are only added to. -/
def Adds {σ α : Type} (a : Action σ α) : Prop :=
  ∀ docs lines more, a ⟨docs, lines ++ more⟩ = behind lines (a ⟨docs, more⟩)

namespace Adds

section

variable {σ α β : Type}

theorem pure (x : α) : Adds (pure x : Action σ α) := fun _ _ _ => rfl

theorem throw (e : Error) : Adds (throw e : Action σ α) := fun _ _ _ => rfl

theorem bind {x : Action σ α} {f : α → Action σ β} (hx : Adds x) (hf : ∀ a, Adds (f a)) :
    Adds (x >>= f) := by
  intro docs lines more
  rw [Action.bind_eq, Action.bind_eq, hx]
  cases x ⟨docs, more⟩ with
  | ok a p => exact hf a p.docs lines p.lines
  | error e p => rfl

theorem onDocs (f : σ → Except Error α × σ) : Adds (Action.onDocs f) := by
  intro docs lines more
  rw [Action.onDocs, Action.onDocs]
  dsimp only
  split <;> rfl

theorem showDocument (title text : String) :
    Adds (Action.showDocument title text : Action σ Unit) := by
  intro docs lines more
  rw [Action.showDocument, Action.showDocument, behind, List.append_assoc]

theorem skipInput {work : Action σ Outcome} (h : Adds work) : Adds (Action.skipInput work) := by
  intro docs lines more
  rw [Action.skipInput, Action.skipInput, h]
  cases work ⟨docs, more⟩ with
  | ok o p => rfl
  | error e p =>
    rw [behind]
    dsimp only
    split <;> rfl

end

variable {σ : Type} [DocumentStore σ]

theorem emit (trial : Bool) (d : Document) (text : String) :
    Adds (Action.emit trial d text : Action σ Outcome) := by
  cases trial with
  | true => exact (showDocument d.path text).bind fun _ => .pure _
  | false => exact (onDocs _).bind fun _ => .pure _

end Adds

section

variable {σ : Type} [DocumentStore σ] (session : Session) (c : Conventions)
  (luck : String → Nat → Nat)

theorem sampleModel_adds (trial : Bool) (documents : List Document) (model : String)
    (properties : List Property) :
    Adds (sampleModel session c luck trial documents model properties : Action σ Outcome) := by
  rw [sampleModel]
  split
  · refine (Adds.onDocs _).bind fun text => ?_
    dsimp only
    split
    · exact .emit trial _ _
    · exact .pure _
  · cases trial with
    | true => exact (Adds.showDocument _ _).bind fun _ => .pure _
    | false => exact (Adds.onDocs _).bind fun _ => .pure _
  · exact .throw _

end

/-! ## Documents of one name -/

/-- Two sets hold the same under a name. -/
def AgreeOn (name : String) (m m' : Memory) : Prop :=
  ∀ d : Document, d.name = name → m.read d = m'.read d

theorem AgreeOn.refl (name : String) (m : Memory) : AgreeOn name m m := fun _ _ => rfl

theorem AgreeOn.symm {name : String} {m m' : Memory} (h : AgreeOn name m m') : AgreeOn name m' m :=
  fun d hd => (h d hd).symm

theorem AgreeOn.trans {name : String} {m₁ m₂ m₃ : Memory} (h : AgreeOn name m₁ m₂)
    (h' : AgreeOn name m₂ m₃) : AgreeOn name m₁ m₃ :=
  fun d hd => (h d hd).trans (h' d hd)

variable {name : String}

theorem key_ne_of_name_ne {d e : Document} (h : d.name ≠ e.name) : e.key ≠ d.key := by
  intro hk
  rw [Document.name_eq, Document.name_eq, hk] at h
  exact h rfl

/-- Putting a text under another name changes nothing under the first. -/
theorem agreeOn_put {d : Document} (hd : d.name ≠ name) (m : Memory) (text : String) :
    AgreeOn name m (m.put d text) := by
  rintro e rfl
  rw [Memory.read_put, if_neg (key_ne_of_name_ne hd)]

/-- The same text under the same path leaves sets that agree. -/
theorem AgreeOn.put {m m' : Memory} (h : AgreeOn name m m') (d : Document) (text : String) :
    AgreeOn name (m.put d text) (m'.put d text) := by
  intro e he
  rw [Memory.read_put, Memory.read_put, h e he]

theorem find?_isSome_of_agreeOn {m m' : Memory} (h : AgreeOn name m m') {d : Document}
    (hd : d.name = name) : (m.find? d).isSome = (m'.find? d).isSome := by
  have hr := h d hd
  rw [Memory.read, Memory.read] at hr
  cases hm : m.find? d <;> cases hm' : m'.find? d <;> simp_all

theorem mirrors_agreeOn (name : String) :
    Mirrors (fun d => d.name = name) (AgreeOn name) where
  read h hd := h _ hd
  write {m m' d} text h hd := by
    have hs := find?_isSome_of_agreeOn h hd
    cases hm : m.find? d with
    | some held =>
      rw [hm] at hs
      obtain ⟨held', hm'⟩ := Option.isSome_iff_exists.1 hs.symm
      exact ⟨.ok (), m.put d text, m'.put d text, Memory.write_of_find? hm text,
        Memory.write_of_find? hm' text, h.put d text⟩
    | none =>
      rw [hm] at hs
      have hm' : m'.find? d = none := by simpa using hs.symm
      refine ⟨.error (.documentNotFound d.path), m, m', ?_, ?_, h⟩
      · change m.write d text = _
        rw [Memory.write, hm]
      · change m'.write d text = _
        rw [Memory.write, hm']

theorem extends_agreeOn (name : String) (folders : List String) :
    Extends folders (fun _ => True) (AgreeOn name) :=
  fun {_ _ n} text h _ => .inr ⟨_, _, _, _, rfl, rfl, h.put ⟨Path.join (Path.joinAll folders) n⟩ text⟩

/-! ## One model -/

variable {session : Session} {c : Conventions} {luck : String → Nat → Nat} {trial : Bool}
  {documents : List Document} {model : String} {properties : List Property}
  {ms : List (String × List Property)} {report report' : Report}

theorem name_of_single {d : Document} (h : Document.single documents name = .ok d) :
    d.name = name := by
  have hm : d ∈ documents.filter (·.name = name) := by
    rw [Document.single] at h
    split at h
    · cases h
    · rename_i hf
      cases h
      rw [hf]
      exact List.mem_singleton_self d
    · cases h
  exact of_decide_eq_true (List.mem_filter.1 hm).2

/-- Work that leaves documents of a name alone. -/
def Spares {α : Type} (name : String) (work : Action Memory α) : Prop :=
  ∀ p, AgreeOn name p.docs (stop (work p)).docs

theorem completeSample_spares {d : Document} (hd : d.name ≠ name) (fields : List Field)
    (y : Synthesizer) : Spares name (completeSample false d model fields y) := by
  intro p
  rw [completeSample, Action.bind_eq]
  cases hr : DocumentStore.read p.docs d with
  | error e =>
    rw [Action.readDocument_of_error hr]
    exact .refl name p.docs
  | ok text =>
    rw [Action.readDocument_of_ok hr]
    dsimp only
    generalize (populate text model fields y).1 = revision
    split
    · obtain ⟨m, hw, -, -, hread⟩ := LawfulStore.write_of_read revision.after hr
      rw [Action.emit_of_ok hw]
      rintro e rfl
      refine Eq.symm ((hread e).trans (if_neg fun hp => ?_))
      exact key_ne_of_name_ne hd (Option.some.inj hp)
    · exact .refl name p.docs

theorem createSample_spares (hn : Template.fileName model ≠ name) (t : Template)
    (modelPath : String) (fields : List Field) (y : Synthesizer) :
    Spares name (createSample false t modelPath model fields y) := by
  intro p
  rw [createSample_eq]
  generalize (populate (t.render modelPath) model fields y).1.after = text
  exact agreeOn_put (by rwa [← name_samplePlace t model] at hn) p.docs text

/-- The work on a model leaves documents of other names alone. -/
theorem sampleModel_spares (hn : Template.fileName model ≠ name) :
    Spares name (sampleModel session c luck trial documents model properties) := by
  cases trial with
  | true =>
    intro p
    rw [(sampleModel_discreet session c luck true documents model properties p).docs rfl]
    exact .refl name p.docs
  | false =>
    rw [sampleModel]
    split
    · rename_i d hd
      exact completeSample_spares (by rwa [name_of_single hd]) _ _
    · exact createSample_spares hn _ _ _ _
    · exact fun p => .refl name p.docs

theorem Spares.skipInput {work : Action Memory Outcome} (h : Spares name work) :
    Spares name (Action.skipInput work) := by
  intro p
  have hp := h p
  cases hw : work p with
  | ok o q =>
    rw [hw] at hp
    rwa [Action.skipInput_of_ok hw]
  | error e q =>
    rw [hw] at hp
    rw [Action.skipInput_of_error hw]
    split <;> exact hp

theorem Spares.bind {α β : Type} {work : Action Memory α} {next : α → Action Memory β}
    (h : Spares name work) (hn : ∀ a, Spares name (next a)) : Spares name (work >>= next) := by
  intro p
  have hp := h p
  rw [Action.bind_eq]
  cases hw : work p with
  | ok a q =>
    rw [hw] at hp
    exact hp.trans (hn a q)
  | error e q =>
    rw [hw] at hp
    exact hp

theorem sampleAll_spares (hn : ∀ m ∈ ms, Template.fileName m.1 ≠ name) (report : Report) :
    Spares name (sampleAll session c luck trial documents ms report) := by
  induction ms generalizing report with
  | nil => exact fun p => .refl name p.docs
  | cons m ms ih =>
    obtain ⟨hm, hms⟩ := List.forall_mem_cons.1 hn
    exact (sampleModel_spares hm).skipInput.bind fun o => ih hms _

/-! ## Runs -/

/-- The work on a model does the same, and shows the same, on sets that agree on its example. -/
theorem sampleModel_agreeOn {m m' : Memory} (h : AgreeOn (Template.fileName model) m m')
    (lines : List String) :
    Matches Eq (AgreeOn (Template.fileName model)) Eq
      (Action.skipInput (sampleModel session c luck trial documents model properties) ⟨m, lines⟩)
      (Action.skipInput (sampleModel session c luck trial documents model properties)
        ⟨m', lines⟩) := by
  have hs : Simulates (ErrorAlike _) (AgreeOn (Template.fileName model)) (OutcomeAlike _)
      (sampleModel session c luck trial documents model properties)
      (sampleModel session c luck trial documents model properties) :=
    sampleModel_simulates (mirrors_agreeOn (Template.fileName model))
      (extends_agreeOn _ c.template.folders) (SameDocuments.of_eq (rfl : documents = documents))
      (fun d hd => name_of_single hd) (fun _ => trivial) trial properties
  refine (hs.skipInput m m' lines h).mono (fun e e' he => ?_) fun o o' ho => ?_
  · cases he with
    | refl => rfl
    | ambiguous name hp => rw [hp]
  · cases ho with
    | refl => rfl
    | ambiguous name hp => rw [hp]
    | several hp => rw [hp]

/-- Work that is done in a run can be done alone, on a set that agrees on its example. -/
theorem sampleModel_alone {m : Memory} {p q : Progress Memory} {o : Outcome}
    (h : AgreeOn (Template.fileName model) p.docs m)
    (hw : Action.skipInput (sampleModel session c luck trial documents model properties) p =
      .ok o q) :
    ∃ single, Action.skipInput (sampleModel session c luck trial documents model properties)
        ⟨m, []⟩ = .ok o single ∧ q.lines = p.lines ++ single.lines ∧
      AgreeOn (Template.fileName model) q.docs single.docs := by
  have hadds := (sampleModel_adds session c luck trial documents model properties).skipInput
    p.docs p.lines []
  rw [List.append_nil] at hadds
  replace hw := hadds.symm.trans hw
  have hm : Matches Eq (AgreeOn (Template.fileName model)) Eq
      (Action.skipInput (sampleModel session c luck trial documents model properties) ⟨p.docs, []⟩)
      (Action.skipInput (sampleModel session c luck trial documents model properties) ⟨m, []⟩) :=
    sampleModel_agreeOn h []
  generalize Action.skipInput (sampleModel session c luck trial documents model properties)
    ⟨p.docs, []⟩ = result at hw hm
  generalize Action.skipInput (sampleModel session c luck trial documents model properties)
    ⟨m, []⟩ = single at hm
  cases hm with
  | @ok _ _ _ m' lines ho hd =>
    cases hw
    exact ⟨⟨m', lines⟩, by rw [ho], rfl, hd⟩
  | error => cases hw
  | refused => cases hw

/-- A run for models of different names is made of the runs for each of them: it reports what these
report, shows what they show, and leaves each example as they leave it. -/
theorem sampleAll_alone {m : Memory} {p p' : Progress Memory}
    {alone : String × List Property → Except Error Report × Progress Memory}
    (h : sampleAll session c luck trial documents ms report p = .ok report' p')
    (hn : (ms.map (Template.fileName ·.1)).Nodup)
    (ha : ∀ x ∈ ms, AgreeOn (Template.fileName x.1) p.docs m)
    (hr : ∀ x ∈ ms, alone x = (sampleAll session c luck trial documents [x] .empty).run m) :
    ∃ entries, report'.entries = report.entries ++ entries ∧
      p'.lines = p.lines ++ ms.flatMap (fun x => (alone x).2.lines) ∧
      List.Forall₂ (fun x line => (alone x).1 = .ok ⟨[line]⟩ ∧
        AgreeOn (Template.fileName x.1) p'.docs (alone x).2.docs) ms entries := by
  induction ms generalizing p report with
  | nil =>
    cases h
    exact ⟨[], by simp, by simp, .nil⟩
  | cons x ms ih =>
    obtain ⟨o, q, hx, h⟩ := Action.bind_eq_ok.1 h
    obtain ⟨hne, hn⟩ := List.nodup_cons.1 hn
    have hne : ∀ y ∈ ms, Template.fileName y.1 ≠ Template.fileName x.1 :=
      fun y hy he => hne (List.mem_map.2 ⟨y, hy, he⟩)
    obtain ⟨hax, ha⟩ := List.forall_mem_cons.1 ha
    obtain ⟨hrx, hr⟩ := List.forall_mem_cons.1 hr
    obtain ⟨single, hsingle, hlines, hdocs⟩ := sampleModel_alone hax hx
    have halone : alone x =
        (.ok ⟨[⟨(Catalog.mk session c.discovery).shownName x.1 false, o⟩]⟩, single) := by
      rw [hrx]
      refine Action.run_of_ok ?_
      rw [sampleAll_cons_of_ok hsingle]
      rfl
    -- the work on this model spares the examples of the others, and theirs spares this one
    obtain ⟨entries, hentries, hlines', hall⟩ := ih h hn (fun y hy => by
      have hspares : Spares (Template.fileName y.1)
          (sampleModel session c luck trial documents x.1 x.2) :=
        sampleModel_spares (hne y hy).symm
      have hspares := hspares.skipInput p
      rw [hx] at hspares
      exact hspares.symm.trans (ha y hy)) hr
    have hrest : Spares (Template.fileName x.1)
        (sampleAll session c luck trial documents ms
          (report.record ((Catalog.mk session c.discovery).shownName x.1 false) o)) :=
      sampleAll_spares hne _
    have hrest := hrest q
    rw [h] at hrest
    refine ⟨⟨(Catalog.mk session c.discovery).shownName x.1 false, o⟩ :: entries, ?_, ?_,
      .cons ⟨?_, ?_⟩ hall⟩
    · rw [hentries, Report.record, List.append_assoc, List.singleton_append]
    · rw [hlines', hlines, List.flatMap_cons, halone, List.append_assoc]
    · rw [halone]
    · rw [halone]
      exact hrest.symm.trans hdocs

/-- A run for one of a controller's models. -/
def runAlone (session : Session) (c : Conventions) (luck : String → Nat → Nat)
    (r : ExampleRequest) (m : Memory) (model : String) : Except Error Report × Progress Memory :=
  (sampleTypes session c luck (r.alone model)).run m

/-- If the examples of a controller's models have different names, a run for the controller is made
of the runs for the models: it reports what each of them reports and shows what each of them shows,
in the order of the models, and under the name of each example the same is stored as by the run for
its model. -/
theorem sampleTypes_independent (session : Session) (c : Conventions) (luck : String → Nat → Nat)
    (r : ExampleRequest) (m : Memory) (hc : named? r.controller ≠ none)
    (hb : ∀ x ∈ modelsOf session c r, Text.isBlankText x.1 = false)
    (hn : ((modelsOf session c r).map (Template.fileName ·.1)).Nodup) :
    ∃ report final, (sampleTypes session c luck r).run m = (.ok report, final) ∧
      final.lines = (modelsOf session c r).flatMap
        (fun x => (runAlone session c luck r m x.1).2.lines) ∧
      List.Forall₂ (fun x line => (runAlone session c luck r m x.1).1 = .ok ⟨[line]⟩ ∧
        AgreeOn (Template.fileName x.1) final.docs (runAlone session c luck r m x.1).2.docs)
        (modelsOf session c r) report.entries := by
  obtain ⟨controller, hcontroller⟩ := Option.ne_none_iff_exists'.1 hc
  obtain ⟨ms, hms⟩ : ∃ ms, sampleModels ⟨session, c.discovery⟩ r = .ok ms := by
    rw [sampleModels, hcontroller]
    exact ⟨_, rfl⟩
  have hmodels : modelsOf session c r = ms := by
    rw [modelsOf, hms]
    rfl
  rw [hmodels] at hb hn ⊢
  obtain ⟨report, final, hrun⟩ :=
    (sampleTypes_contains session c luck r).ok_of_memory (.inl hc) m
  have h := Action.eq_ok_of_run hrun
  rw [sampleTypes, hms] at h
  have halone : ∀ x ∈ ms, runAlone session c luck r m x.1 =
      (sampleAll session c luck r.trial (DocumentStore.documents m) [x] .empty).run m := by
    intro x hx
    rw [runAlone, sampleTypes, sampleModels_alone hcontroller hms hx (hb x hx)]
    rfl
  obtain ⟨entries, hentries, hlines, hall⟩ :=
    sampleAll_alone h hn (fun x _ => .refl _ m) halone
  exact ⟨report, final, hrun, hlines, hentries ▸ hall⟩

/-! ## A controller with two models -/

/-- Owned types that lead nowhere are their own leaves. -/
theorem leavesOf_resolved (c : Catalog) {ds leaves : List DescribedType}
    (hr : ∀ d ∈ ds, Resolves c.ownership c.session d.name d)
    (hk : ∀ d ∈ ds, d.kind = .structured) (hs : ∀ d ∈ ds, successors d = [])
    (hn : ((leaves ++ ds).map (·.name)).Nodup) :
    c.leavesOf (ds.map fun d => .named d.name) leaves = leaves ++ ds := by
  induction ds generalizing leaves with
  | nil => exact (List.append_nil leaves).symm
  | cons d ds ih =>
    obtain ⟨hrd, hr⟩ := List.forall_mem_cons.1 hr
    obtain ⟨hkd, hk⟩ := List.forall_mem_cons.1 hk
    obtain ⟨hsd, hs⟩ := List.forall_mem_cons.1 hs
    have hnew : leaves.any (·.name = d.name) = false := by
      rw [List.any_eq_false]
      rw [List.map_append, List.nodup_append] at hn
      intro e he
      simpa using hn.2.2 e.name (List.mem_map_of_mem he) d.name (by simp)
    have hleaf : addLeaf leaves d = leaves ++ [d] := by
      rw [addLeaf, hnew]
      rfl
    rw [Catalog.leavesOf, List.map_cons, List.foldl_cons, addLeaves_of_resolves hrd hkd hsd,
      hleaf, ← Catalog.leavesOf, ih hr hk hs (by simpa using hn), List.append_assoc,
      List.singleton_append]

/-- A controller that answers with two models. -/
def shopController : DescribedType :=
  let answer (status : Int64) (type : String) : Attribute :=
    ⟨"response", [.int status, .type (.named type)], .empty⟩
  ⟨"acme::ShopController", "acme", .structured, some (.named "ControllerBase"), [],
    [⟨"list", .everyone, false, false, [],
      [answer 200 "acme::User", answer 201 "acme::Order"]⟩], [], []⟩

def shopSession : Session :=
  .ofSnapshots [⟨"acme", [], [bareModel "acme::User", bareModel "acme::Order", shopController]⟩]

/-- Asks for the response models of the controller. -/
def shopRequest : ExampleRequest := ⟨some "Shop", none, "", false⟩

theorem modelsOf_shopRequest :
    modelsOf shopSession .standard shopRequest = [("acme::User", []), ("acme::Order", [])] := by
  let catalog : Catalog := ⟨shopSession, Conventions.standard.discovery⟩
  have hleaves : catalog.leavesOf [.named "acme::User", .named "acme::Order"] [] =
      [bareModel "acme::User", bareModel "acme::Order"] := by
    refine @leavesOf_resolved catalog [bareModel "acme::User", bareModel "acme::Order"] []
      ?_ ?_ ?_ (by decide)
    · simp only [List.forall_mem_cons, List.not_mem_nil, false_implies, implies_true, and_true]
      exact ⟨⟨rfl, rfl⟩, ⟨rfl, rfl⟩⟩
    · simp [bareModel]
    · simp [bareModel, successors]
  have hc : catalog.controller? "Shop" "" = some shopController := rfl
  have hr : catalog.responseProperties "Shop" "" = [("acme::User", []), ("acme::Order", [])] := by
    rw [Catalog.responseProperties, hc]
    dsimp only
    rw [Catalog.modelsOfResponses]
    change (catalog.leavesOf ((catalog.leavesOf [.named "acme::User", .named "acme::Order"]
      []).map fun m => .named m.name) []).map _ = _
    rw [hleaves]
    change (catalog.leavesOf [.named "acme::User", .named "acme::Order"] []).map _ = _
    rw [hleaves]
    rfl
  change (Except.ok (catalog.responseProperties "Shop" "") : Except Error _).toOption.getD [] = _
  rw [hr]
  rfl

def shopAlone : String → Except Error Report × Progress Memory :=
  runAlone shopSession .standard (fun _ _ => 0) shopRequest .empty

/-- The two models have examples of their own, which a run for both leaves as runs for either
do. -/
theorem sampleTypes_independent_shop :
    modelsOf shopSession .standard shopRequest = [("acme::User", []), ("acme::Order", [])] ∧
    ∃ final user order, (sampleTypes shopSession .standard (fun _ _ => 0) shopRequest).run
        Memory.empty = (.ok ⟨[user, order]⟩, final) ∧
      (shopAlone "acme::User").1 = .ok ⟨[user]⟩ ∧ (shopAlone "acme::Order").1 = .ok ⟨[order]⟩ ∧
      AgreeOn "user_response_example.rs" final.docs (shopAlone "acme::User").2.docs ∧
      AgreeOn "order_response_example.rs" final.docs (shopAlone "acme::Order").2.docs := by
  have hm := modelsOf_shopRequest
  obtain ⟨⟨entries⟩, final, hrun, -, hall⟩ := sampleTypes_independent shopSession .standard
    (fun _ _ => 0) shopRequest Memory.empty (by decide)
    (by rw [hm]; decide +kernel) (by rw [hm]; decide +kernel)
  rw [hm] at hall
  have huser : Template.fileName "acme::User" = "user_response_example.rs" := by decide +kernel
  have horder : Template.fileName "acme::Order" = "order_response_example.rs" := by decide +kernel
  obtain _ | ⟨⟨hu, hu'⟩, hall⟩ := hall
  obtain _ | ⟨⟨ho, ho'⟩, hall⟩ := hall
  cases hall
  dsimp only at hu' ho'
  rw [huser] at hu'
  rw [horder] at ho'
  rw [shopAlone]
  exact ⟨hm, final, _, _, hrun, hu, ho, hu', ho'⟩

end Run

end Docsmith
