import Docsmith.Proofs.Discovery.Reach
import Docsmith.Proofs.Example.Literal
import Docsmith.Proofs.Run.Action
import Docsmith.Proofs.Text.SnakeCase
import Docsmith.Proofs.Workspace.Lawful
import Docsmith.Run.Samples
import Mathlib.Data.List.Nodup

/-!
# What sample runs keep

A run completes the documents there are, and adds one for each model without a document. Which
models these are is told by the documents at the start, so two models without a document whose
examples have one file name are both added, the later one in the place of the earlier.

* `sampled_of_ok`: what a run does for one model;
* `survives_sampleAll`: what is not blank in a document is there after the run, unless a model
  without a document has its name;
* `sampleTypes_survives_iff`: the documents of a run survive if and only if no two models without a
  document share a file name.
-/

namespace Docsmith.Run

open Docsmith.Discovery Docsmith.Example Docsmith.Metadata Docsmith.Source Docsmith.Text

/-! ## Names of examples -/

theorem isFileName_fileName (model : String) : Path.IsFileName (Template.fileName model) := by
  have hl : (Template.fileName model).toList =
      (snakeCase (Naming.shortName model)).toList ++ "_response_example.rs".toList := by
    rw [Template.fileName, String.toList_append]
  have hd (s : String) (hs : s.toList.length < 20) : Template.fileName model ≠ s := by
    rintro rfl
    rw [hl, List.length_append] at hs
    have : "_response_example.rs".toList.length = 20 := rfl
    omega
  refine ⟨?_, fun c hc => ?_, ?_⟩
  · rw [hl]
    exact List.append_ne_nil_of_right_ne_nil _ (by decide)
  · rw [hl, List.mem_append] at hc
    have hne : c ≠ '/' := by
      rcases hc with hc | hc
      · exact ne_slash_of_mem_snakeCase _ c hc
      · rintro rfl
        revert hc
        decide
    simpa [Path.isSeparator] using hne
  · simp [Path.isDots, hd "." (by decide), hd ".." (by decide)]

/-- Where the example of a model is added. -/
def samplePlace (t : Template) (model : String) : Document :=
  ⟨Path.join (Path.joinAll t.folders) (Template.fileName model)⟩

theorem name_samplePlace (t : Template) (model : String) :
    (samplePlace t model).name = Template.fileName model := by
  rw [Document.name, samplePlace, Path.fileName?_join _ (isFileName_fileName model)]
  rfl

/-- No document has the name of the example of a model. -/
def lacksSample (documents : List Document) (model : String) : Bool :=
  documents.all fun d => d.name ≠ Template.fileName model

theorem lacksSample_iff {documents : List Document} {model : String} :
    lacksSample documents model = true ↔ ∀ d ∈ documents, d.name ≠ Template.fileName model := by
  simp [lacksSample]

theorem single_of_lacksSample {documents : List Document} {model : String}
    (h : lacksSample documents model = true) :
    Document.single documents (Template.fileName model) =
      .error (.documentNotFound (Template.fileName model)) := by
  rw [lacksSample_iff] at h
  have hf : documents.filter (fun d => d.name = Template.fileName model) = [] := by
    rw [List.filter_eq_nil_iff]
    exact fun d hd => by simpa using h d hd
  rw [Document.single, hf]

/-- A model with a document has one or several of them. -/
theorem single_of_not_lacksSample {documents : List Document} {model : String}
    (h : lacksSample documents model = false) :
    (∃ d, Document.single documents (Template.fileName model) = .ok d) ∨
      ∃ ps, Document.single documents (Template.fileName model) =
        .error (.ambiguousDocument (Template.fileName model) ps) := by
  rw [Document.single]
  split
  · rename_i hf
    rw [List.filter_eq_nil_iff] at hf
    have : lacksSample documents model = true :=
      lacksSample_iff.2 fun d hd => by simpa using hf d hd
    exact absurd this (by simp [h])
  · exact .inl ⟨_, rfl⟩
  · exact .inr ⟨_, rfl⟩

/-! ## One model -/

variable {σ : Type} [DocumentStore σ]

/-- What a run that writes does for one model: it leaves its document, completes it or adds it. -/
inductive Sampled (t : Template) (documents : List Document) (model : String) :
    σ → Outcome → σ → Prop
  | kept {s : σ} {o : Outcome} : lacksSample documents model = false → o ≠ .created →
      Sampled t documents model s o s
  | completed {s s' : σ} {d : Document} {text : String} {fields : List Field} {y : Synthesizer} :
      lacksSample documents model = false → DocumentStore.read s d = .ok text →
      DocumentStore.write s d (populate text model fields y).1.after = (.ok (), s') →
      Sampled t documents model s .written s'
  | created {s s' : σ} {d : Document} {text : String} : lacksSample documents model = true →
      DocumentStore.add s (Template.fileName model) t.folders text = (.ok d, s') →
      Sampled t documents model s .created s'

variable {session : Session} {c : Conventions} {luck : String → Nat → Nat} {t : Template}
  {documents : List Document} {model : String} {p p' : Progress σ} {s s' : σ} {o : Outcome}
  {e : Document} {ms ns : List (String × List Property)} {report report' : Report}

theorem Sampled.created_iff (h : Sampled t documents model s o s') :
    o = .created ↔ lacksSample documents model = true := by
  cases h with
  | kept hl ho => simp [hl, ho]
  | completed hl => simp [hl]
  | created hl => simp [hl]

/-- What is not blank in the text of a document is, in its order, in its later text. -/
def Survives (d : Document) (s s' : σ) : Prop :=
  ∀ text, DocumentStore.read s d = .ok text → ∃ text', DocumentStore.read s' d = .ok text' ∧
    (solid text.toList).Sublist (solid text'.toList)

theorem Survives.refl (d : Document) (s : σ) : Survives d s s :=
  fun text h => ⟨text, h, .refl _⟩

theorem Survives.trans {d : Document} {s₁ s₂ s₃ : σ} (h : Survives d s₁ s₂)
    (h' : Survives d s₂ s₃) : Survives d s₁ s₃ := by
  intro text ht
  obtain ⟨text', ht', hs⟩ := h text ht
  obtain ⟨text'', ht'', hs'⟩ := h' text' ht'
  exact ⟨text'', ht'', hs.trans hs'⟩

/-! ## Runs -/

theorem sampleAll_cons_eq_ok {m : String × List Property}
    (h : sampleAll session c luck false documents (m :: ms) report p = .ok report' p') :
    ∃ o q, Action.skipInput (sampleModel session c luck false documents m.1 m.2) p = .ok o q ∧
      sampleAll session c luck false documents ms
        (report.record ((Catalog.mk session c.discovery).shownName m.1 false) o) q =
          .ok report' p' := by
  obtain ⟨model, properties⟩ := m
  exact Action.bind_eq_ok.1 h

theorem sampleAll_cons_of_ok {trial : Bool} {properties : List Property} {q : Progress σ}
    (h : Action.skipInput (sampleModel session c luck trial documents model properties) p =
      .ok o q) :
    sampleAll session c luck trial documents ((model, properties) :: ms) report p =
      sampleAll session c luck trial documents ms
        (report.record ((Catalog.mk session c.discovery).shownName model false) o) q := by
  rw [sampleAll, Action.bind_eq, h]

/-- A run can be cut between two models. -/
theorem sampleAll_append (trial : Bool) (ms ns : List (String × List Property))
    (report : Report) :
    (sampleAll session c luck trial documents (ms ++ ns) report : Action σ Report) =
      sampleAll session c luck trial documents ms report >>=
        sampleAll session c luck trial documents ns := by
  induction ms generalizing report with
  | nil => rfl
  | cons m ms ih =>
    obtain ⟨model, properties⟩ := m
    funext p
    rw [List.cons_append, sampleAll, sampleAll, Action.bind_eq, Action.bind_eq, Action.bind_eq]
    cases Action.skipInput (sampleModel session c luck trial documents model properties) p with
    | ok o q =>
      dsimp only
      rw [ih, Action.bind_eq]
    | error e q => rfl

/-- The places of the examples that a report says have been added. -/
def createdPlaces (t : Template) (models : List (String × List Property)) (report : Report) :
    List (List String) :=
  (models.zip report.entries).filterMap fun (m, line) =>
    if line.outcome = .created then some (samplePlace t m.1).key else none

/-- The models a run is about. There are none if the type is unknown. -/
def modelsOf (session : Session) (c : Conventions) (r : ExampleRequest) :
    List (String × List Property) :=
  (sampleModels ⟨session, c.discovery⟩ r).toOption.getD []

/-- The documents as the work on the first models leaves them. -/
def docsAfter (session : Session) (c : Conventions) (luck : String → Nat → Nat)
    (r : ExampleRequest) (docs : σ) (k : Nat) : σ :=
  ((sampleAll session c luck r.trial (DocumentStore.documents docs)
    ((modelsOf session c r).take k) .empty).run docs).2.docs

theorem docsAfter_of_ok {r : ExampleRequest} {docs : σ} {k : Nat}
    (h : sampleAll session c luck r.trial (DocumentStore.documents docs)
      ((modelsOf session c r).take k) .empty ⟨docs, []⟩ = .ok report p) :
    docsAfter session c luck r docs k = p.docs := by
  rw [docsAfter, Action.run_of_ok h]

/-- The work on its models is a run. -/
theorem sampleTypes_of_sampleAll {r : ExampleRequest} {docs : σ}
    (ms : List (String × List Property)) (hm : sampleModels ⟨session, c.discovery⟩ r = .ok ms)
    (h : sampleAll session c luck r.trial (DocumentStore.documents docs) ms .empty ⟨docs, []⟩ =
      .ok report p) : (sampleTypes session c luck r).run docs = (.ok report, p) := by
  refine Action.run_of_ok ?_
  rw [sampleTypes, hm]
  exact h

/-- A run that ends well does the work on its models. -/
theorem sampleAll_of_sampleTypes {r : ExampleRequest} {docs : σ} {final : Progress σ}
    (h : (sampleTypes session c luck r).run docs = (.ok report, final)) :
    ∃ report', sampleAll session c luck r.trial (DocumentStore.documents docs)
      (modelsOf session c r) .empty ⟨docs, []⟩ = .ok report' final ∧
        createdPlaces c.template (modelsOf session c r) report =
          createdPlaces c.template (modelsOf session c r) report' := by
  have hrun := Action.eq_ok_of_run h
  rw [modelsOf]
  cases hm : sampleModels ⟨session, c.discovery⟩ r with
  | ok models =>
    rw [sampleTypes, hm] at hrun
    exact ⟨report, hrun, rfl⟩
  | error e =>
    rw [sampleTypes, hm] at hrun
    cases e with
    | typeNotFound name =>
      cases hrun
      exact ⟨.empty, rfl, rfl⟩
    | _ => cases hrun

/-- What adding an example does. -/
theorem createSample_eq (t : Template) (modelPath model : String) (fields : List Field)
    (y : Synthesizer) (p : Progress σ) :
    createSample false t modelPath model fields y p =
      match DocumentStore.add p.docs (Template.fileName model) t.folders
        (populate (t.render modelPath) model fields y).1.after with
      | (.ok _, docs) => .ok .created { p with docs }
      | (.error e, docs) => .error e { p with docs } := by
  generalize ht : (populate (t.render modelPath) model fields y).1.after = text
  rw [createSample]
  dsimp only
  rw [if_neg Bool.false_ne_true, ht, Action.bind_eq, Action.addDocument, Action.onDocs]
  generalize DocumentStore.add p.docs (Template.fileName model) t.folders text = x
  obtain ⟨a, docs⟩ := x
  cases a <;> rfl

/-- A model without properties and without a document gets one if it can be added. -/
theorem sampleModel_bare (hl : lacksSample documents model = true) {e : Document}
    (ha : DocumentStore.add p.docs (Template.fileName model) c.template.folders
      (c.template.render (rootedPath model session.target)) = (.ok e, s)) :
    Action.skipInput (sampleModel session c luck false documents model []) p =
      .ok .created ⟨s, p.lines⟩ := by
  refine Action.skipInput_of_ok ?_
  rw [sampleModel, single_of_lacksSample hl]
  refine (createSample_eq _ _ _ _ _ p).trans ?_
  rw [List.map_nil, populate_nil]
  simp only [Revision.unchanged, ha]

/-! ## Lawful sets -/

variable [LawfulStore σ]

theorem sampled_of_completeSample {d : Document} {fields : List Field} {y : Synthesizer}
    {o : Outcome} (hl : lacksSample documents model = false)
    (h : Action.skipInput (completeSample false d model fields y) p = .ok o p') :
    Sampled c.template documents model p.docs o p'.docs := by
  cases hr : DocumentStore.read p.docs d with
  | error e =>
    have hw : completeSample false d model fields y p = .error e p := by
      rw [completeSample, Action.bind_eq, Action.readDocument_of_error hr]
    rw [Action.skipInput_of_error hw] at h
    split at h
    · cases h
      exact .kept hl (by simp)
    · cases h
  | ok text =>
    obtain ⟨docs, hw, -⟩ := LawfulStore.write_of_read (populate text model fields y).1.after hr
    have hc : completeSample false d model fields y p =
        if (populate text model fields y).1.differs then .ok .written { p with docs }
        else .ok .unchanged p := by
      rw [completeSample, Action.bind_eq, Action.readDocument_of_ok hr]
      dsimp only
      split
      · exact Action.emit_of_ok hw
      · rfl
    split at hc
    · rw [Action.skipInput_of_ok hc] at h
      cases h
      exact .completed hl hr hw
    · rw [Action.skipInput_of_ok hc] at h
      cases h
      exact .kept hl (by simp)

theorem sampled_of_createSample {modelPath : String} {fields : List Field} {y : Synthesizer}
    {o : Outcome} (hl : lacksSample documents model = true)
    (h : Action.skipInput (createSample false c.template modelPath model fields y) p = .ok o p') :
    Sampled c.template documents model p.docs o p'.docs := by
  have hc := createSample_eq c.template modelPath model fields y p
  generalize (populate (c.template.render modelPath) model fields y).1.after = text at hc
  generalize ha : DocumentStore.add p.docs (Template.fileName model) c.template.folders text = x
    at hc
  obtain ⟨a, docs⟩ := x
  cases a with
  | ok d =>
    rw [Action.skipInput_of_ok hc] at h
    cases h
    exact .created hl ha
  | error e =>
    -- an error of the set ends the run
    rw [Action.skipInput_of_error hc, LawfulStore.isInput_add ha] at h
    cases h

/-- What a run that writes does for one model. -/
theorem sampled_of_ok {properties : List Property} {o : Outcome}
    (h : Action.skipInput (sampleModel session c luck false documents model properties) p =
      .ok o p') : Sampled c.template documents model p.docs o p'.docs := by
  cases hl : lacksSample documents model with
  | true =>
    rw [sampleModel, single_of_lacksSample hl] at h
    exact sampled_of_createSample hl h
  | false =>
    rcases single_of_not_lacksSample hl with ⟨d, hd⟩ | ⟨ps, hd⟩
    · rw [sampleModel, hd] at h
      exact sampled_of_completeSample hl h
    · have ht : sampleModel session c luck false documents model properties p =
          .error (.ambiguousDocument (Template.fileName model) ps) p := by
        rw [sampleModel, hd]
        rfl
      rw [Action.skipInput_of_error ht] at h
      cases h
      exact .kept hl (by simp)

/-! ## What is kept -/

/-- A document survives the work on a model, unless it has the name of one that is added. -/
theorem Sampled.survives (h : Sampled t documents model s o s')
    (he : lacksSample documents model = true → e.name ≠ Template.fileName model) :
    Survives e s s' := by
  cases h with
  | kept => exact .refl e s
  | completed hl hr hw =>
    rename_i d text fields y
    intro old hold
    obtain ⟨s'', hw', -, -, hread⟩ :=
      LawfulStore.write_of_read (populate text model fields y).1.after hr
    obtain rfl := (Prod.mk.inj (hw.symm.trans hw')).2
    rw [hread e]
    by_cases hp : LawfulStore.place s e = LawfulStore.place s d
    · obtain rfl : old = text :=
        Except.ok.inj (hold.symm.trans (LawfulStore.read_of_place hr hp))
      rw [if_pos hp]
      exact ⟨_, rfl, solid_sublist_populate old model fields y⟩
    · rw [if_neg hp]
      exact ⟨old, hold, .refl _⟩
  | created hl ha =>
    intro old hold
    obtain ⟨rfl, -⟩ := LawfulStore.add_eq ha
    refine ⟨old, LawfulStore.read_add ha hold ?_, .refl _⟩
    exact fun hn => he hl (hn.trans (name_samplePlace t model))

/-- The work on a model makes no document but the one it adds. -/
theorem Sampled.mem_documents (h : Sampled t documents model s o s')
    (he : e ∈ DocumentStore.documents s') : e ∈ DocumentStore.documents s ∨
      lacksSample documents model = true ∧ e.name = Template.fileName model := by
  cases h with
  | kept => exact .inl he
  | completed hl hr hw =>
    obtain ⟨s'', hw', hd, -⟩ := LawfulStore.write_of_read _ hr
    obtain rfl := (Prod.mk.inj (hw.symm.trans hw')).2
    exact .inl (hd ▸ he)
  | created hl ha =>
    refine (LawfulStore.mem_documents_add ha he).imp_right ?_
    rintro rfl
    obtain ⟨rfl, -⟩ := LawfulStore.add_eq ha
    exact ⟨hl, name_samplePlace t model⟩

/-- A document survives a run, unless it has the name of one that is added. -/
theorem survives_sampleAll
    (h : sampleAll session c luck false documents ms report p = .ok report' p')
    (he : ∀ m ∈ ms, lacksSample documents m.1 = true → e.name ≠ Template.fileName m.1) :
    Survives e p.docs p'.docs := by
  induction ms generalizing p report with
  | nil =>
    cases h
    exact .refl e _
  | cons m ms ih =>
    obtain ⟨o, q, hm, hms⟩ := sampleAll_cons_eq_ok h
    have hfirst := (sampled_of_ok hm).survives (he m (List.mem_cons_self ..))
    exact hfirst.trans (ih hms fun m hm => he m (List.mem_cons_of_mem _ hm))

/-- The documents a run leaves are those there were and those that are added. -/
theorem mem_documents_sampleAll
    (h : sampleAll session c luck false documents ms report p = .ok report' p')
    (he : e ∈ DocumentStore.documents p'.docs) : e ∈ DocumentStore.documents p.docs ∨
      ∃ m ∈ ms, lacksSample documents m.1 = true ∧ e.name = Template.fileName m.1 := by
  induction ms generalizing p report with
  | nil =>
    cases h
    exact .inl he
  | cons m ms ih =>
    obtain ⟨o, q, hm, hms⟩ := sampleAll_cons_eq_ok h
    rcases ih hms with hq | ⟨m', hm', hn⟩
    · refine ((sampled_of_ok hm).mem_documents hq).imp_right fun hn => ?_
      exact ⟨m, List.mem_cons_self .., hn⟩
    · exact .inr ⟨m', List.mem_cons_of_mem _ hm', hn⟩

/-- Examples are added for the models that lack one. -/
theorem createdPlaces_sampleAll
    (h : sampleAll session c luck false documents ms report p = .ok report' p') :
    ∃ lines, report'.entries = report.entries ++ lines ∧
      createdPlaces c.template ms ⟨lines⟩ =
        (ms.filter (lacksSample documents ·.1)).map fun m => (samplePlace c.template m.1).key := by
  induction ms generalizing p report with
  | nil =>
    cases h
    exact ⟨[], (List.append_nil _).symm, rfl⟩
  | cons m ms ih =>
    obtain ⟨o, q, hm, hms⟩ := sampleAll_cons_eq_ok h
    obtain ⟨lines, hlines, hplaces⟩ := ih hms
    have ho := (sampled_of_ok hm).created_iff
    refine ⟨⟨(Catalog.mk session c.discovery).shownName m.1 false, o⟩ :: lines, ?_, ?_⟩
    · rw [hlines, Report.record, List.append_assoc, List.singleton_append]
    · rw [createdPlaces] at hplaces ⊢
      rw [List.zip_cons_cons, List.filterMap_cons, hplaces, List.filter_cons]
      dsimp only
      by_cases hl : lacksSample documents m.1 = true
      · rw [if_pos (ho.2 hl), if_pos hl, List.map_cons]
      · rw [if_neg fun h => hl (ho.1 h), if_neg hl]

/-- Examples are at one place if they have one file name. -/
theorem nodup_places_iff (t : Template) (ms : List (String × List Property)) :
    (ms.map fun m => (samplePlace t m.1).key).Nodup ↔
      (ms.map (Template.fileName ·.1)).Nodup := by
  have hkeys : ms.map (fun m => (samplePlace t m.1).key) =
      (ms.map (Template.fileName ·.1)).map fun name =>
        Path.components (Path.join (Path.joinAll t.folders) name) := by
    simp only [List.map_map, Function.comp_def, samplePlace, Document.key]
  have hnames : ms.map (Template.fileName ·.1) =
      (ms.map fun m => (samplePlace t m.1).key).map fun key =>
        (key.getLast?.filter Path.isName).getD "" := by
    rw [List.map_map]
    refine List.map_congr_left fun m _ => ?_
    rw [Function.comp_apply, ← Document.name_eq, name_samplePlace]
  constructor
  · intro h
    rw [hkeys] at h
    exact h.of_map _
  · intro h
    rw [hnames] at h
    exact h.of_map _

/-- A document that is there when some models are done has the name of none to be added later. -/
theorem name_ne_of_nodup {docs : List Document} {d : Document}
    (hn : (((ms ++ ns).filter (lacksSample docs ·.1)).map (Template.fileName ·.1)).Nodup)
    (hd : d ∈ docs ∨ ∃ m ∈ ms, lacksSample docs m.1 = true ∧ d.name = Template.fileName m.1) :
    ∀ m ∈ ns, lacksSample docs m.1 = true → d.name ≠ Template.fileName m.1 := by
  intro m hm hl he
  rcases hd with hd | ⟨m', hm', hl', he'⟩
  · exact lacksSample_iff.1 hl d hd he
  · rw [List.filter_append, List.map_append, List.nodup_append] at hn
    refine hn.2.2 (Template.fileName m'.1) ?_ (Template.fileName m.1) ?_ (he'.symm.trans he)
    · exact List.mem_map.2 ⟨m', List.mem_filter.2 ⟨hm', hl'⟩, rfl⟩
    · exact List.mem_map.2 ⟨m, List.mem_filter.2 ⟨hm, hl⟩, rfl⟩

/-- What is not blank in a document there was at the start is there after a run. All documents a
run finds or makes survive the work on later models, and no two examples are added at one place, if
and only if no two models without a document share a file name. -/
theorem sampleTypes_survives_iff (session : Session) (c : Conventions)
    (luck : String → Nat → Nat) (r : ExampleRequest) (docs : σ) (report : Report)
    (final : Progress σ) (hr : r.trial = false)
    (h : (sampleTypes session c luck r).run docs = (.ok report, final)) :
    (∀ d ∈ DocumentStore.documents docs, Survives d docs final.docs) ∧
    (((∀ k, ∀ d ∈ DocumentStore.documents (docsAfter session c luck r docs k),
        Survives d (docsAfter session c luck r docs k) final.docs) ∧
      (createdPlaces c.template (modelsOf session c r) report).Nodup) ↔
    (((modelsOf session c r).filter (lacksSample (DocumentStore.documents docs) ·.1)).map
      (Template.fileName ·.1)).Nodup) := by
  obtain ⟨report', hrun, hplaces⟩ := sampleAll_of_sampleTypes h
  rw [hr] at hrun
  obtain ⟨lines, hlines, hcreated⟩ := createdPlaces_sampleAll hrun
  obtain rfl : report' = ⟨lines⟩ := congrArg Report.mk hlines
  rw [hplaces, hcreated, nodup_places_iff]
  refine ⟨fun d hd => survives_sampleAll hrun fun m _ hl => lacksSample_iff.1 hl d hd,
    fun h => h.2, fun hn => ⟨fun k d hd => ?_, hn⟩⟩
  rw [← List.take_append_drop k (modelsOf session c r)] at hrun hn
  rw [sampleAll_append] at hrun
  obtain ⟨report₁, q, hfirst, hrest⟩ := Action.bind_eq_ok.1 hrun
  rw [docsAfter_of_ok (hr ▸ hfirst)] at hd ⊢
  exact survives_sampleAll hrest (name_ne_of_nodup hn (mem_documents_sampleAll hfirst hd))

/-! ## Two models of one name -/

/-- A model without properties. -/
def bareModel (name : String) : DescribedType :=
  ⟨name, "acme", .structured, none, [], [], [], []⟩

/-- A controller that answers with the models of two versions. -/
def userController : DescribedType :=
  let answer (status : Int64) (type : String) : Attribute :=
    ⟨"response", [.int status, .type (.named type)], .empty⟩
  ⟨"acme::UserController", "acme", .structured, some (.named "ControllerBase"), [],
    [⟨"list", .everyone, false, false, [],
      [answer 200 "acme::v1::User", answer 201 "acme::v2::User"]⟩], [], []⟩

def userSession : Session :=
  .ofSnapshots [⟨"acme", [],
    [bareModel "acme::v1::User", bareModel "acme::v2::User", userController]⟩]

/-- Asks for the response models of the controller. -/
def userRequest : ExampleRequest := ⟨some "User", none, "", false⟩

/-- Asks for the model of the first version. -/
def firstUserRequest : ExampleRequest := ⟨none, some "v1::User", "", false⟩

/-- The models of both versions are leaves of a session that has nothing else. -/
theorem leavesOf_user :
    (Catalog.mk userSession Conventions.standard.discovery).leavesOf
      [.named "acme::v1::User", .named "acme::v2::User"] [] =
        [bareModel "acme::v1::User", bareModel "acme::v2::User"] := by
  let catalog : Catalog := ⟨userSession, Conventions.standard.discovery⟩
  have h1 : Resolves catalog.ownership userSession "acme::v1::User"
      (bareModel "acme::v1::User") := ⟨rfl, rfl⟩
  have h2 : Resolves catalog.ownership userSession "acme::v2::User"
      (bareModel "acme::v2::User") := ⟨rfl, rfl⟩
  rw [Catalog.leavesOf, List.foldl_cons, List.foldl_cons, List.foldl_nil]
  rw [addLeaves_of_resolves h1 rfl rfl, addLeaves_of_resolves h2 rfl rfl]
  rfl

theorem modelsOf_userRequest :
    modelsOf userSession .standard userRequest =
      [("acme::v1::User", []), ("acme::v2::User", [])] := by
  let catalog : Catalog := ⟨userSession, Conventions.standard.discovery⟩
  have hc : catalog.controller? "User" "" = some userController := rfl
  have hr : catalog.responseProperties "User" "" =
      [("acme::v1::User", []), ("acme::v2::User", [])] := by
    rw [Catalog.responseProperties, hc]
    dsimp only
    rw [Catalog.modelsOfResponses]
    change (catalog.leavesOf ((catalog.leavesOf [.named "acme::v1::User",
      .named "acme::v2::User"] []).map fun m => .named m.name) []).map _ = _
    rw [show catalog.leavesOf _ [] = _ from leavesOf_user]
    change (catalog.leavesOf [.named "acme::v1::User", .named "acme::v2::User"] []).map _ = _
    rw [show catalog.leavesOf _ [] = _ from leavesOf_user]
    rfl
  change (Except.ok (catalog.responseProperties "User" "") : Except Error _).toOption.getD [] = _
  rw [hr]
  rfl

/-- Where the example of a model of the session is added by convention, and what it is. -/
def usualPlace (model : String) : Document :=
  samplePlace Conventions.standard.template model

def bareSample (model : String) : String :=
  Conventions.standard.template.render (rootedPath model userSession.target)

/-- A model of the session gets an example in an empty memory. -/
theorem sampleAll_user (model : String) (report : Report) (p : Progress Memory) :
    sampleAll userSession .standard luck false [] ((model, []) :: ms) report p =
      sampleAll userSession .standard luck false [] ms
        (report.record ((Catalog.mk userSession Conventions.standard.discovery).shownName model
          false) .created) ⟨p.docs.put (usualPlace model) (bareSample model), p.lines⟩ :=
  sampleAll_cons_of_ok (sampleModel_bare rfl rfl)

theorem shownName_user :
    (Catalog.mk userSession Conventions.standard.discovery).shownName "acme::v1::User" false =
      "v1::User" ∧
    (Catalog.mk userSession Conventions.standard.discovery).shownName "acme::v2::User" false =
      "v2::User" := by
  decide +kernel

theorem sampleAll_userRequest :
    sampleAll userSession .standard luck false [] [("acme::v1::User", [])] .empty
        (⟨Memory.empty, []⟩ : Progress Memory) =
      .ok ⟨[⟨"v1::User", .created⟩]⟩
        ⟨Memory.empty.put (usualPlace "acme::v1::User") (bareSample "acme::v1::User"), []⟩ := by
  rw [sampleAll_user, shownName_user.1]
  rfl

theorem run_userRequest :
    (sampleTypes userSession .standard luck userRequest).run Memory.empty =
      (.ok ⟨[⟨"v1::User", .created⟩, ⟨"v2::User", .created⟩]⟩,
        ⟨(Memory.empty.put (usualPlace "acme::v1::User") (bareSample "acme::v1::User")).put
          (usualPlace "acme::v2::User") (bareSample "acme::v2::User"), []⟩) := by
  refine sampleTypes_of_sampleAll (modelsOf userSession .standard userRequest) rfl ?_
  rw [modelsOf_userRequest]
  change sampleAll userSession .standard luck false [] _ .empty _ = _
  rw [sampleAll_user, sampleAll_user, shownName_user.1, shownName_user.2]
  rfl

theorem docsAfter_userRequest :
    docsAfter userSession .standard luck userRequest Memory.empty 1 =
      Memory.empty.put (usualPlace "acme::v1::User") (bareSample "acme::v1::User") := by
  rw [docsAfter, modelsOf_userRequest]
  exact congrArg (·.2.docs) (Action.run_of_ok sampleAll_userRequest)

/-- The two examples import different models, which a single digit tells apart. -/
theorem digit_bareSample :
    '1' ∈ (bareSample "acme::v1::User").toList ∧ '1' ∉ (bareSample "acme::v2::User").toList := by
  have hp : Naming.shortName Conventions.standard.template.providerPath = "ExamplesProvider" := by
    decide +kernel
  constructor
  · rw [bareSample, show rootedPath "acme::v1::User" userSession.target = "crate::v1::User" by decide +kernel,
      Template.render, show Naming.shortName "crate::v1::User" = "User" by decide +kernel, hp,
      String.toList_intercalate]
    decide +kernel
  · rw [bareSample, show rootedPath "acme::v2::User" userSession.target = "crate::v2::User" by decide +kernel,
      Template.render, show Naming.shortName "crate::v2::User" = "User" by decide +kernel, hp,
      String.toList_intercalate]
    decide +kernel

/-- Both models of the controller are added at one place, where the example of the first is
lost. -/
theorem sampleTypes_overwrites :
    ∃ report final,
      (sampleTypes userSession .standard (fun _ _ => 0) userRequest).run Memory.empty =
        (.ok report, final) ∧
      (∃ d ∈ DocumentStore.documents
          (docsAfter userSession .standard (fun _ _ => 0) userRequest Memory.empty 1),
        ¬Survives d (docsAfter userSession .standard (fun _ _ => 0) userRequest Memory.empty 1)
          final.docs) ∧
      ¬(createdPlaces Conventions.standard.template
        (modelsOf userSession .standard userRequest) report).Nodup := by
  have hkey : (usualPlace "acme::v1::User").key = (usualPlace "acme::v2::User").key := by
    decide +kernel
  have hmem : usualPlace "acme::v1::User" ∈
      (Memory.empty.put (usualPlace "acme::v1::User")
        (bareSample "acme::v1::User")).documents := by
    rw [Memory.documents_put, if_neg (by simp [Memory.documents, Memory.empty])]
    exact List.mem_append_right _ (List.mem_singleton_self _)
  refine ⟨_, _, run_userRequest, ⟨usualPlace "acme::v1::User", ?_, fun h => ?_⟩, fun h => ?_⟩
  · rw [docsAfter_userRequest]
    exact hmem
  · rw [docsAfter_userRequest] at h
    obtain ⟨text, ht, hs⟩ :=
      h (bareSample "acme::v1::User") ((Memory.read_put ..).trans (if_pos rfl))
    have ht' := (Memory.read_put ..).symm.trans ht
    rw [if_pos hkey] at ht'
    obtain rfl := Except.ok.inj ht'
    have hm := hs.subset (List.mem_filter.2 ⟨digit_bareSample.1, by decide⟩)
    exact digit_bareSample.2 (List.mem_filter.1 hm).1
  · rw [modelsOf_userRequest] at h
    revert h
    decide +kernel

/-- A request for one of the two keeps its example. -/
theorem sampleTypes_survives_first :
    ∃ report final,
      (sampleTypes userSession .standard (fun _ _ => 0) firstUserRequest).run Memory.empty =
        (.ok report, final) ∧
      (createdPlaces Conventions.standard.template
        (modelsOf userSession .standard firstUserRequest) report).Nodup := by
  have hm : modelsOf userSession .standard firstUserRequest = [("acme::v1::User", [])] := rfl
  have hrun : (sampleTypes userSession .standard (fun _ _ => 0) firstUserRequest).run
      Memory.empty = (.ok ⟨[⟨"v1::User", .created⟩]⟩,
        ⟨Memory.empty.put (usualPlace "acme::v1::User") (bareSample "acme::v1::User"), []⟩) :=
    sampleTypes_of_sampleAll (modelsOf userSession .standard firstUserRequest) rfl
      (hm ▸ sampleAll_userRequest)
  have h := sampleTypes_survives_iff userSession .standard (fun _ _ => 0) firstUserRequest
    Memory.empty _ _ rfl hrun
  rw [hm] at h
  exact ⟨_, _, hrun, hm ▸ (h.2.2 (List.nodup_singleton _)).2⟩

end Docsmith.Run
