import Docsmith.Proofs.Run.Effects
import Docsmith.Proofs.Run.Reports
import Docsmith.Proofs.Run.Samples
import Docsmith.Proofs.Workspace.Document

/-!
# Entries of reports

An annotation run describes each document once that is the only place for some of its types, and
reports every type with the outcome of that document. What has been described, and for which types,
is gathered by the keys of documents and by the names types are shown with; neither mixes two
documents up, in whatever set of documents. So no outcome is missing in the end.

* `DescribesAll`: the steps of describing some documents in turn;
* `subjects_plans`: the types whose only document a subject has are those it is described for,
  without a law about the set;
* `annotateTypes_entries`: what the report of a run tells.
-/

namespace Docsmith.Run

open Docsmith.Description Docsmith.Discovery Docsmith.Metadata Docsmith.Source

variable {σ : Type} [DocumentStore σ]

/-! ## Steps -/

/-- Describes a document; an error of the input makes it skipped. -/
def describeOrSkip (c : Conventions) (r : DescribeRequest) (d : Document) : Action σ Outcome :=
  Action.skipInput do return (← describeDocument c r d).1

/-- What a step does to its document at most: a trial shows it once, another run writes it once,
which may fail. -/
inductive Touches (trial : Bool) (d : Document) (p : Progress σ) : Progress σ → Prop
  | leaves : Touches trial d p p
  | shows (text : String) : trial = true →
      Touches trial d p { p with lines := p.lines ++ framed d.path text }
  | writes {answer : Except Error Unit} {docs : σ} (text : String) : trial = false →
      DocumentStore.write p.docs d text = (answer, docs) → Touches trial d p { p with docs }

/-- Describing documents one after the other, each with the outcome it gets. -/
inductive DescribesAll (c : Conventions) (r : DescribeRequest) :
    List (Document × Outcome) → Progress σ → Progress σ → Prop
  | nil {p : Progress σ} : DescribesAll c r [] p p
  | cons {d : Document} {o : Outcome} {steps : List (Document × Outcome)} {p q q' : Progress σ} :
      describeOrSkip c r d p = .ok o q → Touches r.trial d p q → DescribesAll c r steps q q' →
      DescribesAll c r ((d, o) :: steps) p q'

section

variable {c : Conventions} {r : DescribeRequest} {d : Document} {p q : Progress σ}

theorem touches_emit (trial : Bool) (d : Document) (text : String) (p : Progress σ) :
    Touches trial d p (Action.stop (Action.emit trial d text p)) := by
  cases trial with
  | true => exact .shows text rfl
  | false =>
    rw [Action.emit, if_neg Bool.false_ne_true, Action.bind_eq, Action.writeDocument, Action.onDocs]
    cases hw : DocumentStore.write p.docs d text with
    | mk answer docs => cases answer <;> exact .writes text rfl hw

theorem touches_describeDocument (c : Conventions) (r : DescribeRequest) (d : Document)
    (p : Progress σ) : Touches r.trial d p (Action.stop (describeDocument c r d p)) := by
  rw [describeDocument, Action.bind_eq]
  rcases readDocument_cases d p with ⟨text, -, hread⟩ | ⟨e, hread⟩
  · rw [hread]
    dsimp only
    split
    · rename_i hdiff
      have h := touches_emit r.trial d
        (addImports (annotate (c.annotator d.holdsController) text).revision.after r.imports).after p
      rw [Action.bind_eq]
      cases he : Action.emit r.trial d
        (addImports (annotate (c.annotator d.holdsController) text).revision.after
          r.imports).after p with
      | ok o q => rwa [he] at h
      | error e q => rwa [he] at h
    · exact .leaves
  · rw [hread]
    exact .leaves

/-- Annotating a subject describes its document, for all of its types. -/
theorem annotateSubject_eq_ok {done done' : Annotating} {s : Subject}
    (h : annotateSubject c r done s p = .ok done' q) :
    ∃ o, describeOrSkip c r s.document p = .ok o q ∧ Touches r.trial s.document p q ∧
      ∀ x, done'.outcomes.find? x = if x ∈ s.shown then some o else done.outcomes.find? x := by
  have ht := touches_describeDocument c r s.document p
  rw [annotateSubject] at h
  cases hd : describeDocument c r s.document p with
  | ok answer q' =>
    rw [hd] at h ht
    cases h
    refine ⟨answer.1, Action.skipInput_of_ok ?_, ht, find?_foldl_put s.shown _ done.outcomes⟩
    rw [Action.bind_eq, hd]
    rfl
  | error e q' =>
    rw [hd] at h ht
    dsimp only at h
    split at h
    · rename_i he
      cases h
      refine ⟨.skipped e.message, ?_, ht, find?_foldl_put s.shown _ done.outcomes⟩
      have hw : (do return (← describeDocument c r s.document).1 : Action σ Outcome) p =
          .error e q := by
        rw [Action.bind_eq, hd]
      rw [describeOrSkip, Action.skipInput_of_error hw, if_pos he]
    · cases h

/-- Annotating subjects, none of them for the same type as another, describes their documents in
turn. -/
theorem annotateAll_eq_ok {ss : List Subject} {done done' : Annotating}
    (hshown : ∀ s ∈ ss, ∀ s' ∈ ss, ∀ x ∈ s.shown, x ∈ s'.shown → s.document = s'.document)
    (hn : (ss.map (·.document)).Nodup) (h : annotateAll c r ss done p = .ok done' q) :
    ∃ steps, steps.map (·.1) = ss.map (·.document) ∧ DescribesAll c r steps p q ∧
      (∀ s ∈ ss, ∀ x ∈ s.shown, ∃ o, (s.document, o) ∈ steps ∧
        done'.outcomes.find? x = some o) ∧
      ∀ x, (∀ s ∈ ss, x ∉ s.shown) → done'.outcomes.find? x = done.outcomes.find? x := by
  induction ss generalizing done p with
  | nil =>
    cases h
    exact ⟨[], rfl, .nil, by simp, fun _ _ => rfl⟩
  | cons s ss ih =>
    rw [annotateAll, Action.bind_eq_ok] at h
    obtain ⟨done₁, p₁, hfirst, hrest⟩ := h
    rw [List.map_cons, List.nodup_cons] at hn
    obtain ⟨o, hstep, htouch, hfind⟩ := annotateSubject_eq_ok hfirst
    obtain ⟨steps, hdocs, hall, htold, hother⟩ := ih (fun t ht t' ht' =>
      hshown t (List.mem_cons_of_mem _ ht) t' (List.mem_cons_of_mem _ ht')) hn.2 hrest
    -- no later subject has a type of the first
    have hnot : ∀ x ∈ s.shown, ∀ t ∈ ss, x ∉ t.shown := fun x hx t ht hxt =>
      hn.1 (List.mem_map.2 ⟨t, ht, (hshown s (List.mem_cons_self ..) t
        (List.mem_cons_of_mem _ ht) x hx hxt).symm⟩)
    refine ⟨(s.document, o) :: steps, by rw [List.map_cons, List.map_cons, hdocs],
      .cons hstep htouch hall, fun t ht x hx => ?_, fun x hx => ?_⟩
    · rcases List.mem_cons.1 ht with rfl | ht
      · refine ⟨o, List.mem_cons_self .., ?_⟩
        rw [hother x (hnot x hx), hfind, if_pos hx]
      · obtain ⟨o', ho', hx'⟩ := htold t ht x hx
        exact ⟨o', List.mem_cons_of_mem _ ho', hx'⟩
    · obtain ⟨hxs, hxss⟩ := List.forall_mem_cons.1 hx
      rw [hother x hxss, hfind, if_neg hxs]

end

/-! ## Types and their documents -/

/-- The documents that are the only place for some type. -/
def soleDocuments (plans : List Planned) : List Document :=
  plans.filterMap fun p =>
    match p.target with
    | .sole d => some d
    | _ => none

theorem mem_soleDocuments {plans : List Planned} {d : Document} :
    d ∈ soleDocuments plans ↔ ∃ p ∈ plans, p.target = .sole d := by
  rw [soleDocuments, List.mem_filterMap]
  refine exists_congr fun p => and_congr_right fun _ => ?_
  cases p.target <;> simp

theorem matching_eq_of_sole {documents : List Document} {typeName : String} {d : Document}
    (h : Target.ofMatches (Document.matching documents typeName) = .sole d) :
    Document.matching documents typeName = [d] := by
  generalize Document.matching documents typeName = ds at h
  match ds with
  | [] => cases h
  | [e] => rw [Target.sole.inj h]
  | _ :: _ :: _ => cases h

/-- No two documents of one key are the only place for a type each. -/
theorem keysDiffer_soleDocuments (catalog : Catalog) (documents : List Document)
    (names : List String) :
    KeysDiffer (soleDocuments (names.map (plan catalog documents))) := by
  intro d hd e he hkey
  obtain ⟨p, hp, hpd⟩ := mem_soleDocuments.1 hd
  obtain ⟨p', hp', hpe⟩ := mem_soleDocuments.1 he
  have hmem : e ∈ documents := targetsIn_plans catalog documents names p' hp' e hpe
  have hone : Document.matching documents p.shown = [d] :=
    matching_eq_of_sole ((target_of_mem_plans hp).symm.trans hpd)
  have hfound : e ∈ Document.matching documents p.shown :=
    Document.mem_matching_congr hkey (hone ▸ List.mem_singleton_self d) hmem
  rw [hone] at hfound
  exact (List.mem_singleton.1 hfound).symm

/-- The subjects of a run are the documents that are the only place for some type. Each is annotated
for these types, and no other subject is for one of them. -/
theorem subjects_plans (catalog : Catalog) (documents : List Document) (names : List String) :
    let plans := names.map (plan catalog documents)
    ((subjects plans).map (·.document)).Nodup ∧
      (∀ d, d ∈ (subjects plans).map (·.document) ↔ ∃ p ∈ plans, p.target = .sole d) ∧
      (∀ p ∈ plans, ∀ d, p.target = .sole d →
        ∃ s ∈ subjects plans, s.document = d ∧ p.shown ∈ s.shown) ∧
      ∀ s ∈ subjects plans, ∀ s' ∈ subjects plans, ∀ x ∈ s.shown, x ∈ s'.shown →
        s.document = s'.document := by
  intro plans
  have hin : TargetsIn (soleDocuments plans) plans :=
    fun p hp d hd => mem_soleDocuments.2 ⟨p, hp, hd⟩
  obtain ⟨hmem, hnodup⟩ := documents_subjects hin
  obtain ⟨hshown, hplanned⟩ :=
    subjects_spec (keysDiffer_soleDocuments catalog documents names) hin
  refine ⟨hnodup, fun d => ⟨fun hd => ?_, ?_⟩, hplanned, fun s hs s' hs' x hx hx' => ?_⟩
  · obtain ⟨s, hs, rfl⟩ := List.mem_map.1 hd
    exact mem_soleDocuments.1 (hmem s hs)
  · rintro ⟨p, hp, hpd⟩
    obtain ⟨s, hs, rfl, -⟩ := hplanned p hp d hpd
    exact List.mem_map.2 ⟨s, hs, rfl⟩
  · exact eq_of_mem_shownFor (fun p hp => target_of_mem_plans hp) (hshown s hs ▸ hx)
      (hshown s' hs' ▸ hx')

/-! ## Reports -/

/-- What an entry tells of a type: the outcome of its only document, which has been put down for the
type, or why it was left out. -/
inductive Tells (done : Annotating) (outcome : Document → Outcome) : Planned → ReportLine → Prop
  | described {p : Planned} {d : Document} : p.target = .sole d →
      done.outcomes.find? p.shown = some (outcome d) → Tells done outcome p ⟨p.shown, outcome d⟩
  | leftOut {p : Planned} {reason : String} : p.target.skipReason? = some reason →
      Tells done outcome p ⟨p.shown, .skipped reason⟩

/-- Steps on different documents give each its outcome. -/
theorem exists_outcome {steps : List (Document × Outcome)} (hn : (steps.map (·.1)).Nodup) :
    ∃ outcome : Document → Outcome, (∀ s ∈ steps, s.2 = outcome s.1) ∧
      steps = (steps.map (·.1)).map fun d => (d, outcome d) := by
  have hs : ∀ s ∈ steps,
      s.2 = ((steps.find? (·.1 = s.1)).map (·.2)).getD .unchanged := by
    intro s hs
    cases hf : steps.find? (·.1 = s.1) with
    | none => exact absurd (decide_eq_true rfl) (List.find?_eq_none.1 hf s hs)
    | some t =>
      have ht : t.1 = s.1 := by simpa using List.find?_some hf
      rw [List.inj_on_of_nodup_map hn hs (List.mem_of_find?_eq_some hf) ht.symm]
      rfl
  refine ⟨fun d => ((steps.find? (·.1 = d)).map (·.2)).getD .unchanged, hs, ?_⟩
  rw [List.map_map]
  exact (List.map_id steps).symm.trans (List.map_congr_left fun s h => Prod.ext rfl (hs s h))

theorem reportUpdate_entries {cause trial : Bool} {documents : List Document} {name : String}
    {change : String → Except Error Revision} {report report' : Report} {p q : Progress σ}
    (h : reportUpdate cause trial documents name change report p = .ok report' q) :
    ∃ o : Option Outcome, report'.entries = report.entries ++ o.toList.map (⟨name, ·⟩) := by
  cases cause with
  | false =>
    cases h
    exact ⟨none, (List.append_nil _).symm⟩
  | true =>
    rw [reportUpdate, if_pos rfl, Action.bind_eq_ok] at h
    obtain ⟨o, p', -, h⟩ := h
    cases h
    exact ⟨some o, rfl⟩

/-- A run that gives a report has described each document once that is the only match of some type,
and no other. It has shown or written each of them once at most meanwhile. The report has one entry
for each type, in their order and by the names they are shown with: the outcome of the only match of
the type, which is one for all of its types, or why it was left out. Then one entry at most for the
document of the descriptions follows, and one at most for that of the registry. -/
theorem annotateTypes_entries {session : Session} {c : Conventions} {r : DescribeRequest}
    {docs : σ} {report : Report} {final : Progress σ}
    (h : (annotateTypes session c r).run docs = (.ok report, final)) :
    ∃ names, subjectNames ⟨session, c.discovery⟩ r = .ok names ∧
      let plans := names.map (plan ⟨session, c.discovery⟩ (DocumentStore.documents docs))
      let recorded := (externals ⟨session, c.discovery⟩ plans).foldl
        (fun regions e => regions.record e.1.shown e.2) Regions.empty
      ∃ done q entries, ∃ (ds : List Document) (outcome : Document → Outcome),
        ∃ descriptions registry : Option Outcome,
          annotateAll c r (subjects plans) ⟨.empty, recorded⟩ ⟨docs, []⟩ = .ok done q ∧
          ds.Nodup ∧ (∀ d, d ∈ ds ↔ ∃ p ∈ plans, p.target = .sole d) ∧
          DescribesAll c r (ds.map fun d => (d, outcome d)) ⟨docs, []⟩ q ∧
          List.Forall₂ (Tells done outcome) plans entries ∧
          report.entries = entries ++ descriptions.toList.map (⟨c.descriptionsDocument, ·⟩) ++
            registry.toList.map (⟨c.registryDocument, ·⟩) := by
  obtain ⟨names, done, report₁, p₁, p₂, hn, hall, hdesc, hreg⟩ :=
    annotateTypes_eq_ok (Action.eq_ok_of_run h)
  let plans := names.map (plan ⟨session, c.discovery⟩ (DocumentStore.documents docs))
  obtain ⟨hnodup, hsole, hplanned, hshown⟩ :=
    subjects_plans ⟨session, c.discovery⟩ (DocumentStore.documents docs) names
  obtain ⟨steps, hsteps, hdescribes, htold, -⟩ := annotateAll_eq_ok hshown hnodup hall
  obtain ⟨outcome, houtcome, heq⟩ := exists_outcome (hsteps ▸ hnodup)
  obtain ⟨descriptions, hd⟩ := reportUpdate_entries hdesc
  obtain ⟨registry, hr⟩ := reportUpdate_entries hreg
  refine ⟨names, hn, done, p₁, plans.map fun p => ⟨p.shown, outcomeOf done p⟩,
    (subjects plans).map (·.document), outcome, descriptions, registry, hall, hnodup, hsole,
    ?_, ?_, ?_⟩
  · rwa [heq, hsteps] at hdescribes
  · rw [List.forall₂_map_right_iff, List.forall₂_same]
    intro p hp
    cases ht : p.target with
    | sole d =>
      obtain ⟨s, hs, rfl, hps⟩ := hplanned p hp d ht
      obtain ⟨o, hmem, hfind⟩ := htold s hs p.shown hps
      obtain rfl : o = outcome s.document := houtcome _ hmem
      have ho : outcomeOf done p = outcome s.document := by
        rw [outcomeOf, ht, Target.skipReason?, hfind]
        rfl
      rw [ho]
      exact .described ht hfind
    | nowhere =>
      rw [outcomeOf, ht]
      exact .leftOut (by rw [ht]; rfl)
    | several ds =>
      rw [outcomeOf, ht]
      exact .leftOut (by rw [ht]; rfl)
  · rw [hr, hd]

/-! ## Two types in one document -/

/-- Asks for the controller and its models. -/
def describeUser : DescribeRequest := ⟨some "User", none, "", [], false⟩

theorem subjectNames_describeUser :
    subjectNames ⟨userSession, Conventions.standard.discovery⟩ describeUser =
      .ok ["acme::UserController", "acme::v1::User", "acme::v2::User"] := by
  let catalog : Catalog := ⟨userSession, Conventions.standard.discovery⟩
  have hmodels : catalog.modelsOfActions userController =
      [bareModel "acme::v1::User", bareModel "acme::v2::User"] := leavesOf_user
  change Except.ok (catalog.modelNames "User" true "" true) = _
  rw [Catalog.modelNames, show catalog.controller? "User" "" = some userController from rfl]
  dsimp only
  rw [Catalog.closure, hmodels]
  rfl

/-- A document that lies in the modules of both versions. -/
def sharedDocument : Document := ⟨"v1/v2/user.rs"⟩

def sharedDocuments : Memory := Memory.empty.put sharedDocument "struct User\x7bb:u8\x7d"

/-- The only document of both models is described once, and both are reported as written. -/
theorem annotateTypes_entries_shared :
    let report : Report := ⟨[⟨"UserController", .skipped "no matching document"⟩,
      ⟨"v1::User", .written⟩, ⟨"v2::User", .written⟩,
      ⟨"descriptions.rs", .skipped "Document 'descriptions.rs' not found"⟩]⟩
    let run := (annotateTypes userSession .standard describeUser).run sharedDocuments
    run.1 = .ok report ∧ ∃ p o,
      DescribesAll .standard describeUser [(sharedDocument, o)] ⟨sharedDocuments, []⟩ p := by
  intro report run
  have hreport : run.1 = .ok report := by
    change ((annotateTypes userSession .standard describeUser).run sharedDocuments).1 = _
    rw [annotateTypes, subjectNames_describeUser]
    decide +kernel
  have hrun : run = (.ok report, run.2) := Prod.ext hreport rfl
  obtain ⟨names, hn, done, p, entries, ds, outcome, -, -, -, hnodup, hmem, hall, -⟩ :=
    annotateTypes_entries hrun
  obtain rfl := Except.ok.inj (subjectNames_describeUser.symm.trans hn)
  have hsole : soleDocuments (["acme::UserController", "acme::v1::User", "acme::v2::User"].map
      (plan ⟨userSession, Conventions.standard.discovery⟩
        (DocumentStore.documents sharedDocuments))) = [sharedDocument, sharedDocument] := by
    decide +kernel
  have hone : ds = [sharedDocument] := by
    refine List.perm_singleton.1 ((List.perm_ext_iff_of_nodup hnodup
      (List.nodup_singleton _)).2 fun d => ?_)
    rw [hmem, ← mem_soleDocuments, hsole]
    simp
  exact ⟨hreport, p, outcome sharedDocument, by rwa [hone] at hall⟩

end Docsmith.Run
