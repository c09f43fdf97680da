import Docsmith.Proofs.Run.Attempts
import Docsmith.Proofs.Run.Samples
import Docsmith.Proofs.Workspace.Document

/-!
# Runs on two sets of documents

Two sets that answer alike carry runs that end alike. The sets may list their documents in different
orders: then only the candidates that an ambiguity names come in another order. The first set may
also refuse a step, with an error that is none of the input; nothing is told of the second run then.

* `Simulates`: one action on the first set, another on the second, and ends that match;
* `Mirrors`, `Extends`: what two sets must have in common, before documents are added and after;
* `annotateTypes_simulates`, `sampleTypes_simulates`: the runs on two such sets.
-/

namespace Docsmith.Run

open Docsmith.Description Docsmith.Discovery Docsmith.Example Docsmith.Metadata Docsmith.Source

/-! ## Answers -/

section

variable (P : List String → List String → Prop)

/-- Errors that are one, but for the candidates of an ambiguity. -/
inductive ErrorAlike : Error → Error → Prop
  | refl (e : Error) : ErrorAlike e e
  | ambiguous (name : String) {ps qs : List String} : P ps qs →
      ErrorAlike (.ambiguousDocument name ps) (.ambiguousDocument name qs)

/-- Why a type was left out that several documents may declare. -/
def severalReason (paths : List String) : String :=
  "more than one matching document: " ++ ", ".intercalate paths

/-- Outcomes that are one, but for the candidates that the text of an ambiguity names. -/
inductive OutcomeAlike : Outcome → Outcome → Prop
  | refl (o : Outcome) : OutcomeAlike o o
  | ambiguous (name : String) {ps qs : List String} : P ps qs →
      OutcomeAlike (.skipped (Error.ambiguousDocument name ps).message)
        (.skipped (Error.ambiguousDocument name qs).message)
  | several {ps qs : List String} : P ps qs →
      OutcomeAlike (.skipped (severalReason ps)) (.skipped (severalReason qs))

/-- Lines on one subject, with outcomes alike. -/
structure LineAlike (l l' : ReportLine) : Prop where
  subject : l.subject = l'.subject
  outcome : OutcomeAlike P l.outcome l'.outcome

/-- Reports on the same subjects in one order, with outcomes alike. -/
def ReportAlike (r r' : Report) : Prop := List.Forall₂ (LineAlike P) r.entries r'.entries

/-- Answers that are alike: two errors or two values. -/
inductive AnswerAlike {α : Type} (Q : α → α → Prop) : Except Error α → Except Error α → Prop
  | ok {x y : α} : Q x y → AnswerAlike Q (.ok x) (.ok y)
  | error {e e' : Error} : ErrorAlike P e e' → AnswerAlike Q (.error e) (.error e')

end

variable {P : List String → List String → Prop}

theorem ErrorAlike.of_eq (e e' : Error) (h : e = e') : ErrorAlike P e e' :=
  h ▸ .refl e

theorem OutcomeAlike.of_eq (o o' : Outcome) (h : o = o') : OutcomeAlike P o o' :=
  h ▸ .refl o

theorem ErrorAlike.isInput {e e' : Error} (h : ErrorAlike P e e') : e.isInput = e'.isInput := by
  cases h <;> rfl

theorem ErrorAlike.of_ambiguous {name : String} {ps : List String} {e : Error}
    (h : ErrorAlike P (.ambiguousDocument name ps) e) : ∃ qs, e = .ambiguousDocument name qs := by
  cases h with
  | refl => exact ⟨ps, rfl⟩
  | @ambiguous _ _ qs => exact ⟨qs, rfl⟩

section

variable {α : Type} {Q : α → α → Prop} {y : Except Error α}

theorem AnswerAlike.of_ok {x : α} (h : AnswerAlike P Q (.ok x) y) : ∃ z, y = .ok z ∧ Q x z := by
  cases h with
  | ok hq => exact ⟨_, rfl, hq⟩

theorem AnswerAlike.of_error {e : Error} (h : AnswerAlike P Q (.error e) y) :
    ∃ e', y = .error e' ∧ ErrorAlike P e e' := by
  cases h with
  | error he => exact ⟨_, rfl, he⟩

end

/-- What does not depend on a set is alike. -/
theorem AnswerAlike.same {α : Type} (x : Except Error α) : AnswerAlike P Eq x x := by
  cases x with
  | ok a => exact .ok rfl
  | error e => exact .error (.refl e)

theorem ErrorAlike.outcome {e e' : Error} (h : ErrorAlike P e e') :
    OutcomeAlike P (.skipped e.message) (.skipped e'.message) := by
  cases h with
  | refl => exact .refl _
  | ambiguous name hp => exact .ambiguous name hp

theorem ReportAlike.record {r r' : Report} {o o' : Outcome} (h : ReportAlike P r r')
    (subject : String) (ho : OutcomeAlike P o o') :
    ReportAlike P (r.record subject o) (r'.record subject o') :=
  List.rel_append h (.cons ⟨rfl, ho⟩ .nil)

/-- Reports whose candidates are in one order are one. -/
theorem ReportAlike.eq {r r' : Report} (h : ReportAlike Eq r r') : r = r' := by
  have hlines : ∀ l l', LineAlike Eq l l' → l = l' := by
    rintro ⟨subject, o⟩ ⟨_, o'⟩ ⟨rfl, ho⟩
    cases ho with
    | refl => rfl
    | ambiguous name hp => rw [hp]
    | several hp => rw [hp]
  have hentries : List.Forall₂ Eq r.entries r'.entries := h.imp fun l l' => hlines l l'
  rw [List.forall₂_eq_eq_eq] at hentries
  exact congrArg Report.mk hentries

theorem AnswerAlike.eq {x y : Except Error Report} (h : AnswerAlike Eq (ReportAlike Eq) x y) :
    x = y := by
  cases h with
  | ok hr => rw [hr.eq]
  | error he =>
    cases he with
    | refl => rfl
    | ambiguous name hp => rw [hp]

/-! ## Lists of documents -/

/-- The same documents, found with paths that are alike whatever is looked for. -/
structure SameDocuments (P : List String → List String → Prop) (documents documents' :
    List Document) : Prop where
  perm : documents.Perm documents'
  paths (f : Document → Bool) :
    P ((documents.filter f).map (·.path)) ((documents'.filter f).map (·.path))

theorem SameDocuments.of_eq {documents documents' : List Document} (h : documents = documents') :
    SameDocuments Eq documents documents' :=
  h ▸ ⟨.refl _, fun _ => rfl⟩

theorem SameDocuments.of_perm {documents documents' : List Document}
    (h : documents.Perm documents') : SameDocuments List.Perm documents documents' :=
  ⟨h, fun f => (h.filter f).map _⟩

/-- Targets that are one, but for the candidates. -/
inductive TargetAlike (P : List String → List String → Prop) : Target → Target → Prop
  | nowhere : TargetAlike P .nowhere .nowhere
  | sole (d : Document) : TargetAlike P (.sole d) (.sole d)
  | several {ds es : List Document} : P (ds.map (·.path)) (es.map (·.path)) →
      TargetAlike P (.several ds) (.several es)

/-- Plans for one type, with targets alike. -/
structure PlannedAlike (P : List String → List String → Prop) (p p' : Planned) : Prop where
  name : p.name = p'.name
  shown : p.shown = p'.shown
  target : TargetAlike P p.target p'.target

/-- The same documents in two orders: none, one, or several on both sides. -/
theorem perm_cases {ds es : List Document} (h : ds.Perm es) :
    (ds = [] ∧ es = []) ∨ (∃ d, ds = [d] ∧ es = [d]) ∨
      ∃ d d' ds' e e' es', ds = d :: d' :: ds' ∧ es = e :: e' :: es' := by
  rcases ds with _ | ⟨d, _ | ⟨d', ds⟩⟩
  · exact .inl ⟨rfl, h.nil_eq.symm⟩
  · exact .inr (.inl ⟨d, rfl, h.singleton_eq.symm⟩)
  · have hl := h.length_eq
    rcases es with _ | ⟨e, _ | ⟨e', es⟩⟩
    · cases hl
    · cases hl
    · exact .inr (.inr ⟨d, d', ds, e, e', es, rfl, rfl⟩)

theorem targetAlike_ofMatches {ds es : List Document} (h : ds.Perm es)
    (hp : P (ds.map (·.path)) (es.map (·.path))) :
    TargetAlike P (.ofMatches ds) (.ofMatches es) := by
  rcases perm_cases h with ⟨rfl, rfl⟩ | ⟨d, rfl, rfl⟩ | ⟨d, d', ds, e, e', es, rfl, rfl⟩
  · exact .nowhere
  · exact .sole d
  · exact .several hp

section

variable {documents documents' : List Document}

/-- Looking for a name finds the same document, or fails alike. -/
theorem SameDocuments.single (h : SameDocuments P documents documents') (name : String) :
    AnswerAlike P (fun d d' => d = d' ∧ Document.single documents name = .ok d)
      (Document.single documents name) (Document.single documents' name) := by
  have hperm := h.perm.filter fun d => d.name = name
  have hpaths := h.paths fun d => d.name = name
  rw [Document.single, Document.single]
  generalize documents.filter (fun d => d.name = name) = ds at hperm hpaths
  generalize documents'.filter (fun d => d.name = name) = es at hperm hpaths
  rcases perm_cases hperm with ⟨rfl, rfl⟩ | ⟨d, rfl, rfl⟩ | ⟨d, d', ds, e, e', es, rfl, rfl⟩
  · exact .error (.refl _)
  · exact .ok ⟨rfl, rfl⟩
  · exact .error (.ambiguous name hpaths)

theorem SameDocuments.plans (h : SameDocuments P documents documents') (c : Catalog)
    (names : List String) :
    List.Forall₂ (PlannedAlike P) (names.map (plan c documents))
      (names.map (plan c documents')) := by
  rw [List.forall₂_map_left_iff, List.forall₂_map_right_iff, List.forall₂_same]
  intro name _
  obtain ⟨f, hf, hf', -⟩ := Document.matching_eq_filter h.perm (c.shownName name false)
  refine ⟨rfl, rfl, ?_⟩
  rw [plan, plan]
  dsimp only
  rw [hf, hf']
  exact targetAlike_ofMatches (h.perm.filter f) (h.paths f)

end

section

variable {plans plans' : List Planned}

/-- The subjects of plans do not depend on the order of candidates. -/
theorem subjects_congr (h : List.Forall₂ (PlannedAlike P) plans plans') :
    subjects plans = subjects plans' := by
  rw [subjects_eq, subjects_eq]
  refine congrArg Table.values ?_
  generalize (Table.empty : Table (List String) Subject) = t
  induction h generalizing t with
  | nil => rfl
  | @cons p p' _ _ hp _ ih =>
    rw [List.foldl_cons, List.foldl_cons, ih]
    congr 1
    obtain ⟨name, shown, target⟩ := p
    obtain ⟨name', shown', target'⟩ := p'
    obtain ⟨rfl, rfl, htarget⟩ := hp
    cases htarget <;> rfl

/-- Neither do the types without a document. -/
theorem externals_congr (h : List.Forall₂ (PlannedAlike P) plans plans') (c : Catalog) :
    externals c plans = externals c plans' := by
  induction h with
  | nil => rfl
  | @cons p p' _ _ hp _ ih =>
    rw [externals, externals, List.filterMap_cons, List.filterMap_cons]
    rw [externals, externals] at ih
    rw [ih]
    obtain ⟨name, shown, target⟩ := p
    obtain ⟨name', shown', target'⟩ := p'
    obtain ⟨rfl, rfl, htarget⟩ := hp
    cases htarget <;> rfl

end

theorem PlannedAlike.outcome {p p' : Planned} (h : PlannedAlike P p p') (done : Annotating) :
    OutcomeAlike P (outcomeOf done p) (outcomeOf done p') := by
  obtain ⟨name, shown, target⟩ := p
  obtain ⟨name', shown', target'⟩ := p'
  obtain ⟨rfl, rfl, htarget⟩ := h
  cases htarget with
  | nowhere => exact .refl _
  | sole d => exact .refl _
  | several hp => exact .several hp

/-! ## Actions -/

section

variable {σ τ α β α' β' : Type}

/-- How an action ends on one set and another action on its counterpart: both well or both with an
error, with the same lines shown. Or else the first set has refused. -/
inductive Matches (E : Error → Error → Prop) (R : σ → τ → Prop) (Q : α → β → Prop) :
    EStateM.Result Error (Progress σ) α → EStateM.Result Error (Progress τ) β → Prop
  | ok {x : α} {y : β} {s : σ} {t : τ} {lines : List String} : Q x y → R s t →
      Matches E R Q (.ok x ⟨s, lines⟩) (.ok y ⟨t, lines⟩)
  | error {e e' : Error} {s : σ} {t : τ} {lines : List String} : E e e' → R s t →
      Matches E R Q (.error e ⟨s, lines⟩) (.error e' ⟨t, lines⟩)
  | refused {e : Error} {p : Progress σ} {result : EStateM.Result Error (Progress τ) β} :
      e.isInput = false → Matches E R Q (.error e p) result

/-- Two actions whose ends match from all sets that correspond. -/
def Simulates (E : Error → Error → Prop) (R : σ → τ → Prop) (Q : α → β → Prop)
    (a : Action σ α) (b : Action τ β) : Prop :=
  ∀ s t lines, R s t → Matches E R Q (a ⟨s, lines⟩) (b ⟨t, lines⟩)

variable {E E' : Error → Error → Prop} {R : σ → τ → Prop} {Q : α → β → Prop}
  {Q' : α' → β' → Prop}

theorem Matches.mono {x : EStateM.Result Error (Progress σ) α}
    {y : EStateM.Result Error (Progress τ) β} {Q₂ : α → β → Prop} (h : Matches E R Q x y)
    (hE : ∀ e e', E e e' → E' e e') (hQ : ∀ a b, Q a b → Q₂ a b) : Matches E' R Q₂ x y := by
  cases h with
  | ok hq hR => exact .ok (hQ _ _ hq) hR
  | error he hR => exact .error (hE _ _ he) hR
  | refused he => exact .refused he

/-- Two runs whose answers are alike and which have shown the same lines, on sets that correspond
after them. -/
structure RunsAlike (P : List String → List String → Prop) (R : σ → τ → Prop)
    (x : Except Error Report × Progress σ) (y : Except Error Report × Progress τ) : Prop where
  answer : AnswerAlike P (ReportAlike P) x.1 y.1
  lines : x.2.lines = y.2.lines
  docs : R x.2.docs y.2.docs

/-- Runs that end alike on their sets, unless the first set has refused. -/
theorem Matches.run {a : Action σ Report} {b : Action τ Report} {s : σ} {t : τ}
    (h : Matches (ErrorAlike P) R (ReportAlike P) (a ⟨s, []⟩) (b ⟨t, []⟩))
    (hok : ∀ e, (a.run s).1 = .error e → e.isInput = true) :
    RunsAlike P R (a.run s) (b.run t) := by
  rw [Action.run, Action.run] at *
  generalize a ⟨s, []⟩ = result at h hok
  generalize b ⟨t, []⟩ = result' at h
  cases h with
  | ok hq hR => exact ⟨.ok hq, rfl, hR⟩
  | error he hR => exact ⟨.error he, rfl, hR⟩
  | refused he => exact absurd (hok _ rfl) (by rw [he]; exact Bool.false_ne_true)

theorem Matches.bind {x : Action σ α} {x' : Action τ β} {f : α → Action σ α'}
    {f' : β → Action τ β'} {p : Progress σ} {p' : Progress τ} (hx : Matches E R Q (x p) (x' p'))
    (hf : ∀ a b, Q a b → Simulates E R Q' (f a) (f' b)) :
    Matches E R Q' ((x >>= f) p) ((x' >>= f') p') := by
  rw [Action.bind_eq, Action.bind_eq]
  generalize x p = result at hx
  generalize x' p' = result' at hx
  cases hx with
  | ok hq hR => exact hf _ _ hq _ _ _ hR
  | error he hR => exact .error he hR
  | refused he => exact .refused he

namespace Simulates

theorem pure {x : α} {y : β} (h : Q x y) :
    Simulates E R Q (pure x : Action σ α) (pure y : Action τ β) :=
  fun _ _ _ hR => .ok h hR

theorem throw {e e' : Error} (h : E e e') :
    Simulates E R Q (throw e : Action σ α) (throw e' : Action τ β) :=
  fun _ _ _ hR => .error h hR

theorem mono {a : Action σ α} {b : Action τ β} {Q₂ : α → β → Prop} (h : Simulates E R Q a b)
    (hE : ∀ e e', E e e' → E' e e') (hQ : ∀ a b, Q a b → Q₂ a b) : Simulates E' R Q₂ a b :=
  fun s t lines hR => (h s t lines hR).mono hE hQ

theorem bind {x : Action σ α} {x' : Action τ β} {f : α → Action σ α'} {f' : β → Action τ β'}
    (hx : Simulates E R Q x x') (hf : ∀ a b, Q a b → Simulates E R Q' (f a) (f' b)) :
    Simulates E R Q' (x >>= f) (x' >>= f') :=
  fun s t lines hR => (hx s t lines hR).bind hf

theorem ofExcept {x y : Except Error α} {Q : α → α → Prop} (h : AnswerAlike P Q x y) :
    Simulates (ErrorAlike P) R Q (Action.ofExcept x) (Action.ofExcept y) := by
  cases h with
  | ok hq => exact pure hq
  | error he => exact throw he

theorem skipInput {work : Action σ Outcome} {work' : Action τ Outcome}
    (h : Simulates (ErrorAlike P) R (OutcomeAlike P) work work') :
    Simulates (ErrorAlike P) R (OutcomeAlike P) (Action.skipInput work)
      (Action.skipInput work') := by
  intro s t lines hR
  have hw := h s t lines hR
  rw [Action.skipInput, Action.skipInput]
  generalize work ⟨s, lines⟩ = result at hw
  generalize work' ⟨t, lines⟩ = result' at hw
  cases hw with
  | ok ho hR => exact .ok ho hR
  | error he hR =>
    dsimp only
    rw [← he.isInput]
    split
    · exact .ok he.outcome hR
    · exact .error he hR
  | refused he =>
    dsimp only
    rw [he, if_neg Bool.false_ne_true]
    exact .refused he

theorem showDocument (title text : String) :
    Simulates E R Eq (Action.showDocument title text : Action σ Unit)
      (Action.showDocument title text : Action τ Unit) :=
  fun _ _ _ hR => .ok rfl hR

end Simulates

end

/-! ## Sets that correspond -/

variable {σ τ : Type} [DocumentStore σ] [DocumentStore τ] {R : σ → τ → Prop}
  {old : Document → Prop} {d : Document}

/-- Some documents are read and written alike on two sets, which correspond after that. -/
structure Mirrors (old : Document → Prop) (R : σ → τ → Prop) : Prop where
  read {s : σ} {t : τ} {d : Document} : R s t → old d →
    DocumentStore.read s d = DocumentStore.read t d
  write {s : σ} {t : τ} {d : Document} (text : String) : R s t → old d →
    ∃ answer s' t', DocumentStore.write s d text = (answer, s') ∧
      DocumentStore.write t d text = (answer, t') ∧ R s' t'

/-- Documents of some names can be added alike to two sets, which correspond after that, unless the
first set refuses. -/
def Extends (folders : List String) (fresh : String → Prop) (R : σ → τ → Prop) : Prop :=
  ∀ {s : σ} {t : τ} {name : String} (text : String), R s t → fresh name →
    (∃ e s', DocumentStore.add s name folders text = (.error e, s') ∧ e.isInput = false) ∨
      ∃ d d' s' t', DocumentStore.add s name folders text = (.ok d, s') ∧
        DocumentStore.add t name folders text = (.ok d', t') ∧ R s' t'

namespace Simulates

theorem readDocument (h : Mirrors old R) (hd : old d) :
    Simulates Eq R Eq (Action.readDocument d : Action σ String)
      (Action.readDocument d : Action τ String) := by
  intro s t lines hR
  have hread := h.read hR hd
  cases hr : DocumentStore.read s d with
  | ok text =>
    rw [Action.readDocument_of_ok hr, Action.readDocument_of_ok (hread.symm.trans hr)]
    exact .ok rfl hR
  | error e =>
    rw [Action.readDocument_of_error hr, Action.readDocument_of_error (hread.symm.trans hr)]
    exact .error rfl hR

theorem writeDocument (h : Mirrors old R) (hd : old d) (text : String) :
    Simulates Eq R Eq (Action.writeDocument d text : Action σ Unit)
      (Action.writeDocument d text : Action τ Unit) := by
  intro s t lines hR
  obtain ⟨answer, s', t', hs, ht, hR'⟩ := h.write text hR hd
  rw [Action.writeDocument, Action.writeDocument, Action.onDocs, Action.onDocs, hs, ht]
  cases answer with
  | ok u => exact .ok rfl hR'
  | error e => exact .error rfl hR'

theorem emit (h : Mirrors old R) (hd : old d) (trial : Bool) (text : String) :
    Simulates Eq R Eq (Action.emit trial d text : Action σ Outcome)
      (Action.emit trial d text : Action τ Outcome) := by
  cases trial with
  | true => exact (showDocument d.path text).bind fun _ _ _ => pure rfl
  | false => exact (writeDocument h hd text).bind fun _ _ _ => pure rfl

end Simulates

/-! ## Annotation runs -/

section

variable {c : Conventions} {r : DescribeRequest}

theorem describeDocument_simulates (h : Mirrors old R) (hd : old d) :
    Simulates Eq R Eq (describeDocument c r d : Action σ (Outcome × List String))
      (describeDocument c r d : Action τ (Outcome × List String)) := by
  refine (Simulates.readDocument h hd).bind ?_
  rintro text _ rfl
  dsimp only
  split
  · refine (Simulates.emit h hd r.trial _).bind ?_
    rintro outcome _ rfl
    exact .pure rfl
  · exact .pure rfl

theorem annotateSubject_simulates (h : Mirrors old R) (done : Annotating) {subject : Subject}
    (hd : old subject.document) :
    Simulates Eq R Eq (annotateSubject c r done subject : Action σ Annotating)
      (annotateSubject c r done subject : Action τ Annotating) := by
  intro s t lines hR
  have hm := describeDocument_simulates (c := c) (r := r) h hd s t lines hR
  rw [annotateSubject, annotateSubject]
  generalize describeDocument c r subject.document (⟨s, lines⟩ : Progress σ) = result at hm
  generalize describeDocument c r subject.document (⟨t, lines⟩ : Progress τ) = result' at hm
  cases hm with
  | ok heq hR =>
    obtain rfl := heq
    exact .ok rfl hR
  | error heq hR =>
    obtain rfl := heq
    dsimp only
    split
    · exact .ok rfl hR
    · exact .error rfl hR
  | refused he =>
    dsimp only
    rw [he, if_neg Bool.false_ne_true]
    exact .refused he

theorem annotateAll_simulates (h : Mirrors old R) {ss : List Subject}
    (hd : ∀ s ∈ ss, old s.document) (done : Annotating) :
    Simulates Eq R Eq (annotateAll c r ss done : Action σ Annotating)
      (annotateAll c r ss done : Action τ Annotating) := by
  induction ss generalizing done with
  | nil => exact .pure rfl
  | cons s ss ih =>
    obtain ⟨hs, hss⟩ := List.forall_mem_cons.1 hd
    refine (annotateSubject_simulates h done hs).bind ?_
    rintro done' _ rfl
    exact ih hss done'

end

section

variable {documents documents' : List Document}

/-- Changing the document of a name, which is found alike. -/
theorem updateNamed_simulates (h : Mirrors old R) (hs : SameDocuments P documents documents')
    {name : String} (hold : ∀ d, Document.single documents name = .ok d → old d) (trial : Bool)
    (change : String → Except Error Revision) :
    Simulates (ErrorAlike P) R (OutcomeAlike P)
      (updateNamed trial documents name change : Action σ Outcome)
      (updateNamed trial documents' name change : Action τ Outcome) := by
  refine (Simulates.ofExcept (hs.single name)).bind ?_
  rintro d _ ⟨rfl, hd⟩
  refine Simulates.bind (Q := Eq) ((Simulates.readDocument h (hold d hd)).mono .of_eq ?_) ?_
  · exact fun _ _ he => he
  rintro text _ rfl
  refine Simulates.bind (Q := Eq) (Simulates.ofExcept (.same _)) ?_
  rintro revision _ rfl
  split
  · exact (Simulates.emit h (hold d hd) trial _).mono .of_eq .of_eq
  · exact .pure (.refl _)

theorem reportUpdate_simulates (h : Mirrors old R) (hs : SameDocuments P documents documents')
    {name : String} (hold : ∀ d, Document.single documents name = .ok d → old d)
    (cause trial : Bool) (change : String → Except Error Revision) {report report' : Report}
    (hr : ReportAlike P report report') :
    Simulates (ErrorAlike P) R (ReportAlike P)
      (reportUpdate cause trial documents name change report : Action σ Report)
      (reportUpdate cause trial documents' name change report' : Action τ Report) := by
  rw [reportUpdate, reportUpdate]
  split
  · exact (updateNamed_simulates h hs hold trial change).skipInput.bind fun _ _ ho =>
      .pure (hr.record name ho)
  · exact .pure hr

end

theorem documents_bind {E : Error → Error → Prop} {Q : α → α → Prop}
    {f : List Document → Action σ α} {g : List Document → Action τ α} {p : Progress σ}
    {q : Progress τ} (h : Matches E R Q (f (DocumentStore.documents p.docs) p)
      (g (DocumentStore.documents q.docs) q)) :
    Matches E R Q ((Action.documents >>= f) p) ((Action.documents >>= g) q) := by
  rw [Action.bind_eq, Action.bind_eq]
  exact h

/-- Annotation runs on two sets that correspond end alike. -/
theorem annotateTypes_simulates (session : Session) (c : Conventions) (r : DescribeRequest)
    {s : σ} {t : τ} (h : Mirrors old R)
    (hs : SameDocuments P (DocumentStore.documents s) (DocumentStore.documents t))
    (hold : ∀ d ∈ DocumentStore.documents s, old d) (hR : R s t) :
    Matches (ErrorAlike P) R (ReportAlike P) (annotateTypes session c r ⟨s, []⟩)
      (annotateTypes session c r ⟨t, []⟩) := by
  rw [annotateTypes, annotateTypes]
  cases subjectNames ⟨session, c.discovery⟩ r with
  | error e => exact .error (.refl e) hR
  | ok names =>
    rw [Action.ofExcept_ok_bind, Action.ofExcept_ok_bind]
    refine documents_bind ?_
    have hplans := hs.plans ⟨session, c.discovery⟩ names
    have hin := targetsIn_plans ⟨session, c.discovery⟩ (DocumentStore.documents s) names
    have hsubjects := (documents_subjects hin).1
    have hsingle : ∀ name d, Document.single (DocumentStore.documents s) name = .ok d → old d :=
      fun name d hd => hold d (mem_of_single hd)
    dsimp only
    rw [← subjects_congr hplans, ← externals_congr hplans]
    refine ((annotateAll_simulates h (fun s hs => hold _ (hsubjects s hs)) _).mono .of_eq
      fun _ _ he => he) _ _ _ hR |>.bind ?_
    rintro done _ rfl
    refine Simulates.bind (reportUpdate_simulates h hs (hsingle _) _ _ _ ?_) fun _ _ hreport =>
      reportUpdate_simulates h hs (hsingle _) _ _ _ hreport
    rw [ReportAlike, List.forall₂_map_left_iff, List.forall₂_map_right_iff]
    exact hplans.imp fun p p' hp => ⟨hp.shown, hp.outcome done⟩

/-! ## Sample runs -/

section

variable {folders : List String} {fresh : String → Prop}

theorem completeSample_simulates (h : Mirrors old R) (hd : old d) (trial : Bool) (model : String)
    (fields : List Field) (y : Synthesizer) :
    Simulates Eq R Eq (completeSample trial d model fields y : Action σ Outcome)
      (completeSample trial d model fields y : Action τ Outcome) := by
  refine (Simulates.readDocument h hd).bind ?_
  rintro text _ rfl
  dsimp only
  split
  · exact .emit h hd trial _
  · exact .pure rfl

theorem createSample_simulates {t : Template} (h : Extends t.folders fresh R) {model : String}
    (hf : fresh (Template.fileName model)) (trial : Bool) (modelPath : String)
    (fields : List Field) (y : Synthesizer) :
    Simulates Eq R Eq (createSample trial t modelPath model fields y : Action σ Outcome)
      (createSample trial t modelPath model fields y : Action τ Outcome) := by
  cases trial with
  | true => exact (Simulates.showDocument _ _).bind fun _ _ _ => .pure rfl
  | false =>
    intro s t lines hR
    rw [createSample_eq, createSample_eq]
    rcases h (populate (Template.render _ modelPath) model fields y).1.after hR hf with
      ⟨e, s', hs, he⟩ | ⟨d, d', s', t', hs, ht, hR'⟩
    · rw [hs]
      exact .refused he
    · rw [hs, ht]
      exact .ok rfl hR'

variable {session : Session} {c : Conventions} {luck : String → Nat → Nat}
  {documents documents' : List Document}

/-- The models that have no document lack it in every list of the same documents. -/
theorem lacksSample_congr (h : documents.Perm documents') (model : String) :
    lacksSample documents model = lacksSample documents' model := by
  rw [Bool.eq_iff_iff, lacksSample_iff, lacksSample_iff]
  exact forall_congr' fun d => by rw [h.mem_iff]

theorem sampleModel_simulates (h : Mirrors old R) (he : Extends c.template.folders fresh R)
    (hs : SameDocuments P documents documents') {model : String}
    (hold : ∀ d, Document.single documents (Template.fileName model) = .ok d → old d)
    (hfresh : lacksSample documents model = true → fresh (Template.fileName model))
    (trial : Bool) (properties : List Property) :
    Simulates (ErrorAlike P) R (OutcomeAlike P)
      (sampleModel session c luck trial documents model properties : Action σ Outcome)
      (sampleModel session c luck trial documents' model properties : Action τ Outcome) := by
  rw [sampleModel, sampleModel]
  cases hl : lacksSample documents model with
  | true =>
    rw [single_of_lacksSample hl, single_of_lacksSample (lacksSample_congr hs.perm model ▸ hl)]
    exact (createSample_simulates he (hfresh hl) trial _ _ _).mono .of_eq .of_eq
  | false =>
    have halike := hs.single (Template.fileName model)
    rcases single_of_not_lacksSample hl with ⟨d, hd⟩ | ⟨ps, hd⟩
    · rw [hd] at halike
      obtain ⟨_, hd', rfl, -⟩ := halike.of_ok
      rw [hd, hd']
      exact (completeSample_simulates h (hold d hd) trial _ _ _).mono .of_eq .of_eq
    · rw [hd] at halike
      obtain ⟨e, hd', he⟩ := halike.of_error
      obtain ⟨qs, rfl⟩ := he.of_ambiguous
      rw [hd, hd']
      exact .throw he

theorem sampleAll_simulates (h : Mirrors old R) (he : Extends c.template.folders fresh R)
    (hs : SameDocuments P documents documents')
    (hold : ∀ model d, Document.single documents (Template.fileName model) = .ok d → old d)
    (hfresh : ∀ model, lacksSample documents model = true → fresh (Template.fileName model))
    (trial : Bool) (models : List (String × List Property)) {report report' : Report}
    (hr : ReportAlike P report report') :
    Simulates (ErrorAlike P) R (ReportAlike P)
      (sampleAll session c luck trial documents models report : Action σ Report)
      (sampleAll session c luck trial documents' models report' : Action τ Report) := by
  induction models generalizing report report' with
  | nil => exact .pure hr
  | cons m models ih =>
    obtain ⟨model, properties⟩ := m
    exact (sampleModel_simulates h he hs (hold model) (hfresh model) trial
      properties).skipInput.bind fun _ _ ho => ih (hr.record _ ho)

end

/-- Sample runs on two sets that correspond end alike. -/
theorem sampleTypes_simulates (session : Session) (c : Conventions) (luck : String → Nat → Nat)
    (r : ExampleRequest) {s : σ} {t : τ} {fresh : String → Prop} (h : Mirrors old R)
    (he : Extends c.template.folders fresh R)
    (hs : SameDocuments P (DocumentStore.documents s) (DocumentStore.documents t))
    (hold : ∀ model d, Document.single (DocumentStore.documents s) (Template.fileName model) =
      .ok d → old d)
    (hfresh : ∀ model, lacksSample (DocumentStore.documents s) model = true →
      fresh (Template.fileName model)) (hR : R s t) :
    Matches (ErrorAlike P) R (ReportAlike P) (sampleTypes session c luck r ⟨s, []⟩)
      (sampleTypes session c luck r ⟨t, []⟩) := by
  rw [sampleTypes, sampleTypes]
  cases sampleModels ⟨session, c.discovery⟩ r with
  | ok models =>
    exact documents_bind (sampleAll_simulates h he hs hold hfresh r.trial models .nil _ _ _ hR)
  | error e =>
    cases e with
    | typeNotFound name => exact .ok (.cons ⟨rfl, .refl _⟩ .nil) hR
    | _ => exact .error (.refl _) hR

end Docsmith.Run
