import Docsmith.Proofs.Run.Action
import Docsmith.Run.Annotations
import Docsmith.Run.Samples

/-!
# What runs touch

A trial shows documents and changes none. Any other run changes documents and shows nothing. Both
hold of every step, so of a run that ends in an error as well: what it has done before is all it has
done. Nothing is asked of the set of documents.

* `Discreet`: what a step of a run leaves alone;
* `runs_discreet`: a trial leaves the set of documents as it is, and a run that writes shows no
  line.
-/

namespace Docsmith.Run

open Docsmith.Discovery Docsmith.Example Docsmith.Metadata Docsmith.Source

/-! ## Steps -/

/-- What a step of a trial leaves alone are the documents, what a step of another run leaves alone
are the lines shown so far. -/
structure Discreet {σ : Type} (trial : Bool) (p q : Progress σ) : Prop where
  docs : trial = true → q.docs = p.docs
  lines : trial = false → q.lines = p.lines

namespace Discreet

variable {σ : Type} {trial : Bool} {p q r : Progress σ}

theorem refl (trial : Bool) (p : Progress σ) : Discreet trial p p :=
  ⟨fun _ => rfl, fun _ => rfl⟩

theorem trans (h : Discreet trial p q) (h' : Discreet trial q r) : Discreet trial p r :=
  ⟨fun ht => (h'.docs ht).trans (h.docs ht), fun ht => (h'.lines ht).trans (h.lines ht)⟩

end Discreet

namespace Action

/-- Where an action stops, well or with an error. -/
def stop {σ α : Type} : EStateM.Result Error (Progress σ) α → Progress σ
  | .ok _ p => p
  | .error _ p => p

theorem run_snd {σ α : Type} (a : Action σ α) (docs : σ) :
    (a.run docs).2 = stop (a ⟨docs, []⟩) := by
  rw [run]
  cases a ⟨docs, []⟩ <;> rfl

/-- An action that is discreet wherever it starts. -/
def IsDiscreet {σ α : Type} (trial : Bool) (a : Action σ α) : Prop :=
  ∀ p, Discreet trial p (stop (a p))

namespace IsDiscreet

section

variable {σ α β : Type} {trial : Bool}

theorem pure (x : α) : IsDiscreet trial (pure x : Action σ α) :=
  fun p => .refl trial p

theorem throw (e : Error) : IsDiscreet trial (throw e : Action σ α) :=
  fun p => .refl trial p

theorem bind {x : Action σ α} {f : α → Action σ β} (hx : IsDiscreet trial x)
    (hf : ∀ a, IsDiscreet trial (f a)) : IsDiscreet trial (x >>= f) := by
  intro p
  have h := hx p
  rw [bind_eq]
  cases hxp : x p with
  | ok a q =>
    rw [hxp] at h
    exact h.trans (hf a q)
  | error e q =>
    rw [hxp] at h
    exact h

theorem ofExcept (x : Except Error α) : IsDiscreet trial (ofExcept x : Action σ α) := by
  cases x with
  | ok a => exact .pure a
  | error e => exact .throw e

theorem skipInput {work : Action σ Outcome} (h : IsDiscreet trial work) :
    IsDiscreet trial (skipInput work) := by
  intro p
  have hp := h p
  cases hw : work p with
  | ok o q =>
    rw [hw] at hp
    rw [skipInput_of_ok hw]
    exact hp
  | error e q =>
    rw [hw] at hp
    rw [skipInput_of_error hw]
    split <;> exact hp

/-- An action that does not touch the lines is discreet in a run that writes. -/
theorem onDocs {α : Type} (f : σ → Except Error α × σ) : IsDiscreet false (onDocs f) := by
  intro p
  refine ⟨nofun, fun _ => ?_⟩
  rw [Action.onDocs]
  split <;> rfl

end

theorem showDocument {σ : Type} (title text : String) :
    IsDiscreet true (showDocument title text : Action σ Unit) :=
  fun _ => ⟨fun _ => rfl, nofun⟩

variable {σ : Type} [DocumentStore σ]

theorem documents (trial : Bool) : IsDiscreet trial (documents : Action σ (List Document)) :=
  fun p => .refl trial p

theorem readDocument (trial : Bool) (d : Document) :
    IsDiscreet trial (readDocument d : Action σ String) := by
  intro p
  cases hr : DocumentStore.read p.docs d with
  | ok text =>
    rw [readDocument_of_ok hr]
    exact .refl trial p
  | error e =>
    rw [readDocument_of_error hr]
    exact .refl trial p

theorem emit (trial : Bool) (d : Document) (text : String) :
    IsDiscreet trial (emit trial d text : Action σ Outcome) := by
  cases trial with
  | true => exact (showDocument d.path text).bind fun _ => .pure _
  | false => exact (onDocs _).bind fun _ => .pure _

end IsDiscreet

end Action

/-! ## Annotation runs -/

section

open Docsmith.Run.Action

variable {σ : Type} [DocumentStore σ]

theorem describeDocument_discreet (c : Conventions) (r : DescribeRequest) (d : Document) :
    IsDiscreet r.trial (describeDocument c r d : Action σ (Outcome × List String)) := by
  refine (IsDiscreet.readDocument r.trial d).bind fun text => ?_
  dsimp only
  split
  · exact (IsDiscreet.emit r.trial d _).bind fun _ => .pure _
  · exact .pure _

theorem annotateSubject_discreet (c : Conventions) (r : DescribeRequest) (done : Annotating)
    (s : Subject) : IsDiscreet r.trial (annotateSubject c r done s : Action σ Annotating) := by
  intro p
  have h := describeDocument_discreet c r s.document p
  rw [annotateSubject]
  cases hd : describeDocument c r s.document p with
  | ok answer q =>
    rw [hd] at h
    exact h
  | error e q =>
    rw [hd] at h
    dsimp only
    split <;> exact h

theorem annotateAll_discreet (c : Conventions) (r : DescribeRequest) (ss : List Subject)
    (done : Annotating) : IsDiscreet r.trial (annotateAll c r ss done : Action σ Annotating) := by
  induction ss generalizing done with
  | nil => exact .pure done
  | cons s ss ih => exact (annotateSubject_discreet c r done s).bind fun done' => ih done'

theorem updateNamed_discreet (trial : Bool) (documents : List Document) (name : String)
    (change : String → Except Error Revision) :
    IsDiscreet trial (updateNamed trial documents name change : Action σ Outcome) := by
  refine (IsDiscreet.ofExcept _).bind fun d => (IsDiscreet.readDocument trial d).bind fun text =>
    (IsDiscreet.ofExcept _).bind fun revision => ?_
  split
  · exact .emit trial d _
  · exact .pure _

theorem reportUpdate_discreet (cause trial : Bool) (documents : List Document) (name : String)
    (change : String → Except Error Revision) (report : Report) :
    IsDiscreet trial
      (reportUpdate cause trial documents name change report : Action σ Report) := by
  rw [reportUpdate]
  split
  · exact (updateNamed_discreet trial documents name change).skipInput.bind fun _ => .pure _
  · exact .pure report

theorem annotateTypes_discreet (session : Session) (c : Conventions) (r : DescribeRequest) :
    IsDiscreet r.trial (annotateTypes session c r : Action σ Report) := by
  refine (IsDiscreet.ofExcept _).bind fun names => (IsDiscreet.documents _).bind fun documents => ?_
  exact (annotateAll_discreet c r _ _).bind fun done =>
    (reportUpdate_discreet _ r.trial _ _ _ _).bind fun report =>
      reportUpdate_discreet _ r.trial _ _ _ report

/-! ## Sample runs -/

theorem completeSample_discreet (trial : Bool) (d : Document) (model : String)
    (fields : List Field) (s : Synthesizer) :
    IsDiscreet trial (completeSample trial d model fields s : Action σ Outcome) := by
  refine (IsDiscreet.readDocument trial d).bind fun text => ?_
  dsimp only
  split
  · exact .emit trial d _
  · exact .pure _

theorem createSample_discreet (trial : Bool) (template : Template) (modelPath model : String)
    (fields : List Field) (s : Synthesizer) :
    IsDiscreet trial
      (createSample trial template modelPath model fields s : Action σ Outcome) := by
  cases trial with
  | true => exact (IsDiscreet.showDocument _ _).bind fun _ => .pure _
  | false => exact (IsDiscreet.onDocs _).bind fun _ => .pure _

variable (session : Session) (c : Conventions) (luck : String → Nat → Nat)

theorem sampleModel_discreet (trial : Bool) (documents : List Document) (model : String)
    (properties : List Property) :
    IsDiscreet trial
      (sampleModel session c luck trial documents model properties : Action σ Outcome) := by
  rw [sampleModel]
  split
  · exact completeSample_discreet trial _ _ _ _
  · exact createSample_discreet trial _ _ _ _ _
  · exact .throw _

theorem sampleAll_discreet (trial : Bool) (documents : List Document)
    (models : List (String × List Property)) (report : Report) :
    IsDiscreet trial
      (sampleAll session c luck trial documents models report : Action σ Report) := by
  induction models generalizing report with
  | nil => exact .pure report
  | cons m models ih =>
    exact (sampleModel_discreet session c luck trial documents m.1 m.2).skipInput.bind
      fun outcome => ih _

theorem sampleTypes_discreet (r : ExampleRequest) :
    IsDiscreet r.trial (sampleTypes session c luck r : Action σ Report) := by
  rw [sampleTypes]
  split
  · exact .pure _
  · exact .throw _
  · exact (IsDiscreet.documents _).bind fun documents =>
      sampleAll_discreet session c luck r.trial documents _ _

/-- A trial, of annotations or of samples, leaves the set of documents as it is. A run that is no
trial shows nothing. Both hold where the run ends in an error, too. -/
theorem runs_discreet (describe : DescribeRequest) (sample : ExampleRequest) (docs : σ) :
    ((annotateTypes session c { describe with trial := true }).run docs).2.docs = docs ∧
    ((annotateTypes session c { describe with trial := false }).run docs).2.lines = [] ∧
    ((sampleTypes session c luck { sample with trial := true }).run docs).2.docs = docs ∧
    ((sampleTypes session c luck { sample with trial := false }).run docs).2.lines = [] := by
  simp only [run_snd]
  exact ⟨(annotateTypes_discreet session c { describe with trial := true } _).docs rfl,
    (annotateTypes_discreet session c { describe with trial := false } _).lines rfl,
    (sampleTypes_discreet session c luck { sample with trial := true } _).docs rfl,
    (sampleTypes_discreet session c luck { sample with trial := false } _).lines rfl⟩

end

end Docsmith.Run
