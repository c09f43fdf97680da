import Docsmith.Proofs.Run.Attempts
import Docsmith.Run.Samples

/-!
# Errors that end runs

A run goes on after an error of the input, wherever it comes from: a name that is not there, a
document that several have the name of, a text without a place for what is added. Only the set of
documents can end it, with an error that is none of the input. No law is asked of the set here.

* `Reached`: the sets that writing and adding documents leads to;
* `Refused`: the set has answered an operation with an error;
* `Ends`: how a piece of work can end, with errors of the input or without;
* `runs_contain_errors`: a run fails when it is asked for nothing, or the set refuses.
-/

namespace Docsmith.Run

open Docsmith.Discovery Docsmith.Example Docsmith.Metadata Docsmith.Source

variable {σ : Type} [DocumentStore σ]

/-! ## Sets that refuse -/

/-- The sets of documents that writing and adding leads to. -/
inductive Reached (docs : σ) : σ → Prop
  | start : Reached docs docs
  | write {s : σ} (d : Document) (text : String) :
      Reached docs s → Reached docs (DocumentStore.write s d text).2
  | add {s : σ} (name : String) (folders : List String) (text : String) :
      Reached docs s → Reached docs (DocumentStore.add s name folders text).2

/-- The last operation on the set of documents was answered with an error. -/
inductive Refused (docs : σ) (e : Error) : Progress σ → Prop
  | read {p : Progress σ} (d : Document) : Reached docs p.docs →
      DocumentStore.read p.docs d = .error e → Refused docs e p
  | write {s s' : σ} {lines : List String} (d : Document) (text : String) : Reached docs s →
      DocumentStore.write s d text = (.error e, s') → Refused docs e ⟨s', lines⟩
  | add {s s' : σ} {lines : List String} (name : String) (folders : List String)
      (text : String) : Reached docs s →
      DocumentStore.add s name folders text = (.error e, s') → Refused docs e ⟨s', lines⟩

variable {docs : σ} {e : Error} {p : Progress σ}

theorem Refused.reached (h : Refused docs e p) : Reached docs p.docs := by
  cases h with
  | read d hs _ => exact hs
  | @write s s' lines d text hs hw =>
    have hr := hs.write d text
    rw [hw] at hr
    exact hr
  | @add s s' lines name folders text hs ha =>
    have hr := hs.add name folders text
    rw [ha] at hr
    exact hr

/-! ## Ends of work -/

/-- How work on a set of documents ends: well, with an error of the input where these may arise, or
because the set refuses. -/
inductive Ends (docs : σ) (inputs : Bool) {α : Type} : EStateM.Result Error (Progress σ) α → Prop
  | well {x : α} {p : Progress σ} : Reached docs p.docs → Ends docs inputs (.ok x p)
  | input {e : Error} {p : Progress σ} : inputs = true → e.isInput = true →
      Reached docs p.docs → Ends docs inputs (.error e p)
  | refused {e : Error} {p : Progress σ} : e.isInput = false → Refused docs e p →
      Ends docs inputs (.error e p)

namespace Ends

variable {inputs : Bool} {α β : Type}

theorem of_refused (h : Refused docs e p) :
    Ends docs true (.error e p : EStateM.Result Error (Progress σ) α) := by
  cases he : e.isInput with
  | true => exact .input rfl he h.reached
  | false => exact .refused he h

theorem pure (h : Reached docs p.docs) (x : α) :
    Ends docs inputs ((pure x : Action σ α) p) :=
  .well h

theorem bind {x : Action σ α} {f : α → Action σ β} (hx : Ends docs inputs (x p))
    (hf : ∀ y q, Reached docs q.docs → Ends docs inputs (f y q)) :
    Ends docs inputs ((x >>= f) p) := by
  rw [Action.bind_eq]
  generalize x p = result at hx
  cases hx with
  | well h => exact hf _ _ h
  | input hi he h => exact .input hi he h
  | refused he h => exact .refused he h

theorem ofExcept {x : Except Error α} (hx : ∀ e, x = .error e → e.isInput = true)
    (h : Reached docs p.docs) : Ends docs true (Action.ofExcept x p) := by
  cases x with
  | ok a => exact .well h
  | error e => exact .input rfl (hx e rfl) h

theorem readDocument (h : Reached docs p.docs) (d : Document) :
    Ends docs true (Action.readDocument d p) := by
  cases hr : DocumentStore.read p.docs d with
  | ok text =>
    rw [Action.readDocument_of_ok hr]
    exact .well h
  | error e =>
    rw [Action.readDocument_of_error hr]
    exact of_refused (.read d h hr)

theorem writeDocument (h : Reached docs p.docs) (d : Document) (text : String) :
    Ends docs true (Action.writeDocument d text p) := by
  rw [Action.writeDocument, Action.onDocs]
  cases hw : DocumentStore.write p.docs d text with
  | mk answer s =>
    cases answer with
    | ok u =>
      have hs := h.write d text
      rw [hw] at hs
      exact .well hs
    | error e => exact of_refused (.write d text h hw)

theorem addDocument (h : Reached docs p.docs) (name : String) (folders : List String)
    (text : String) : Ends docs true (Action.addDocument name folders text p) := by
  rw [Action.addDocument, Action.onDocs]
  cases ha : DocumentStore.add p.docs name folders text with
  | mk answer s =>
    cases answer with
    | ok d =>
      have hs := h.add name folders text
      rw [ha] at hs
      exact .well hs
    | error e => exact of_refused (.add name folders text h ha)

theorem emit (h : Reached docs p.docs) (trial : Bool) (d : Document) (text : String) :
    Ends docs true (Action.emit trial d text p) := by
  cases trial with
  | true => exact .well h
  | false =>
    rw [Action.emit, if_neg Bool.false_ne_true]
    exact (writeDocument h d text).bind fun _ q hq => .pure hq _

/-- Work that may be skipped ends without an error of the input. -/
theorem skipInput {work : Action σ Outcome} (h : Ends docs true (work p)) :
    Ends docs false (Action.skipInput work p) := by
  rw [Action.skipInput]
  generalize work p = result at h
  cases h with
  | well h => exact .well h
  | input _ he h =>
    dsimp only
    rw [if_pos he]
    exact .well h
  | refused he h =>
    dsimp only
    rw [if_neg (by rw [he]; exact Bool.false_ne_true)]
    exact .refused he h

end Ends

/-! ## Annotation runs -/

section

variable {c : Conventions} {r : DescribeRequest}

theorem ends_describeDocument (h : Reached docs p.docs) (d : Document) :
    Ends docs true (describeDocument c r d p) := by
  rw [describeDocument]
  refine (Ends.readDocument h d).bind fun text q hq => ?_
  dsimp only
  split
  · exact (Ends.emit hq _ _ _).bind fun o q hq => .pure hq _
  · exact .pure hq _

theorem ends_annotateSubject (h : Reached docs p.docs) (done : Annotating) (s : Subject) :
    Ends docs false (annotateSubject c r done s p) := by
  have hd := ends_describeDocument (c := c) (r := r) h s.document
  rw [annotateSubject]
  generalize describeDocument c r s.document p = result at hd
  cases hd with
  | well h => exact .well h
  | input _ he h =>
    dsimp only
    rw [if_pos he]
    exact .well h
  | refused he h =>
    dsimp only
    rw [if_neg (by rw [he]; exact Bool.false_ne_true)]
    exact .refused he h

theorem ends_annotateAll (h : Reached docs p.docs) (ss : List Subject) (done : Annotating) :
    Ends docs false (annotateAll c r ss done p) := by
  induction ss generalizing done p with
  | nil => exact .pure h _
  | cons s ss ih =>
    rw [annotateAll]
    exact (ends_annotateSubject h done s).bind fun done' q hq => ih hq done'

end

theorem ends_updateNamed {change : String → Except Error Revision} (hc : Local change)
    (h : Reached docs p.docs) (trial : Bool) (documents : List Document) (name : String) :
    Ends docs true (updateNamed trial documents name change p) := by
  rw [updateNamed]
  refine (Ends.ofExcept (fun _ => isInput_of_single) h).bind fun d q hq => ?_
  refine (Ends.readDocument hq d).bind fun text q hq => ?_
  refine (Ends.ofExcept (hc text) hq).bind fun revision q hq => ?_
  split
  · exact .emit hq _ _ _
  · exact .pure hq _

theorem ends_reportUpdate {change : String → Except Error Revision} (hc : Local change)
    (h : Reached docs p.docs) (cause trial : Bool) (documents : List Document) (name : String)
    (report : Report) :
    Ends docs false (reportUpdate cause trial documents name change report p) := by
  rw [reportUpdate]
  split
  · exact (ends_updateNamed hc h trial documents name).skipInput.bind fun _ q hq => .pure hq _
  · exact .pure h _

/-- A request for an annotation run says what it is about if and only if it has a target. -/
theorem subjectNames_eq_error {catalog : Catalog} {r : DescribeRequest} :
    subjectNames catalog r = .error e ↔
      (named? r.controller = none ∧ named? r.type = none) ∧ e = noTarget := by
  rw [subjectNames]
  cases named? r.controller <;> cases named? r.type <;> simp [eq_comm]

theorem ends_annotateTypes {session : Session} {c : Conventions} {r : DescribeRequest}
    {names : List String} (hn : subjectNames ⟨session, c.discovery⟩ r = .ok names)
    (h : Reached docs p.docs) : Ends docs false (annotateTypes session c r p) := by
  rw [annotateTypes, hn]
  refine (Ends.pure h names).bind fun names q hq => ?_
  refine Ends.bind (.well hq) fun documents q hq => ?_
  refine (ends_annotateAll hq _ _).bind fun done q hq => ?_
  refine (ends_reportUpdate (local_declareIn _ _) hq _ _ _ _ _).bind fun report q hq => ?_
  exact ends_reportUpdate (local_registerTypes _ _) hq _ _ _ _ _

/-! ## Sample runs -/

theorem ends_completeSample (h : Reached docs p.docs) (trial : Bool) (d : Document)
    (model : String) (fields : List Field) (s : Synthesizer) :
    Ends docs true (completeSample trial d model fields s p) := by
  rw [completeSample]
  refine (Ends.readDocument h d).bind fun text q hq => ?_
  dsimp only
  split
  · exact .emit hq _ _ _
  · exact .pure hq _

theorem ends_createSample (h : Reached docs p.docs) (trial : Bool) (template : Template)
    (modelPath model : String) (fields : List Field) (s : Synthesizer) :
    Ends docs true (createSample trial template modelPath model fields s p) := by
  rw [createSample]
  dsimp only
  split
  · exact .well h
  · exact (Ends.addDocument h _ _ _).bind fun _ q hq => .pure hq _

section

variable {session : Session} {c : Conventions} {luck : String → Nat → Nat} {trial : Bool}
  {documents : List Document}

theorem ends_sampleModel (h : Reached docs p.docs) (model : String)
    (properties : List Property) :
    Ends docs true (sampleModel session c luck trial documents model properties p) := by
  rw [sampleModel]
  cases hd : Document.single documents (Template.fileName model) with
  | ok d => exact ends_completeSample h _ _ _ _ _
  | error e =>
    have he := isInput_of_single hd
    cases e with
    | documentNotFound name => exact ends_createSample h _ _ _ _ _ _
    | _ => exact .input rfl he h

theorem ends_sampleAll (h : Reached docs p.docs) (models : List (String × List Property))
    (report : Report) :
    Ends docs false (sampleAll session c luck trial documents models report p) := by
  induction models generalizing report p with
  | nil => exact .pure h _
  | cons m models ih =>
    obtain ⟨model, properties⟩ := m
    rw [sampleAll]
    exact (ends_sampleModel h model properties).skipInput.bind fun outcome q hq => ih hq _

end

/-- What keeps the models of a sample run from being told. -/
theorem sampleModels_eq_error {catalog : Catalog} {r : ExampleRequest}
    (h : sampleModels catalog r = .error e) :
    (∃ name, e = .typeNotFound name) ∨
      (named? r.controller = none ∧ named? r.type = none) ∧ e = noTarget := by
  rw [sampleModels] at h
  cases hc : named? r.controller with
  | some controller =>
    rw [hc] at h
    cases h
  | none =>
    cases ht : named? r.type with
    | some type =>
      rw [hc, ht] at h
      dsimp only at h
      split at h
      · cases h
      · cases h
        exact .inl ⟨type, rfl⟩
    | none =>
      rw [hc, ht] at h
      cases h
      exact .inr ⟨⟨rfl, rfl⟩, rfl⟩

theorem ends_sampleTypes {session : Session} {c : Conventions} {luck : String → Nat → Nat}
    {r : ExampleRequest} (ht : named? r.controller ≠ none ∨ named? r.type ≠ none)
    (h : Reached docs p.docs) : Ends docs false (sampleTypes session c luck r p) := by
  rw [sampleTypes]
  cases hm : sampleModels ⟨session, c.discovery⟩ r with
  | ok models => exact Ends.bind (.well h) fun documents q hq => ends_sampleAll hq _ _
  | error e =>
    rcases sampleModels_eq_error hm with ⟨name, rfl⟩ | ⟨⟨hc, hty⟩, -⟩
    · exact .pure h _
    · exact absurd hty (ht.resolve_left fun h => h hc)

/-! ## Both runs -/

/-- Why a run for a controller or a type fails: it is asked for neither, and then leaves all as it
is; or the set of documents refuses. -/
inductive Failure (docs : σ) (controller type : Option String) : Error → Progress σ → Prop
  | noTarget : named? controller = none → named? type = none →
      Failure docs controller type noTarget ⟨docs, []⟩
  | refused {e : Error} {p : Progress σ} : e.isInput = false → Refused docs e p →
      Failure docs controller type e p

/-- A run asked for nothing does nothing, and no error of the input ends another. -/
structure ContainsErrors (work : Action σ Report) (controller type : Option String) : Prop where
  throws : named? controller = none → named? type = none → work = throw noTarget
  failure {docs : σ} {e : Error} {final : Progress σ} : work.run docs = (.error e, final) →
    Failure docs controller type e final

theorem containsErrors_of_ends {work : Action σ Report} {controller type : Option String}
    (hn : named? controller = none → named? type = none → work = throw noTarget)
    (ht : named? controller ≠ none ∨ named? type ≠ none →
      ∀ docs, Ends docs false (work ⟨docs, []⟩)) : ContainsErrors work controller type := by
  refine ⟨hn, fun {docs e final} h => ?_⟩
  by_cases hnone : named? controller = none ∧ named? type = none
  · rw [hn hnone.1 hnone.2] at h
    cases h
    exact .noTarget hnone.1 hnone.2
  · have hends := ht (Decidable.not_and_iff_or_not.1 hnone) docs
    rw [Action.run] at h
    generalize work ⟨docs, []⟩ = result at h hends
    cases hends with
    | well _ => cases h
    | input hi _ _ => cases hi
    | refused he hr =>
      cases h
      exact .refused he hr

theorem annotateTypes_contains (session : Session) (c : Conventions) (r : DescribeRequest) :
    ContainsErrors (annotateTypes session c r : Action σ Report) r.controller r.type := by
  refine containsErrors_of_ends (fun hc ht => ?_) fun ht docs => ?_
  · rw [annotateTypes, subjectNames_eq_error.2 ⟨⟨hc, ht⟩, rfl⟩]
    rfl
  · cases hn : subjectNames ⟨session, c.discovery⟩ r with
    | ok names => exact ends_annotateTypes hn .start
    | error e =>
      obtain ⟨⟨hc, hty⟩, -⟩ := subjectNames_eq_error.1 hn
      exact absurd hty (ht.resolve_left fun h => h hc)

theorem sampleTypes_contains (session : Session) (c : Conventions) (luck : String → Nat → Nat)
    (r : ExampleRequest) :
    ContainsErrors (sampleTypes session c luck r : Action σ Report) r.controller r.type := by
  refine containsErrors_of_ends (fun hc ht => ?_) fun ht docs => ends_sampleTypes ht .start
  rw [sampleTypes, sampleModels, hc, ht]
  rfl

/-- A set in memory refuses a document it does not hold, which is an error of the input. -/
theorem Refused.isInput_of_memory {m : Memory} {p : Progress Memory} (h : Refused m e p) :
    e.isInput = true := by
  cases h with
  | read d _ hr =>
    have hr : p.docs.read d = .error e := hr
    rw [Memory.read] at hr
    split at hr
    · cases hr
    · cases hr
      rfl
  | @write s _ _ d text _ hw =>
    have hw : s.write d text = _ := hw
    rw [Memory.write] at hw
    split at hw
    · cases hw
    · cases hw
      rfl
  | add name folders text _ ha =>
    obtain ⟨hok, -⟩ := Prod.mk.inj ha
    cases hok

/-- In memory, a run for a controller or a type gives a report. -/
theorem ContainsErrors.ok_of_memory {work : Action Memory Report}
    {controller type : Option String} (h : ContainsErrors work controller type)
    (ht : named? controller ≠ none ∨ named? type ≠ none) (m : Memory) :
    ∃ report final, work.run m = (.ok report, final) := by
  cases hr : work.run m with
  | mk answer final =>
    cases answer with
    | ok report => exact ⟨report, final, rfl⟩
    | error e =>
      cases h.failure hr with
      | noTarget hc hty => exact absurd hty (ht.resolve_left fun h => h hc)
      | refused he hr => exact absurd hr.isInput_of_memory (by rw [he]; exact Bool.false_ne_true)

/-- In memory, a run fails with an error of the input only. -/
theorem ContainsErrors.isInput_of_memory {work : Action Memory Report}
    {controller type : Option String} (h : ContainsErrors work controller type) (m : Memory)
    (e : Error) (he : (work.run m).1 = .error e) : e.isInput = true := by
  have hr : work.run m = (.error e, (work.run m).2) := Prod.ext he rfl
  generalize (work.run m).2 = final at hr
  cases h.failure hr with
  | noTarget => rfl
  | refused _ hr => exact hr.isInput_of_memory

/-- A run fails only when it is asked for neither a controller nor a type, and does nothing then, or
when an operation of the set of documents is answered with an error that is none of the input. In
memory, every run that is asked for something gives a report. -/
theorem runs_contain_errors (session : Session) (c : Conventions) (luck : String → Nat → Nat)
    (describe : DescribeRequest) (sample : ExampleRequest) :
    ContainsErrors (annotateTypes session c describe : Action σ Report)
      describe.controller describe.type ∧
    ContainsErrors (sampleTypes session c luck sample : Action σ Report)
      sample.controller sample.type ∧
    ∀ m : Memory,
      (named? describe.controller ≠ none ∨ named? describe.type ≠ none →
        ∃ report final, (annotateTypes session c describe).run m = (.ok report, final)) ∧
      (named? sample.controller ≠ none ∨ named? sample.type ≠ none →
        ∃ report final, (sampleTypes session c luck sample).run m = (.ok report, final)) :=
  ⟨annotateTypes_contains session c describe, sampleTypes_contains session c luck sample,
    fun m => ⟨fun ht => (annotateTypes_contains session c describe).ok_of_memory ht m,
      fun ht => (sampleTypes_contains session c luck sample).ok_of_memory ht m⟩⟩

end Docsmith.Run
