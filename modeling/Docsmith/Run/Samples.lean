import Docsmith.Conventions
import Docsmith.Example.Literal
import Docsmith.Run.Action

/-!
# Sample runs

Gives every response model a document with an example. A document that is there gets the fields its
example lacks.
-/

namespace Docsmith.Run

open Docsmith.Discovery Docsmith.Example Docsmith.Metadata

/-- What a sample run is asked for. -/
structure ExampleRequest where
  /-- The controller whose response models get examples. -/
  controller : Option String
  /-- The type that gets an example where no controller is named. -/
  type : Option String
  version : String
  /-- Documents are shown, not written. -/
  trial : Bool
  deriving DecidableEq, Repr

/-- The models a run is about, with their properties. -/
def sampleModels (c : Catalog) (r : ExampleRequest) :
    Except Error (List (String × List Property)) :=
  match named? r.controller, named? r.type with
  | some controller, _ => .ok (c.responseProperties controller r.version)
  | none, some type =>
    match c.session.find? type with
    | some d => .ok [(d.name, d.properties)]
    | none => .error (.typeNotFound type)
  | none, none => .error noTarget

def fieldOf (session : Session) (p : Property) : Field :=
  ⟨p.name, .ofType session p.type⟩

variable {σ : Type} [DocumentStore σ]

/-- Completes the example in a document. -/
def completeSample (trial : Bool) (d : Document) (model : String) (fields : List Field)
    (s : Synthesizer) : Action σ Outcome := do
  let (revision, _) := populate (← Action.readDocument d) model fields s
  if revision.differs then Action.emit trial d revision.after else return .unchanged

/-- Adds a document with an example. -/
def createSample (trial : Bool) (template : Template) (modelPath model : String)
    (fields : List Field) (s : Synthesizer) : Action σ Outcome :=
  let name := Template.fileName model
  let (revision, _) := populate (template.render modelPath) model fields s
  if trial then do
    Action.showDocument name revision.after
    return .printed
  else do
    let _ ← Action.addDocument name template.folders revision.after
    return .created

/-- Completes or adds the document of a model, which the documents there were at the start
decide. -/
def sampleModel (session : Session) (c : Conventions) (luck : String → Nat → Nat) (trial : Bool)
    (documents : List Document) (model : String) (properties : List Property) :
    Action σ Outcome :=
  let fields := properties.map (fieldOf session)
  let s : Synthesizer := .ofSeed c.seed c.descriptionsType (luck model)
  match Document.single documents (Template.fileName model) with
  | .ok d => completeSample trial d model fields s
  | .error (.documentNotFound _) =>
    createSample trial c.template (rootedPath model session.target) model fields s
  | .error e => throw e

def sampleAll (session : Session) (c : Conventions) (luck : String → Nat → Nat) (trial : Bool)
    (documents : List Document) : List (String × List Property) → Report → Action σ Report
  | [], report => pure report
  | (model, properties) :: rest, report => do
    let outcome ← Action.skipInput
      (sampleModel session c luck trial documents model properties)
    let shown := (Catalog.mk session c.discovery).shownName model false
    sampleAll session c luck trial documents rest (report.record shown outcome)

/-- Gives the models a request is about examples. `luck` picks members of enumerations, for each
model and use. -/
def sampleTypes (session : Session) (c : Conventions) (luck : String → Nat → Nat)
    (r : ExampleRequest) : Action σ Report :=
  match sampleModels ⟨session, c.discovery⟩ r with
  | .error (.typeNotFound name) =>
    pure (Report.empty.record (r.type.getD "")
      (.skipped (Error.typeNotFound name).message))
  | .error e => throw e
  | .ok models => do
    sampleAll session c luck r.trial (← Action.documents) models .empty

end Docsmith.Run
