import Docsmith.Conventions
import Docsmith.Description.Regions
import Docsmith.Run.Action
import Docsmith.Source.Imports
import Docsmith.Source.Registry

/-!
# Annotation runs

Gives the documents of some types description attributes, each document once, and declares the
constants these name. A type without a document has its own constants declared and is registered
instead.
-/

namespace Docsmith.Run

open Docsmith.Description Docsmith.Discovery Docsmith.Metadata Docsmith.Naming Docsmith.Source

/-- What an annotation run is asked for. -/
structure DescribeRequest where
  /-- The controller whose models are annotated. -/
  controller : Option String
  /-- The type to annotate where no controller is named. -/
  type : Option String
  version : String
  /-- What every changed document imports. -/
  imports : List String
  /-- Documents are shown, not written. -/
  trial : Bool
  deriving DecidableEq, Repr

/-- The types a run is about: a controller with its models, or one type. -/
def subjectNames (c : Catalog) (r : DescribeRequest) : Except Error (List String) :=
  match named? r.controller, named? r.type with
  | some controller, _ => .ok (c.modelNames controller true r.version true)
  | none, some type => .ok [((c.session.find? type).map (·.name)).getD type]
  | none, none => .error noTarget

/-! ## Plans -/

/-- Where a type is to be described. -/
inductive Target where
  | nowhere
  | sole (d : Document)
  | several (ds : List Document)
  deriving DecidableEq, Repr

def Target.ofMatches : List Document → Target
  | [] => nowhere
  | [d] => sole d
  | ds => several ds

/-- A type, as it is named and shown, with the place where it is described. -/
structure Planned where
  name : String
  shown : String
  target : Target
  deriving DecidableEq, Repr

def plan (c : Catalog) (documents : List Document) (name : String) : Planned :=
  let shown := c.shownName name false
  ⟨name, shown, .ofMatches (Document.matching documents shown)⟩

def Target.skipReason? : Target → Option String
  | nowhere => some "no matching document"
  | sole _ => none
  | several ds => some ("more than one matching document: " ++ ", ".intercalate (ds.map (·.path)))

/-- The types without a document that have properties, each with the constants for them. -/
def externals (c : Catalog) (plans : List Planned) : List (Planned × List String) :=
  plans.filterMap fun p =>
    let constants := c.propertyConstants p.name
    if p.target = .nowhere && !constants.isEmpty then some (p, constants) else none

/-- A document and the types it is the only place for, in the order they were asked for. -/
structure Subject where
  document : Document
  shown : List String
  deriving DecidableEq, Repr

/-- Adds a type to the subject of its document. -/
def addSubject (d : Document) (shown : String) (subjects : Table (List String) Subject) :
    Table (List String) Subject :=
  subjects.update d.key fun s =>
    ⟨(s.map (·.document)).getD d, ((s.map (·.shown)).getD []) ++ [shown]⟩

/-- The documents that are the only place for some type. -/
def subjects (plans : List Planned) : List Subject :=
  let add (t : Table (List String) Subject) (p : Planned) : Table (List String) Subject :=
    match p.target with
    | .sole d => addSubject d p.shown t
    | _ => t
  (plans.foldl add .empty).values

/-! ## Changes of documents -/

variable {σ : Type} [DocumentStore σ]

/-- What annotating documents has led to. -/
structure Annotating where
  /-- The outcomes of types, by the names they are shown with. -/
  outcomes : Table String Outcome
  constants : Regions

/-- Annotates a document, and answers the constants of its new attributes. -/
def describeDocument (c : Conventions) (r : DescribeRequest) (d : Document) :
    Action σ (Outcome × List String) := do
  let text ← Action.readDocument d
  let annotated := annotate (c.annotator d.holdsController) text
  if annotated.revision.differs then
    let text := (addImports annotated.revision.after r.imports).after
    return (← Action.emit r.trial d text, annotated.constants)
  else return (.unchanged, annotated.constants)

/-- Annotates the document of a subject for all of its types. -/
def annotateSubject (c : Conventions) (r : DescribeRequest) (done : Annotating) (s : Subject) :
    Action σ Annotating := fun p =>
  let outcomes (o : Outcome) : Table String Outcome :=
    s.shown.foldl (fun t shown => t.put shown o) done.outcomes
  match describeDocument c r s.document p with
  | .ok (outcome, constants) p =>
    let region := shortName (s.shown.headD "")
    let found :=
      if constants.isEmpty then done.constants else done.constants.record region constants
    .ok ⟨outcomes outcome, found⟩ p
  | .error e p =>
    if e.isInput then .ok { done with outcomes := outcomes (.skipped e.message) } p
    else .error e p

def annotateAll (c : Conventions) (r : DescribeRequest) : List Subject → Annotating →
    Action σ Annotating
  | [], done => pure done
  | s :: rest, done => do annotateAll c r rest (← annotateSubject c r done s)

/-- Changes the only document of a name. -/
def updateNamed (trial : Bool) (documents : List Document) (name : String)
    (change : String → Except Error Revision) : Action σ Outcome := do
  let d ← Action.ofExcept (Document.single documents name)
  let revision ← Action.ofExcept (change (← Action.readDocument d))
  if revision.differs then Action.emit trial d revision.after else return .unchanged

/-- Changes the only document of a name if there is cause to, and reports it. -/
def reportUpdate (cause trial : Bool) (documents : List Document) (name : String)
    (change : String → Except Error Revision) (report : Report) : Action σ Report :=
  if cause then do
    return report.record name
      (← Action.skipInput (updateNamed trial documents name change))
  else pure report

/-- The outcome of a type: that of its document, or the reason it was left out. -/
def outcomeOf (done : Annotating) (p : Planned) : Outcome :=
  match p.target.skipReason? with
  | some reason => .skipped reason
  | none => (done.outcomes.find? p.shown).getD .unchanged

/-- Annotates the documents of the types a request is about. -/
def annotateTypes (session : Session) (c : Conventions) (r : DescribeRequest) :
    Action σ Report := do
  let catalog : Catalog := ⟨session, c.discovery⟩
  let names ← Action.ofExcept (subjectNames catalog r)
  let documents ← Action.documents
  let plans := names.map (plan catalog documents)
  let outside := externals catalog plans
  let recorded := outside.foldl (fun regions e => regions.record e.1.shown e.2) Regions.empty
  let done ← annotateAll c r (subjects plans) ⟨.empty, recorded⟩
  let report : Report := ⟨plans.map fun p => ⟨p.shown, outcomeOf done p⟩⟩
  let report ← reportUpdate (!done.constants.isEmpty) r.trial documents c.descriptionsDocument
    (fun text => done.constants.declareIn text c.descriptionsType) report
  reportUpdate (!outside.isEmpty) r.trial documents c.registryDocument
    (fun text => registerTypes text c.registryVariable
      (outside.map fun e => rootedPath e.1.name session.target)) report

end Docsmith.Run
