import Docsmith.Data.Table
import Docsmith.Discovery.Leaves

/-!
# Controllers and their models

A controller is a type whose base has a certain short name. Its models are the leaves of what its
actions answer with on success, followed by those of what they take.
-/

namespace Docsmith.Discovery

open Docsmith.Metadata Docsmith.Naming Docsmith.Text

/-- How controllers are recognised, and whose types are owned. -/
structure CatalogConventions where
  /-- The short name of the base of every controller. -/
  controllerBase : String
  /-- The short name of the attribute that declares a response. -/
  responseAttribute : String
  /-- How the names of owned modules start, besides the target. -/
  families : List String
  deriving DecidableEq, Repr

def CatalogConventions.standard : CatalogConventions := ⟨"ControllerBase", "response", []⟩

/-- The types of a session, seen by conventions. -/
structure Catalog where
  session : Session
  conventions : CatalogConventions

/-- A controller and its models, as they are shown. -/
structure Closure where
  controller : String
  models : List String
  deriving DecidableEq, Repr

def Closure.all (c : Closure) : List String := c.controller :: c.models

namespace Catalog

def ownership (c : Catalog) : Ownership := ⟨c.session.target, c.conventions.families⟩

/-! ## Controllers -/

/-- Two bases of one short name are not told apart. -/
def isControllerType (c : Catalog) (d : DescribedType) : Bool :=
  (d.base.bind (·.shortName?)).any (· = c.conventions.controllerBase)

/-- A controller whose name holds the version. -/
def isControllerIn (c : Catalog) (version : String) (d : DescribedType) : Bool :=
  c.isControllerType d && occurs (versionSegment version).toList d.name.toList

def controllersFor (c : Catalog) (version : String) : List DescribedType :=
  c.session.types.filter (c.isControllerIn version)

/-- The first controller whose name holds the version and the text. -/
def controller? (c : Catalog) (name version : String) : Option DescribedType :=
  c.session.types.find? fun d => c.isControllerIn version d && occurs name.toList d.name.toList

/-! ## Actions and their models -/

/-- The public methods a controller declares itself. -/
def actions (d : DescribedType) : List Method :=
  d.methods.filter fun m => m.visibility = .everyone && !m.isStatic && !m.inherited

/-- The attribute declares a response with a status of success. -/
def isSuccess (c : Catalog) (a : Attribute) : Bool :=
  shortName a.name = c.conventions.responseAttribute
    && a.wholeNumbers.any fun n => 200 ≤ n && n < 300

/-- The references that lie in the domain. -/
def inDomain (c : Catalog) (roots : List TypeReference) : List TypeReference :=
  roots.filter (c.ownership.owns c.session)

/-- What actions answer with on success, as far as it is owned. -/
def responseRoots (c : Catalog) (actions : List Method) : List TypeReference :=
  c.inDomain ((actions.flatMap (·.attributes)).filterMap fun a =>
    if c.isSuccess a then a.argumentType? else none)

/-- What actions take, as far as it is owned. -/
def parameterRoots (c : Catalog) (actions : List Method) : List TypeReference :=
  c.inDomain ((actions.flatMap (·.parameters)).map (·.type))

/-- The leaves of several references, each once. -/
def leavesOf (c : Catalog) (roots : List TypeReference) (leaves : List DescribedType) :
    List DescribedType :=
  roots.foldl (fun leaves root => addLeaves c.ownership c.session root leaves) leaves

def modelsOfResponses (c : Catalog) (actions : List Method) : List DescribedType :=
  c.leavesOf (c.responseRoots actions) []

/-- The models of a controller: those of responses, then those of parameters. -/
def modelsOfActions (c : Catalog) (d : DescribedType) : List DescribedType :=
  c.leavesOf (c.responseRoots (actions d) ++ c.parameterRoots (actions d)) []

/-- The name of a type as it is shown, without the target module unless that is kept. -/
def shownName (c : Catalog) (name : String) (keep : Bool) : String :=
  if keep then name else stripModule name c.session.target

def closure (c : Catalog) (d : DescribedType) (keep : Bool) : Closure :=
  ⟨c.shownName d.name keep, (c.modelsOfActions d).map fun m => c.shownName m.name keep⟩

/-- The controllers of a version by short name, each with its models. -/
def modelsFor (c : Catalog) (version : String) : Table String (List String) :=
  (c.controllersFor version).foldl (fun t d => t.put d.shortName (c.closure d false).all) .empty

/-- The names of a controller's models, behind its own if that is asked for. -/
def modelNames (c : Catalog) (controller : String) (withController : Bool) (version : String)
    (keep : Bool) : List String :=
  match c.controller? controller version with
  | none => []
  | some d => if withController then (c.closure d keep).all else (c.closure d keep).models

/-! ## Properties -/

/-- The response models of a controller with their properties. Elements of arrays are expanded
here, and what is not a structured type drops out. -/
def responseProperties (c : Catalog) (controller version : String) :
    List (String × List Property) :=
  match c.controller? controller version with
  | none => []
  | some d =>
    let roots := (c.modelsOfResponses (actions d)).map fun m => TypeReference.named m.name
    (c.leavesOf roots []).map fun m => (m.name, m.properties)

def modelProperties (c : Catalog) (name : String) : List Property :=
  ((c.session.find? name).map (·.properties)).getD []

/-- The constants that describe the properties of a type. -/
def propertyConstants (c : Catalog) (name : String) : List String :=
  match c.session.find? name with
  | none => []
  | some d => d.properties.map fun p => constantOf d.shortName p.name

end Catalog

end Docsmith.Discovery
