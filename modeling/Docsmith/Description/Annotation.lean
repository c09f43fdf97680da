import Docsmith.Source.Declaration
import Docsmith.Source.Layout
import Docsmith.Source.Revision

/-!
# Description attributes

Every named field of a structure gets an attribute that names the constant with its description,
unless it has a description already. So do the parameters of the operations of an inherent impl, if
that is asked for.
-/

namespace Docsmith.Description

open Docsmith.Source Docsmith.Naming Docsmith.Text

/-- What attributes name, and which functions are operations. -/
structure MarkOptions where
  /-- The type that holds the description constants. -/
  descriptionsType : String
  /-- An attribute that holds this text marks an operation. -/
  operationMarker : String
  /-- Parameters of operations are described as well. -/
  decorateParameters : Bool
  deriving DecidableEq, Repr

def MarkOptions.standard : MarkOptions := ⟨"Descriptions", "utoipa::path", false⟩

/-- The constants of new attributes, once each, and the document with them. -/
structure Annotated where
  revision : Revision
  constants : List String

/-! ## Descriptions that are there -/

def description : List Char := "description".toList

/-- The text starts with the key of a description argument. -/
def startsDescription (cs : List Char) : Bool :=
  match afterStart? description cs with
  | some rest => (rest.dropWhile isWhite).head? = some '='
  | none => false

def separatesArguments (c : Char) : Bool :=
  isWhite c || c = ',' || c = '('

/-- A description argument follows a separator on the first line of the text, or follows the line
break that ends it. -/
def describesLater : List Char → Bool
  | [] => false
  | c :: cs =>
    (separatesArguments c && startsDescription cs) || (c ≠ '\n' && describesLater cs)

/-- The body of a schema attribute with a description. -/
def isSchemaDescription (body : List Char) : Bool :=
  match afterStart? "schema".toList body with
  | none => false
  | some rest =>
    match rest.dropWhile isWhite with
    | '(' :: arguments => startsDescription arguments || describesLater arguments
    | _ => false

/-- The body of an attribute that documents a parameter. -/
def isParameterDoc (body : List Char) : Bool :=
  beginsWith "param".toList body || beginsWith "request_body".toList body

/-! ## New attributes -/

/-- A new attribute, and the constant it names. -/
structure Mark where
  edit : Edit
  constant : String

def fieldAttr (o : MarkOptions) (constant : String) : List Char :=
  s!"#[schema(description = {o.descriptionsType}::{constant})]".toList

def parameterAttr (o : MarkOptions) (constant : String) (required : Bool) : List Char :=
  let more := if required then ", required = true" else ""
  s!"#[param(description = {o.descriptionsType}::{constant}{more})]".toList

/-- The attribute a field lacks. -/
def markField? (o : MarkOptions) (f : File) (owner : String) (field : Located) :
    Option Mark := do
  let constant := constantOf owner (← field.name?)
  let attr := fieldAttr o constant
  if field.attributeBodies.any isSchemaDescription || occurs attr field.chars then none
  else return ⟨← f.insertAttr? field attr, constant⟩

def markFields (o : MarkOptions) (f : File) : List Mark :=
  (f.nodesOf .structItem).flatMap fun s =>
    match s.name? with
    | some owner => s.recordFields.filterMap (markField? o f owner)
    | none => []

/-- The attribute a parameter lacks. -/
def markParameter? (o : MarkOptions) (f : File) (owner : String) (param : Located) :
    Option Mark := do
  let name ← (← param.pattern?).boundName?
  let bodies := param.attributeBodies
  let constant := constantOf owner name
  let attr := parameterAttr o constant (bodies.contains "required".toList)
  if bodies.any isParameterDoc || occurs attr param.chars then none
  else return ⟨← f.insertAttr? param attr, constant⟩

def isOperation (o : MarkOptions) (fn : Located) : Bool :=
  fn.attributeBodies.any (occurs o.operationMarker.toList)

def parameters (fn : Located) : List Located :=
  ((fn.child? .paramList).map (·.childrenOf .param)).getD []

/-- The operations of an impl, which are its functions with a marked attribute. -/
def operations (o : MarkOptions) (impl : Located) : List Located :=
  match impl.child? .assocItemList with
  | some list => (list.childrenOf .fnItem).filter (isOperation o)
  | none => []

def markParameters (o : MarkOptions) (f : File) : List Mark :=
  ((f.nodesOf .implItem).filter Located.isInherent).flatMap fun impl =>
    match impl.implOwner? with
    | some owner =>
      ((operations o impl).flatMap parameters).filterMap
        (markParameter? o f (shortTypeName owner.chars))
    | none => []

def marks (o : MarkOptions) (f : File) : List Mark :=
  markFields o f ++ if o.decorateParameters then markParameters o f else []

/-- Adds the attributes a document lacks. -/
def annotate (o : MarkOptions) (source : String) : Annotated :=
  let found := marks o (File.read source)
  ⟨⟨source, String.ofList (Edit.applyAll source.toList (found.map (·.edit)))⟩,
    (found.map (·.constant)).eraseDups⟩

end Docsmith.Description
