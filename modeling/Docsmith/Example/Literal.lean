import Docsmith.Example.Synthesizer
import Docsmith.Source.Declaration
import Docsmith.Source.Layout
import Docsmith.Source.Revision

/-!
# Example literals

Every structure literal of a model gets a value for each field it lacks. New fields go in front of
the base expression, or of the closing brace.
-/

namespace Docsmith.Example

open Docsmith.Source Docsmith.Naming

/-- A field of a model. -/
structure Field where
  name : String
  shape : Shape
  deriving DecidableEq, Repr

/-- The field of generated models that examples leave alone. -/
def extensionData : String := "extension_data"

/-! ## Literals that are there -/

/-- The name of a path of one segment. -/
def singleName? (path : Located) : Option String := do
  let segment ← path.child? .pathSegment
  let name ← segment.child? .nameRef
  if (path.child? .path).isSome then none else name.firstLeaf.map (·.text)

/-- The field a part of a literal sets, also in its short form. -/
def fieldName? (field : Located) : Option String :=
  match field.child? .nameRef with
  | some name => name.firstLeaf.map (·.text)
  | none => do
    let expr ← field.childWhere? NodeKind.isExpr
    if expr.is .pathExpr then singleName? (← expr.child? .path) else none

def fieldsOf (list : Located) : List Located := list.childrenOf .recordExprField

/-- The fields a literal needs no value for. -/
def presentFields (list : Located) : List String :=
  (fieldsOf list).filterMap fieldName? ++ [extensionData]

/-- The field lists of the literals of a model. -/
def literalLists (f : File) (model : String) : List Located :=
  (f.nodesOf .recordExpr).filterMap fun literal => do
    let path ← literal.child? .path
    let list ← literal.child? .recordExprFieldList
    if shortTypeName path.chars = shortName model then some list else none

/-- The token new fields go in front of. -/
def fieldAnchor? (list : Located) : Option Leaf :=
  list.token? .dot2 <|> list.token? .rCurly

/-! ## New fields -/

/-- Values for fields in order. -/
def renderFields (model : String) : List Field → Synthesizer → List (List Char) × Synthesizer
  | [], s => ([], s)
  | field :: rest, s =>
    let (value, s) := s.render model field.name field.shape
    let (items, s) := renderFields model rest s
    (s!"{field.name}: {value}".toList :: items, s)

/-- The edits that complete literals in order. -/
def completions (f : File) (source : List Char) (model : String) (fields : List Field) :
    List Located → Synthesizer → List Edit × Synthesizer
  | [], s => ([], s)
  | list :: rest, s =>
    let present := presentFields list
    let (items, s) := renderFields model (fields.filter fun x => !present.contains x.name) s
    let (edits, s) := completions f source model fields rest s
    match items, fieldAnchor? list with
    | [], _ => (edits, s)
    | _, none => (edits, s)
    | items, some anchor =>
      let inner := (fieldsOf list).head?.bind f.indentOf?
      (f.appendItems source anchor.start items inner :: edits, s)

/-- Completes the literals of a model. -/
def populate (source model : String) (fields : List Field) (s : Synthesizer) :
    Revision × Synthesizer :=
  let f := File.read source
  let (edits, s) := completions f source.toList model fields (literalLists f model) s
  (⟨source, String.ofList (Edit.applyAll source.toList edits)⟩, s)

end Docsmith.Example
