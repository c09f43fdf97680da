import Docsmith.Naming
import Docsmith.Source.File

/-!
# Declarations

The parts of declarations that documentation is attached to: fields, parameters, constants and
attributes.
-/

namespace Docsmith.Source

open Docsmith.Naming Docsmith.Text

/-- The short name of a type as written, without generic arguments. -/
def shortTypeName (text : List Char) : String :=
  shortName (String.ofList (trimWhile isWhite (text.takeWhile (· ≠ '<'))))

namespace Located

/-- The declared name. -/
def name? (l : Located) : Option String := (l.child? .name).map text

/-- What stands inside the brackets of an attribute. -/
def attributeBody (attr : Located) : List Char :=
  ((attr.child? .attrBody).getD attr).chars

/-- The bodies of the attributes of a declaration. -/
def attributeBodies (l : Located) : List (List Char) :=
  (l.childrenOf .attr).map attributeBody

/-- The named fields of a structure. -/
def recordFields (l : Located) : List Located :=
  match l.childWhere? (fun k => k = .recordFieldList || k = .tupleFieldList) with
  | some list => list.childrenOf .recordField
  | none => []

/-- The types named in the head of an impl. -/
def implTypes (l : Located) : List Located := l.childrenWhere NodeKind.isType

/-- An impl that names one type only implements no trait. -/
def isInherent (l : Located) : Bool := l.implTypes.length ≤ 1

/-- The type an impl belongs to. -/
def implOwner? (l : Located) : Option Located :=
  if l.isInherent then l.implTypes.head? else (l.implTypes.drop 1).head?

/-- The constants, functions, types and macro calls directly inside an impl. -/
def members (l : Located) : List Located :=
  l.childrenWhere fun k =>
    k = .constItem || k = .fnItem || k = .macroCall || k = .typeAlias

def pattern? (l : Located) : Option Located := l.childWhere? NodeKind.isPattern

/-- The first name a pattern binds, if its first identifier has a name. -/
def boundName? (pat : Located) : Option String :=
  (pat.nodes.find? (is .identPat)).bind name?

end Located

namespace File

def nodesOf (f : File) (k : NodeKind) : List Located := f.nodes.filter (Located.is k)

/-- The impls of a type that implement no trait, in order. -/
def ownImpls (f : File) (typeName : String) : List Located :=
  (f.nodesOf .implItem).filter fun i =>
    i.isInherent && i.implOwner?.any fun t => shortTypeName t.chars = typeName

end File

end Docsmith.Source
