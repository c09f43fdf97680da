import Docsmith.Error
import Docsmith.Source.Declaration
import Docsmith.Source.Layout
import Docsmith.Source.Revision

/-!
# Registered types

A registry is an array bound to a name; its entries ask for the identity of a type. Types are added
to it that it does not hold yet.
-/

namespace Docsmith.Source

open Docsmith.Text

/-- The name a declaration binds, if it is a static, a constant or a let statement. -/
def variableName? (l : Located) : Option String :=
  match l.kind? with
  | some .staticItem => l.name?
  | some .constItem => l.name?
  | some .letStmt => l.pattern?.bind (·.boundName?)
  | _ => none

/-- What stands between the first and the last angle bracket, or everything. -/
def betweenAngles (cs : List Char) : List Char :=
  let inner := (cs.dropWhile (· ≠ '<')).drop 1
  if inner.contains '>' then ((inner.reverse.dropWhile (· ≠ '>')).drop 1).reverse else cs

/-- The type an entry registers, without white space. -/
def registeredName (entry : List Char) : List Char :=
  (betweenAngles entry).filter (!isWhite ·)

/-- The entry of a type. An entry is left as it is. -/
def entryText (raw : String) : List Char :=
  let cs := trimWhile isWhite raw.toList
  if beginsWith "TypeId::of".toList cs then cs
  else "TypeId::of::<".toList ++ trimWhile (fun c => c = '(' || c = ')') cs ++ ">()".toList

/-- The entries of types that are not known, each once. -/
def newEntries : List (List Char) → List String → List (List Char)
  | _, [] => []
  | known, t :: rest =>
    let entry := entryText t
    if known.contains (registeredName entry) then newEntries known rest
    else entry :: newEntries (registeredName entry :: known) rest

def elements (array : Located) : List Located := array.childrenWhere NodeKind.isExpr

/-- The first array inside a binding of the name, whose letter case does not matter. -/
def registryArray? (f : File) (binding : String) : Option Located :=
  (f.nodes.filter fun l => (variableName? l).any fun n => toLower n = toLower binding).findSome?
    fun l => l.nodes.find? (Located.is .arrayExpr)

def noArray (binding : String) : Error :=
  .parse s!"No array literal bound to '{binding}' found"

def openArray (binding : String) : Error :=
  .parse s!"Array bound to '{binding}' is missing ']'"

/-- Adds the types an array lacks. -/
def registerTypes (source binding : String) (types : List String) : Except Error Revision := do
  let f := File.read source
  let some array := registryArray? f binding | throw (noArray binding)
  let known := (elements array).map fun e => registeredName e.chars
  let items := newEntries known types
  if items.isEmpty then return .unchanged source
  let some closing := array.token? .rBrack | throw (openArray binding)
  let inner := (elements array).head?.bind f.indentOf?
  let edit := f.appendItems source.toList closing.start items inner
  return ⟨source, String.ofList (Edit.applyAll source.toList [edit])⟩

end Docsmith.Source
