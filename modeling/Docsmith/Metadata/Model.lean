import Docsmith.Data.Table
import Docsmith.Naming

/-!
# Types of a program

A description of the types a program declares: their properties, methods and attributes, and
references to other types by name.
-/

namespace Docsmith.Metadata

/-- A reference to a type. -/
inductive TypeReference where
  | named (name : String)
  | generic (name : String) (args : List TypeReference)
  | array (element : TypeReference)
  deriving Repr, Inhabited

namespace TypeReference

/-- The name of the type, or of the generic type applied. -/
def headName? : TypeReference → Option String
  | named name => some name
  | generic name _ => some name
  | array _ => none

def shortName? (t : TypeReference) : Option String :=
  t.headName?.map Naming.shortName

mutual

/-- The number of names and brackets in a reference. -/
def size : TypeReference → Nat
  | named _ => 1
  | generic _ args => sizeAll args + 1
  | array element => size element + 1

def sizeAll : List TypeReference → Nat
  | [] => 0
  | t :: ts => size t + sizeAll ts

end

theorem sizeAll_append (ts us : List TypeReference) :
    sizeAll (ts ++ us) = sizeAll ts + sizeAll us := by
  induction ts with
  | nil => simp [sizeAll]
  | cons t ts ih => simp [sizeAll, ih, Nat.add_assoc]

theorem size_pos (t : TypeReference) : 0 < t.size := by
  cases t <;> simp [size]

end TypeReference

/-- What kind of type a declaration makes. -/
inductive TypeForm where
  /-- A type with properties. -/
  | structured
  /-- A type whose values are its members. -/
  | enumeration
  /-- A scalar that is built in. -/
  | scalar
  | interface
  deriving DecidableEq, Repr, Inhabited

/-- Who may call a method. -/
inductive Visibility where
  | everyone | derivedTypes | sameModule | ownType
  deriving DecidableEq, Repr, Inhabited

/-- A value given to an attribute. -/
inductive Argument where
  | int (n : Int64)
  | str (s : String)
  | bool (b : Bool)
  | type (t : TypeReference)
  deriving Repr, Inhabited

/-- An attribute with its arguments, by position and by keyword. -/
structure Attribute where
  name : String
  args : List Argument
  named : Table String Argument
  deriving Repr, Inhabited

namespace Attribute

/-- All arguments, those by position first. -/
def values (a : Attribute) : List Argument :=
  a.args ++ a.named.values

def wholeNumbers (a : Attribute) : List Int :=
  a.values.filterMap fun
    | .int n => some n.toInt
    | _ => none

/-- The first argument that is a type. -/
def argumentType? (a : Attribute) : Option TypeReference :=
  a.values.findSome? fun
    | .type t => some t
    | _ => none

end Attribute

/-- A property of a type or a parameter of a method. -/
structure Property where
  name : String
  type : TypeReference
  deriving Repr, Inhabited

structure Method where
  name : String
  visibility : Visibility
  isStatic : Bool
  inherited : Bool
  parameters : List Property
  attributes : List Attribute
  deriving Repr, Inhabited

/-- A declared type. -/
structure DescribedType where
  name : String
  /-- The module that declares the type, empty until it is known. -/
  module : String
  kind : TypeForm
  base : Option TypeReference
  properties : List Property
  methods : List Method
  attributes : List Attribute
  members : List String
  deriving Repr, Inhabited

def DescribedType.shortName (d : DescribedType) : String := Naming.shortName d.name

/-- The types one module declares, and the other snapshots to load with it. -/
structure Snapshot where
  module : String
  references : List String
  types : List DescribedType
  deriving Repr, Inhabited

end Docsmith.Metadata
