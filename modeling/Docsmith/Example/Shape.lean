import Docsmith.Metadata.Session

/-!
# Shapes of fields

What an example of a field has to look like, judged by the field's type.
-/

namespace Docsmith.Example

open Docsmith.Metadata Docsmith.Text

/-- The kind of value a field holds. -/
inductive FieldKind where
  | text
  | boolean
  /-- A whole number below a bound. -/
  | integer (bound : Nat)
  | dateTime
  | uuid
  | decimal
  /-- One of several members, written behind a path. -/
  | enumeration (path : String) (members : List String)
  | other
  deriving DecidableEq, Repr

/-- A kind, and whether the field may be empty. -/
structure Shape where
  kind : FieldKind
  nullable : Bool
  deriving DecidableEq, Repr

/-- The integer types, and a bound that fits them and 31 bits. -/
def integerBounds : List (String × Nat) :=
  [("i8", 127), ("u8", 255), ("i16", 32767), ("u16", 65535)]
    ++ ["i32", "u32", "i64", "u64", "i128", "u128", "isize", "usize"].map (·, 2147483647)

def momentTypes : List String :=
  ["DateTime", "NaiveDateTime", "NaiveDate", "OffsetDateTime", "PrimitiveDateTime", "SystemTime"]

/-- The kind of a type that is known by its short name. -/
def FieldKind.ofName? (name : String) : Option FieldKind :=
  match integerBounds.lookup name with
  | some bound => some (.integer bound)
  | none =>
    if name = "String" || name = "str" then some .text
    else if name = "bool" then some .boolean
    else if name = "Uuid" then some .uuid
    else if name = "Decimal" then some .decimal
    else if momentTypes.contains name then some .dateTime
    else none

/-- The kind of a declared enumeration, if it has members. -/
def FieldKind.ofDefinition (d : DescribedType) : FieldKind :=
  if d.kind = .enumeration && !d.members.isEmpty then .enumeration d.shortName d.members
  else .other

/-- The kind of a type. References to it count as the type itself. -/
def FieldKind.ofType (s : Session) (t : TypeReference) : FieldKind :=
  match t.shortName? with
  | none => .other
  | some name =>
    match ofName? (String.ofList (name.toList.dropWhile (· = '&'))) with
    | some kind => kind
    | none => ((s.resolve? t).map ofDefinition).getD .other

/-- The shape of a field of a type. -/
def Shape.ofType (s : Session) (t : TypeReference) : Shape :=
  match t with
  | .generic name [inner] =>
    if Naming.shortName name = "Option" then ⟨.ofType s inner, true⟩ else ⟨.ofType s t, false⟩
  | t => ⟨.ofType s t, false⟩

end Docsmith.Example
