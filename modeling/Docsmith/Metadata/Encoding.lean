import Docsmith.Data.Bare
import Docsmith.Data.Decode
import Docsmith.Metadata.Model

/-!
# Types as data

How descriptions of types are written as data and read from it. A reference is a text, a record
with the name and arguments of a generic type, or a record with the element type of an array.
-/

namespace Docsmith.Metadata

open Docsmith.Data

/-! ## Writing -/

mutual

def TypeReference.toValue : TypeReference → Value
  | .named name => .string name
  | .generic name args => .object [("generic", .string name), ("args", .list (toValues args))]
  | .array element => .object [("array", element.toValue)]

def TypeReference.toValues : List TypeReference → List Value
  | [] => []
  | t :: ts => t.toValue :: toValues ts

end

/-- The kinds of types and their names. -/
def kindNames : List (String × TypeForm) :=
  [("class", .structured), ("enum", .enumeration), ("primitive", .scalar),
    ("interface", .interface)]

def visibilityNames : List (String × Visibility) :=
  [("public", .everyone), ("protected", .derivedTypes), ("internal", .sameModule),
    ("private", .ownType)]

def TypeForm.toText : TypeForm → String
  | .structured => "class"
  | .enumeration => "enum"
  | .scalar => "primitive"
  | .interface => "interface"

def Visibility.toText : Visibility → String
  | .everyone => "public"
  | .derivedTypes => "protected"
  | .sameModule => "internal"
  | .ownType => "private"

def Argument.toValue : Argument → Value
  | .int n => .object [("int", .int n.toInt)]
  | .str s => .object [("str", .string s)]
  | .bool b => .object [("bool", .bool b)]
  | .type t => .object [("type", t.toValue)]

def Attribute.toValue (a : Attribute) : Value :=
  .object [("name", .string a.name), ("args", .list (a.args.map Argument.toValue)),
    ("named", .object (a.named.entries.map fun f => (f.1, f.2.toValue)))]

def Property.toValue (p : Property) : Value :=
  .object [("name", .string p.name), ("type", p.type.toValue)]

def Method.toValue (m : Method) : Value :=
  .object [("name", .string m.name), ("visibility", .string m.visibility.toText),
    ("is_static", .bool m.isStatic), ("inherited", .bool m.inherited),
    ("parameters", .list (m.parameters.map Property.toValue)),
    ("attributes", .list (m.attributes.map Attribute.toValue))]

def DescribedType.toValue (d : DescribedType) : Value :=
  .object [("name", .string d.name), ("module", .string d.module),
    ("kind", .string d.kind.toText), ("base", (d.base.map TypeReference.toValue).getD .null),
    ("properties", .list (d.properties.map Property.toValue)),
    ("methods", .list (d.methods.map Method.toValue)),
    ("attributes", .list (d.attributes.map Attribute.toValue)),
    ("members", .list (d.members.map Value.string))]

/-! ## Reading -/

/-- A reference, tried as an array, as a generic type and as a name, in this order. -/
def TypeReference.ofBare? : Nat → Bare → Option TypeReference
  | fuel + 1, .record fs =>
    match Bare.fields? ["array"] fs with
    | some [some element] => (ofBare? fuel element).map .array <|> generic? (ofBare? fuel) fs
    | _ => generic? (ofBare? fuel) fs
  | _, .text name => some (.named name)
  | _, _ => none
where
  generic? (read : Bare → Option TypeReference) (fs : List (Bare × Bare)) :
      Option TypeReference :=
    match Bare.fields? ["generic", "args"] fs with
    | some [some (.text name), none] => some (.generic name [])
    | some [some (.text name), some (.list args)] => (args.mapM read).map (.generic name)
    | _ => none

def TypeReference.reader : Reader TypeReference := fun depth v => do
  TypeReference.ofBare? (depth + 1) (← v.bare none depth)

/-- One of several words. A local tag in front of nothing is a word as well. -/
def wordReader {α : Type} (words : List (String × α)) (format : Format) : Reader α := fun depth v =>
  let find (w : String) : Option α := (words.find? (·.1 = w)).map (·.2)
  match format with
  | .json =>
    match v with
    | .scalar _ w => find w
    | .record [(.scalar _ w, .null)] => if depth = 0 then failure else find w
    | _ => failure
  | .yaml => do
    match ← v.resolved with
    | .scalar _ w => find w
    | .tagged tag v =>
      match tag.localName? with
      | some w => if v.isNull then find w else failure
      | none => v.text?.bind find
    | _ => failure

/-- An argument by the name of its kind. -/
def Argument.named (name : String) : Reader Argument := fun depth v =>
  match name with
  | "int" => do return .int (← Reader.signed depth v)
  | "str" => do return .str (← Reader.text depth v)
  | "bool" => do return .bool (← Reader.bool depth v)
  | "type" => do return .type (← TypeReference.reader depth v)
  | _ => failure

/-- A value under its kind: a record of one field, or a tag. -/
def Argument.reader (format : Format) : Reader Argument := fun depth v =>
  match format with
  | .json =>
    match v, depth with
    | .record [(.scalar _ name, v)], depth + 1 => Argument.named name depth v
    | _, _ => failure
  | .yaml => do
    match ← v.resolved with
    | .tagged tag v =>
      match tag.localName? with
      | some name => Argument.named name depth v
      | none => failure
    | _ => failure

def Attribute.reader (format : Format) : Reader Attribute :=
  .fields format ["name", "args", "named"] fun
    | depth, [name, args, named] => do
      return {
        name := ← Reader.required Reader.text depth name
        args := ← Reader.defaulted [] (.list (Argument.reader format)) depth args
        named := ← Reader.defaulted .empty (.table (Argument.reader format)) depth named }
    | _, _ => failure

def Property.reader (format : Format) : Reader Property :=
  .fields format ["name", "type"] fun
    | depth, [name, type] => do
      return {
        name := ← Reader.required Reader.text depth name
        type := ← Reader.required TypeReference.reader depth type }
    | _, _ => failure

def Method.reader (format : Format) : Reader Method :=
  .fields format ["name", "visibility", "is_static", "inherited", "parameters", "attributes"] fun
    | depth, [name, visibility, isStatic, inherited, parameters, attributes] => do
      return {
        name := ← Reader.required Reader.text depth name
        visibility := ←
          Reader.defaulted .everyone (wordReader visibilityNames format) depth visibility
        isStatic := ← Reader.defaulted false Reader.bool depth isStatic
        inherited := ← Reader.defaulted false Reader.bool depth inherited
        parameters := ← Reader.defaulted [] (.list (Property.reader format)) depth parameters
        attributes := ← Reader.defaulted [] (.list (Attribute.reader format)) depth attributes }
    | _, _ => failure

def DescribedType.reader (format : Format) : Reader DescribedType :=
  .fields format
    ["name", "module", "kind", "base", "properties", "methods", "attributes", "members"]
    fun
    | depth, [name, module, kind, base, properties, methods, attributes, members] => do
      return {
        name := ← Reader.required Reader.text depth name
        module := ← Reader.defaulted "" Reader.text depth module
        kind := ← Reader.defaulted .structured (wordReader kindNames format) depth kind
        base := ← Reader.defaulted none (.optional TypeReference.reader) depth base
        properties := ← Reader.defaulted [] (.list (Property.reader format)) depth properties
        methods := ← Reader.defaulted [] (.list (Method.reader format)) depth methods
        attributes := ← Reader.defaulted [] (.list (Attribute.reader format)) depth attributes
        members := ← Reader.defaulted [] (.list Reader.text) depth members }
    | _, _ => failure

def Snapshot.reader (format : Format) : Reader Snapshot :=
  .fields format ["module", "references", "types"] fun
    | depth, [module, references, types] => do
      return {
        module := ← Reader.required Reader.text depth module
        references := ← Reader.defaulted [] (.list Reader.text) depth references
        types := ← Reader.defaulted [] (.list (DescribedType.reader format)) depth types }
    | _, _ => failure

end Docsmith.Metadata
