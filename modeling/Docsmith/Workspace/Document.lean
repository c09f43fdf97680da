import Docsmith.Error
import Docsmith.Naming
import Docsmith.Text.LetterCase
import Docsmith.Text.SnakeCase
import Docsmith.Workspace.Path

/-!
# Documents

A document is known by its path. `matching` finds the documents that may declare a type: those
named after it, or else those of the module it is in.
-/

namespace Docsmith

open Docsmith.Naming Docsmith.Text

/-- A source document. -/
structure Document where
  /-- The path from the root of its set. -/
  path : String
  deriving DecidableEq, Repr, Inhabited

namespace Document

/-- What tells documents apart. -/
def key (d : Document) : List String := Path.components d.path

/-- The file name. -/
def name (d : Document) : String := (Path.fileName? d.path).getD ""

/-- The folders on the way to the file. -/
def folders (d : Document) : List String := ((Path.parent? d.path).map Path.components).getD []

/-- The file name without its extension. -/
def stem (d : Document) : String :=
  match afterStart? ".rs".toList.reverse d.name.toList.reverse with
  | some rest => String.ofList rest.reverse
  | none => d.name

/-- The segments of the module a document declares. -/
def moduleParts (d : Document) : List String :=
  if ["mod", "lib", "main"].contains d.stem then d.folders else d.folders ++ [d.stem]

/-- A document that holds a controller. -/
def holdsController (d : Document) : Bool :=
  endsWith "controller".toList (toLower d.stem).toList

/-! ## Looking for documents -/

/-- All segments of a namespace occur in the document's module. -/
def isWithin (space : List String) (d : Document) : Bool :=
  space.all d.moduleParts.contains

/-- The document is named after the type. -/
def isNamedAfter (type : String) (d : Document) : Bool :=
  d.stem = type || d.stem = snakeCase type

/-- The document is the module that a namespace ends in. -/
def isModuleOf (space : List String) (d : Document) : Bool :=
  match space.getLast? with
  | some last => d.moduleParts.getLast? = some last
  | none => false

/-- The documents that may declare a type. Those named after it hide the others. -/
def matching (documents : List Document) (typeName : String) : List Document :=
  let segments := nameParts typeName
  match segments.getLast? with
  | none => []
  | some type =>
    let space := segments.dropLast
    let within := documents.filter (isWithin space)
    match within.filter (isNamedAfter type) with
    | [] => within.filter (isModuleOf space)
    | found => found

/-- The only document of a name. -/
def single (documents : List Document) (name : String) : Except Error Document :=
  match documents.filter fun d => d.name = name with
  | [] => .error (.documentNotFound name)
  | [d] => .ok d
  | found => .error (.ambiguousDocument name (found.map (·.path)))

end Document

end Docsmith
