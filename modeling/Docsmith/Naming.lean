import Docsmith.Text.Blank
import Docsmith.Text.LetterCase
import Docsmith.Text.Search

/-!
# Names of types, members and constants

A qualified name is a path with `::` or `.` between its segments. A description constant is named
after the type and the member it describes, in one word.
-/

namespace Docsmith.Naming

open Docsmith.Text

/-- A word with its first letter in upper case. -/
def capitalize : List Char → List Char
  | [] => []
  | c :: cs => upperChar c ++ cs

/-- A raw identifier without its mark. -/
def withoutRawMark (cs : List Char) : List Char :=
  (afterStart? ['r', '#'] cs).getD cs

/-- A member's name without underscores, every segment capitalized: `user_id` is `UserId`. -/
def compactName (name : String) : String :=
  String.ofList (((piecesBy (· = '_') (withoutRawMark name.toList)).filter (!·.isEmpty)).flatMap
    capitalize)

/-- The constant that describes a member of a type. -/
def constantOf (owner member : String) : String :=
  owner ++ compactName member

def colons : List Char := [':', ':']

/-- The last segment of a qualified name: `a::b::User` is `User`. -/
def shortName (name : String) : String :=
  String.ofList (afterLast ['.'] (afterLast colons name.toList))

/-- The segments of a qualified name that are not empty. -/
def nameParts (name : String) : List String :=
  (((pieces colons name.toList).flatMap (piecesBy (· = '.'))).filter (!·.isEmpty)).map String.ofList

/-- A qualified name without the module it starts with. -/
def stripModule (name module : String) : String :=
  if module.isEmpty then name
  else
    match (afterStart? module.toList name.toList).bind (afterStart? colons) with
    | some rest => String.ofList rest
    | none => name

/-- A version as it occurs in names: `v0.5` is `v05`. -/
def versionSegment (version : String) : String :=
  String.ofList ((trimWhile isWhite version.toList).filter (· ≠ '.'))

/-- Whether a text property holds an identifier, judged by its name. -/
def namesIdentifier (name : String) : Bool :=
  endsWith ['I', 'D'] (compactName name).toList || name = "id"
    || endsWith ['_', 'i', 'd'] name.toList

end Docsmith.Naming
