import Docsmith.Text.Search

/-!
# Paths

A path names a file by the folders on the way to it. Repeated separators and single dots inside a
path do not count; a dot it starts with does. Two paths with the same components name the same
document.
-/

namespace Docsmith.Path

open Docsmith.Text

def isSeparator (c : Char) : Bool := c = '/'

def isAbsolute (path : String) : Bool := path.toList.head?.any isSeparator

/-- A part that names nothing. -/
def isVoid (part : List Char) : Bool := part.isEmpty || part = ['.']

/-- The root or the dot a path starts with, and the parts behind it. -/
def split (path : String) : List Char × List (List Char) :=
  match path.toList with
  | '/' :: cs => (['/'], piecesBy isSeparator cs)
  | ['.'] => (['.'], [])
  | '.' :: '/' :: cs => (['.'], [] :: piecesBy isSeparator cs)
  | cs => ([], piecesBy isSeparator cs)

/-- The components of a path, the root or the dot it starts with included. -/
def components (path : String) : List String :=
  let (start, parts) := split path
  let names := (parts.filter (!isVoid ·)).map String.ofList
  if start.isEmpty then names else String.ofList start :: names

/-- The parts of a path between its separators, the way it is followed: dots count. -/
def parts (path : String) : List String :=
  ((piecesBy isSeparator path.toList).filter (!·.isEmpty)).map String.ofList

/-- A part that stands for the folder it is in, or for the one above that. -/
def isDots (part : String) : Bool := part = "." || part = ".."

/-- A component that names a file or folder. -/
def isName (component : String) : Bool :=
  component ≠ "/" && component ≠ "." && component ≠ ".."

/-- The last component, if it is a name. -/
def fileName? (path : String) : Option String := (components path).getLast?.filter isName

/-- A list without the elements of a class at its end. -/
def dropLastWhile {α : Type} (p : α → Bool) (xs : List α) : List α :=
  (xs.reverse.dropWhile p).reverse

/-- The path without its last component. -/
def parent? (path : String) : Option String :=
  let (start, parts) := split path
  match dropLastWhile isVoid parts with
  | [] =>
    match start with
    | ['.'] => some ""
    | _ => none
  | parts =>
    let rest := dropLastWhile isVoid parts.dropLast
    some (String.ofList (start ++ (rest.intersperse ['/']).flatten))

/-- A path and the folders above it, nearest first. -/
def ancestors (path : String) : List String :=
  above ((split path).2.length + 1) path
where
  above : Nat → String → List String
    | 0, _ => []
    | n + 1, path =>
      if path.isEmpty then []
      else path :: ((parent? path).map (above n)).getD []

/-- A path inside a folder. An absolute path stands for itself. -/
def join (folder path : String) : String :=
  if isAbsolute path || folder.isEmpty then path
  else if folder.endsWith "/" then folder ++ path
  else folder ++ "/" ++ path

def joinAll (names : List String) : String := names.foldl join ""

/-- What follows the last dot of a file name, unless the name starts with it. -/
def extension? (path : String) : Option String := do
  let name := (← fileName? path).toList
  if !name.contains '.' then none
  else
    let ext := (name.reverse.takeWhile (· ≠ '.')).reverse
    if ext.length + 1 = name.length then none else some (String.ofList ext)

end Docsmith.Path
