import Docsmith.Text.Quoted
import Docsmith.Workspace.DocumentStore
import Docsmith.Workspace.Files

/-!
# Documents of a project

The source files below a folder, hidden folders and build results left out. The list of documents
is made once; files that come later by another way are not in it.

* `sources`: the paths of the source files of a tree, each folder by name.
-/

namespace Docsmith.Workspace

open Docsmith.Text

/-- A folder that holds no sources of the project. -/
def isSkipped (name : String) : Bool := name = "target" || name.startsWith "."

/-- A file name of a source. -/
def isSource (name : String) : Bool := Path.extension? name = some "rs"

mutual

/-- The sources of a folder's entries below a path, in the order of the entries. -/
def sourcesBelow (above : List String) : List (String × Entry) → List (List String)
  | [] => []
  | (name, e) :: rest => sourcesAt (above ++ [name]) name e ++ sourcesBelow above rest

def sourcesAt (way : List String) (name : String) : Entry → List (List String)
  | .file _ => if isSource name then [way] else []
  | .folder entries => if isSkipped name then [] else sourcesBelow way entries

end

/-- The ways to the sources below a folder, each folder's in the order of their names. -/
def sources (folder : Entry) : List (List String) :=
  match folder.sorted with
  | .folder entries => sourcesBelow [] entries
  | .file _ => []

/-- The documents of a folder. -/
structure Project where
  /-- The path of the folder. -/
  root : String
  /-- All files and folders. -/
  tree : Entry
  /-- The way to the folder in the tree. -/
  way : List String
  documents : List Document
  /-- The texts written so far, the latest first. -/
  changes : List (Document × String)

namespace Project

def notFound (root : String) : Error := .general s!"Project directory not found: {quote root}"

/-- The project of a folder with these sources. -/
def ofFolder (root : String) (tree : Entry) (way : List String) (folder : Entry) : Project :=
  ⟨root, tree, way, (sources folder).map fun names => ⟨"/".intercalate names⟩, []⟩

/-- The project of the folder at a path. -/
def openFolder {m : Type → Type} [Monad m] (files : Files m) (root : String) :
    m (Except Error Project) := do
  match ← files.find root with
  | .error _ => return .error (notFound root)
  | .ok (tree, way) =>
    match tree.get? way with
    | .ok (.folder entries) => return .ok (ofFolder root tree way (.folder entries))
    | _ => return .error (notFound root)

/-- The path of a document as errors show it. -/
def fullPath (p : Project) (d : Document) : String := Path.join p.root d.path

def unreadable (p : Project) (d : Document) (fault : Fault) : Error :=
  .general s!"Failed to read file {quote (p.fullPath d)}: {fault.message}"

def unwritable (p : Project) (d : Document) (fault : Fault) : Error :=
  .general s!"Failed to write file {quote (p.fullPath d)}: {fault.message}"

/-- The path of a document seen from the folder, which an empty path names itself. -/
def seenPath (d : Document) : String := if d.path.isEmpty then "./" else d.path

def read (p : Project) (d : Document) : Except Error String :=
  match p.tree.readText p.way (seenPath d) with
  | .ok text => .ok text
  | .error fault => .error (p.unreadable d fault)

def write (p : Project) (d : Document) (text : String) : Except Error Unit × Project :=
  match p.tree.writeText p.way (seenPath d) text with
  | .ok tree => (.ok (), { p with tree, changes := (d, text) :: p.changes })
  | .error fault => (.error (p.unwritable d fault), p)

/-- The folders of a new document are made first. -/
def add (p : Project) (name : String) (folders : List String) (text : String) :
    Except Error Document × Project :=
  let d : Document := ⟨Path.join (Path.joinAll folders) name⟩
  match p.tree.makeFolders p.way ((Path.parent? d.path).getD "") with
  | (.error fault, tree) => (.error (.io fault.message), { p with tree })
  | (.ok (), tree) =>
    match ({ p with tree } : Project).write d text with
    | (.ok (), p) => (.ok d, { p with documents := p.documents ++ [d] })
    | (.error e, p) => (.error e, p)

instance : DocumentStore Project := ⟨Project.documents, read, write, add⟩

end Project

end Docsmith.Workspace
