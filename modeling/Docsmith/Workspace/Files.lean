import Docsmith.Workspace.Path

/-!
# Files and folders

A tree of files and folders. `Files` is what the program asks of wherever files are kept;
`Entry.files` answers from a tree.

* `Entry.readText`: the text a path leads to, or why it leads to none.
* `Entry.writeText`: the tree with the text of one file replaced.
* `Entry.makeFolders`: the tree with all folders of a path.
-/

namespace Docsmith.Workspace

/-- Why a path does not lead to what was asked for. -/
inductive Fault where
  | missing
  | notFolder
  | isFolder
  | present
  | longName
  | nullChar
  | notText
  | other (text : String)
  deriving DecidableEq, Repr

def Fault.message : Fault → String
  | missing => "No such file or directory (os error 2)"
  | notFolder => "Not a directory (os error 20)"
  | isFolder => "Is a directory (os error 21)"
  | present => "File exists (os error 17)"
  | longName => "File name too long (os error 36)"
  | nullChar => "file name contained an unexpected NUL byte"
  | notText => "stream did not contain valid UTF-8"
  | other text => text

/-- What a file holds. -/
inductive Content where
  | text (s : String)
  /-- Bytes that are no text. -/
  | bytes (bs : List UInt8)
  deriving DecidableEq, Repr

def Content.ofBytes (bs : List UInt8) : Content :=
  match String.fromUTF8? ⟨bs.toArray⟩ with
  | some s => .text s
  | none => .bytes bs

/-- A file, or a folder with what is in it. -/
inductive Entry where
  | file (content : Content)
  | folder (entries : List (String × Entry))
  deriving Repr, Inhabited

namespace Entry

def isFolder : Entry → Bool
  | folder _ => true
  | file _ => false

/-! ## Paths in a tree -/

/-- The entry of a name in a list of entries. -/
def named? (entries : List (String × Entry)) (name : String) : Option Entry :=
  (entries.find? (·.1 = name)).map (·.2)

def get? : Entry → List String → Except Fault Entry
  | e, [] => .ok e
  | file _, _ :: _ => .error .notFolder
  | folder entries, name :: names =>
    match named? entries name with
    | none => .error .missing
    | some e => get? e names

/-- The way leads to a folder. -/
def hasFolder (root : Entry) (way : List String) : Bool :=
  match root.get? way with
  | .ok e => e.isFolder
  | .error _ => false

/-- The longest name of a file or folder, in bytes. -/
def maxName : Nat := 255

/-- Paths of this many bytes are too long. -/
def maxPath : Nat := 4096

/-- Why a path is refused before it is followed. Absolute paths lead out of the tree. -/
def refuse? (path : String) : Option Fault :=
  if path.toList.contains '\x00' then some .nullChar
  else if maxPath ≤ path.utf8ByteSize then some .longName
  else if path.isEmpty then some .missing
  else if !Path.isAbsolute path then none
  else if (Path.parts path).all Path.isDots then some .isFolder
  else some .missing

/-- Follows the parts of a path from the end of a way. Each of them is looked for in a folder. -/
def walk (root : Entry) : List String → List String → Except Fault (List String)
  | way, [] => .ok way
  | way, part :: parts => do
    match ← root.get? way with
    | file _ => .error .notFolder
    | folder entries =>
      if part = "." then walk root way parts
      else if part = ".." then walk root way.dropLast parts
      else if maxName < part.utf8ByteSize then .error .longName
      else if (named? entries part).isNone then .error .missing
      else walk root (way ++ [part]) parts

/-- The way to what is at a path seen from a folder. -/
def locate (root : Entry) (base : List String) (path : String) : Except Fault (List String) := do
  if let some fault := refuse? path then .error fault
  else
    let way ← root.walk base (Path.parts path)
    if path.endsWith "/" && !root.hasFolder way then .error .notFolder else return way

/-- The way to the folder a path is in, and the last part of the path. -/
def approach (root : Entry) (base : List String) (path : String) :
    Except Fault (List String × String) := do
  if let some fault := refuse? path then .error fault
  else
    let parts := Path.parts path
    let way ← root.walk base parts.dropLast
    let last := parts.getLast?.getD "."
    if !root.hasFolder way then .error .notFolder
    else if maxName < last.utf8ByteSize then .error .longName
    else return (way, last)

/-- The text of the file at a path seen from a folder. -/
def readText (root : Entry) (base : List String) (path : String) : Except Fault String := do
  match ← root.get? (← root.locate base path) with
  | folder _ => .error .isFolder
  | file (.bytes _) => .error .notText
  | file (.text s) => .ok s

/-! ## Changes -/

/-- Puts an entry under a name; a new name goes to the end. -/
def putNamed (name : String) (e : Entry) : List (String × Entry) → List (String × Entry)
  | [] => [(name, e)]
  | (n, old) :: rest => if n = name then (n, e) :: rest else (n, old) :: putNamed name e rest

/-- Puts an entry at the end of a way through folders. -/
def put (e : Entry) : List String → Entry → Entry
  | [], _ => e
  | _ :: _, file content => file content
  | name :: names, folder entries =>
    folder (putNamed name (put e names ((named? entries name).getD (folder []))) entries)

/-- Replaces what the file at a path holds, or makes one. A path that ends in a separator can only
be that of a folder. -/
def writeContent (root : Entry) (base : List String) (path : String) (content : Content) :
    Except Fault Entry := do
  let (way, last) ← root.approach base path
  if path.endsWith "/" || Path.isDots last || root.hasFolder (way ++ [last]) then
    .error .isFolder
  else return put (file content) (way ++ [last]) root

/-- Replaces the text of the file at a path, or makes one. -/
def writeText (root : Entry) (base : List String) (path text : String) : Except Fault Entry :=
  root.writeContent base path (.text text)

/-- Makes one folder. -/
def makeFolder (root : Entry) (base : List String) (path : String) : Except Fault Entry := do
  let (way, last) ← root.approach base path
  match root.get? (way ++ [last]) with
  | .ok _ => .error .present
  | .error _ =>
    if Path.isDots last then .error .present
    else return put (folder []) (way ++ [last]) root

/-- A folder is at a path. -/
def leadsToFolder (root : Entry) (base : List String) (path : String) : Bool :=
  match root.locate base path with
  | .ok way => root.hasFolder way
  | .error _ => false

/-- Makes a folder after those it is in, nearest first. What is made before a failure stays. -/
def makeEach (root : Entry) (base : List String) : List String → Except Fault Unit × Entry
  | [] => (.ok (), root)
  | path :: above =>
    let made (root : Entry) : Except Fault Unit × Entry :=
      match root.makeFolder base path with
      | .ok root => (.ok (), root)
      | .error fault =>
        (if root.leadsToFolder base path then .ok () else .error fault, root)
    match root.makeFolder base path with
    | .error .missing =>
      match makeEach root base above with
      | (.ok (), root) => made root
      | failed => failed
    | _ => made root

/-- Makes the folders of a path. -/
def makeFolders (root : Entry) (base : List String) (path : String) :
    Except Fault Unit × Entry :=
  makeEach root base (Path.ancestors path)

/-- Removes the file or folder at the end of a way. -/
def remove : List String → Entry → Entry
  | [], e => e
  | _ :: _, file c => file c
  | [name], folder entries => folder (entries.filter (·.1 ≠ name))
  | name :: names, folder entries =>
    match named? entries name with
    | none => folder entries
    | some e => folder (putNamed name (remove names e) entries)

/-! ## Walks -/

mutual

/-- A tree whose folders list their entries by name. -/
def sorted : Entry → Entry
  | file c => file c
  | folder entries => folder ((sortedAll entries).mergeSort fun a b => a.1 ≤ b.1)

def sortedAll : List (String × Entry) → List (String × Entry)
  | [] => []
  | (name, e) :: rest => (name, e.sorted) :: sortedAll rest

end

mutual

/-- How many files a tree has. -/
def count : Entry → Nat
  | file _ => 1
  | folder entries => countAll entries

def countAll : List (String × Entry) → Nat
  | [] => 0
  | (_, e) :: rest => e.count + countAll rest

end

end Entry

/-! ## Where files are kept -/

/-- How files are read. -/
structure Files (m : Type → Type) where
  readText : String → m (Except Fault String)
  /-- A tree, and the way in it to a path that is there. -/
  find : String → m (Except Fault (Entry × List String))
  /-- No more files than this can be told apart. -/
  count : Nat

/-- Reads from a tree. -/
def Entry.files (root : Entry) : Files Id where
  readText path := root.readText [] path
  find path := (root.locate [] path).map (root, ·)
  count := root.count

end Docsmith.Workspace
