import Docsmith.Data.Text
import Docsmith.Metadata.Encoding
import Docsmith.Metadata.Session
import Docsmith.Workspace.Files

/-!
# Loading snapshots

A file holds one snapshot, which names others relative to its folder. Loading a file adds its
snapshot, then loads those it names, in order and depth first.
-/

namespace Docsmith.Metadata

open Docsmith.Data Docsmith.Workspace

/-- Reads the snapshot in a text. The path tells its format. -/
def Snapshot.ofText (text path : String) : Except Error Snapshot :=
  let format := Format.ofExtension (Path.extension? path)
  format.decode (Snapshot.reader format) text

/-- The files a snapshot names, seen from its own path. -/
def Snapshot.referencePaths (s : Snapshot) (path : String) : List String :=
  s.references.map (Path.join ((Path.parent? path).getD ""))

def unreadable (path : String) (fault : Fault) : Error :=
  .general s!"Failed to read metadata {Text.quote path}: {fault.message}"

def circular (path : String) : Error :=
  .general s!"Metadata refers to itself at {Text.quote path}"

namespace Session

variable {m : Type → Type} [Monad m]

/-- Loads files in order up to a failure. -/
def loadEach (load : String → Session → m (Except Error Unit × Session)) :
    List String → Session → m (Except Error Unit × Session)
  | [], s => return (.ok (), s)
  | path :: paths, s => do
    match ← load path s with
    | (.error e, s) => return (.error e, s)
    | (.ok (), s) => loadEach load paths s

/-- Loads a file and those it names, at most as deep as told. What precedes a failure stays. -/
def loadWithin (files : Files m) : Nat → String → Session → m (Except Error Unit × Session)
  | 0, path, s => return (.error (circular path), s)
  | depth + 1, path, s => do
    match ← files.readText path with
    | .error fault => return (.error (unreadable path fault), s)
    | .ok text =>
      match Snapshot.ofText text path with
      | .error e => return (.error e, s)
      | .ok snapshot =>
        loadEach (loadWithin files depth) (snapshot.referencePaths path) (s.add snapshot)

/-- Loads a file and all it names into a session. -/
def load (files : Files m) (path : String) (s : Session) : m (Except Error Unit × Session) :=
  loadWithin files (files.count + 1) path s

/-- The session of a file and all it names. -/
def openFile (files : Files m) (path : String) : m (Except Error Session) := do
  match ← load files path empty with
  | (.error e, _) => return .error e
  | (.ok (), s) => return .ok s

end Session

end Docsmith.Metadata
