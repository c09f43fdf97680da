import Docsmith.Command.Session

/-!
# The program

Reads the files a session asks for, makes the session, and carries out on disk what it has changed.
Nothing is decided here.
-/

namespace Docsmith.Program

open Docsmith.Command Docsmith.Workspace

/-! ## Files -/

/-- What a failed access of a file means. -/
def faultOf : IO.Error → Fault
  | .noFileOrDirectory .. => .missing
  | .inappropriateType _ 21 _ => .isFolder
  | .inappropriateType .. => .notFolder
  | .invalidArgument _ 36 _ => .longName
  | e => .other (toString e)

def readFile (path : String) : IO (Except Fault String) := do
  if path.toList.contains '\x00' then return .error .nullChar
  match ← (IO.FS.readBinFile path).toBaseIO with
  | .error e => return .error (faultOf e)
  | .ok bytes =>
    match String.fromUTF8? bytes with
    | some text => return .ok text
    | none => return .error .notText

/-- The content of a file, which matters for sources only. -/
def readContent (e : IO.FS.DirEntry) : IO Content := do
  if !isSource e.fileName then return .text ""
  match ← (IO.FS.readBinFile e.path).toBaseIO with
  | .error _ => return .text ""
  | .ok bytes => return .ofBytes bytes.toList

/-- A folder with all that is below it. Folders without sources of the project are left empty. -/
partial def readFolder (folder : IO.FS.DirEntry) : IO Entry := do
  let entries ← folder.path.readDir
  let read ← entries.toList.mapM fun e => do
    let entry ←
      if ← e.path.isDir then
        if isSkipped e.fileName then pure (Entry.folder []) else readFolder e
      else pure (Entry.file (← readContent e))
    return (e.fileName, entry)
  return .folder read

def find (path : String) : IO (Except Fault (Entry × List String)) := do
  let e : IO.FS.DirEntry := ⟨".", path⟩
  if ← e.path.isDir then return .ok (← readFolder e, [])
  else if ← e.path.pathExists then return .ok (.file (.text ""), [])
  else return .error .missing

/-- How many snapshots may name one another in a row. -/
def maxChain : Nat := 4096

def files : Files IO := ⟨readFile, find, maxChain⟩

/-- Writes a document, in folders that are made where they are missing. -/
def writeDocument (p : Project) (d : Document) (text : String) : IO Unit := do
  let path := p.fullPath d
  (Path.parent? path).forM (IO.FS.createDirAll ·)
  IO.FS.writeFile path text

/-! ## Sessions -/

def environmentNames : List String :=
  (commonOptions ++ describeOptions).filterMap (·.fallback)

def environment : IO (List (String × String)) :=
  environmentNames.filterMapM fun name => return (← IO.getEnv name).map (name, ·)

/-- Picks for enumerations, from a seed that differs between runs. -/
def luckOf (seed : Nat) (model : String) (n : Nat) : Nat :=
  (Random.word (.ofSeed (seed.toUInt64 + model.hash)) n).toNat

def usage : String :=
  "Usage: docsmith --snapshot SNAPSHOT [--project PROJECT] [--config CONFIG] [options] COMMAND\n\n"
    ++ "Commands:\n"
    ++ "  describe  add description attributes and fill the registries\n"
    ++ "  samples   create or complete response examples\n"

def refuse (output error : IO.FS.Stream) : Refusal → IO UInt32
  | .help => do
    output.putStr usage
    return 0
  | .version => do
    output.putStrLn "docsmith 0.1.0"
    return 0
  | .invalid => do
    error.putStr usage
    return 2

def finish (output error : IO.FS.Stream) (r : Result) : IO UInt32 := do
  if let some p := r.project then
    p.changes.reverse.forM fun (d, text) => writeDocument p d text
  output.putStr r.output
  match r.failure with
  | none => return 0
  | some failure => do
    error.putStrLn s!"Error: {failure.detail}"
    return 1

def run (args : List String) : IO UInt32 := do
  let output ← IO.getStdout
  let error ← IO.getStderr
  match Arguments.read args (← environment) with
  | .error refusal => refuse output error refusal
  | .ok a => do
    let seed ← IO.rand 0 (UInt64.size - 1)
    finish output error (← runArguments files (luckOf seed) a)

end Docsmith.Program

def main (args : List String) : IO UInt32 := Docsmith.Program.run args
