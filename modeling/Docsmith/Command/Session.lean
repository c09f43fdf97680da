import Docsmith.Command.Arguments
import Docsmith.Metadata.Loading
import Docsmith.Run.Annotations
import Docsmith.Run.Samples
import Docsmith.Workspace.Project

/-!
# A session at the command line

Reads the conventions, the metadata and the project, makes the run that is asked for, and says what
to print and what has become of the project.
-/

namespace Docsmith.Command

open Docsmith.Data Docsmith.Metadata Docsmith.Run Docsmith.Workspace

/-- Why a session fails. -/
inductive Failure where
  /-- A run failed, or what it needs could not be loaded. -/
  | run (e : Error)
  /-- The conventions are not of the right form. -/
  | conventions
  | general (text : String)
  deriving DecidableEq, Repr

namespace Failure

/-- The name of an error and what it holds. -/
def errorDetail : Error → String
  | .io text => s!"Io({Text.quote text})"
  | .json text => s!"Json({Text.quote text})"
  | .yaml text => s!"Yaml({Text.quote text})"
  | .typeNotFound name => s!"TypeNotFound({Text.quote name})"
  | .documentNotFound name => s!"DocumentNotFound({Text.quote name})"
  | .ambiguousDocument name candidates =>
    "AmbiguousDocument \x7b name: " ++ Text.quote name ++ ", candidates: "
      ++ Text.quoteAll candidates ++ " \x7d"
  | .missingArgument text => s!"MissingArgument({Text.quote text})"
  | .parse text => s!"Parse({Text.quote text})"
  | .general text => s!"General({Text.quote text})"

/-- The failure as it is shown. -/
def detail : Failure → String
  | run e => s!"App({errorDetail e})"
  | conventions => "Yaml(\"the text does not hold conventions\")"
  | general text => s!"General({Text.quote text})"

end Failure

/-- What a session has come to. -/
structure Result where
  /-- What is printed. -/
  output : String
  failure : Option Failure
  /-- The project as it was left, if it was opened. -/
  project : Option Project

variable {m : Type → Type} [Monad m]

/-! ## Conventions -/

/-- The file of conventions of a project. -/
def usualConfig : String := "apidoc.yaml"

def unreadableConfig (path : String) (fault : Fault) : Failure :=
  .general s!"Failed to read config {Text.quote path}: {fault.message}"

def readConventions (files : Files m) (path : String) : m (Except Failure Conventions) := do
  match ← files.readText path with
  | .error fault => return .error (unreadableConfig path fault)
  | .ok text =>
    match Format.yaml.decode (Conventions.reader .yaml) text with
    | .ok c => return .ok c
    | .error _ => return .error .conventions

def isFile : Except Fault (Entry × List String) → Bool
  | .error _ => false
  | .ok (tree, way) =>
    match tree.get? way with
    | .ok (.file _) => true
    | _ => false

/-- The conventions in a file that is named, or in the usual file if it is there. -/
def loadConventions (files : Files m) (a : Arguments) : m (Except Failure Conventions) := do
  match a.config with
  | some path => readConventions files path
  | none =>
    let path := Path.join a.project usualConfig
    if isFile (← files.find path) then readConventions files path
    else return .ok .standard

/-! ## Runs -/

/-- The action of a task. -/
def perform (session : Metadata.Session) (c : Conventions) (luck : String → Nat → Nat) :
    Task → Action Project Report
  | .describe s imports descriptionsDocument registryDocument =>
    let c := { c with
      descriptionsDocument := descriptionsDocument.getD c.descriptionsDocument
      registryDocument := registryDocument.getD c.registryDocument }
    annotateTypes session c ⟨s.controller, s.type, s.version, imports, s.trial⟩
  | .samples s => sampleTypes session c luck ⟨s.controller, s.type, s.version, s.trial⟩

/-- Each line with a line break. -/
def printed (lines : List String) : String := String.join (lines.map (· ++ "\n"))

def failed (failure : Failure) : Result := ⟨"", some failure, none⟩

/-- Makes a run on an open project. -/
def runTask (session : Metadata.Session) (c : Conventions) (luck : String → Nat → Nat)
    (task : Task) (project : Project) : Result :=
  match (perform session c luck task).run project with
  | (.ok report, p) => ⟨printed p.lines ++ report.text, none, some p.docs⟩
  | (.error e, p) => ⟨printed p.lines, some (.run e), some p.docs⟩

/-- Does what the arguments say. -/
def runArguments (files : Files m) (luck : String → Nat → Nat) (a : Arguments) : m Result := do
  match ← loadConventions files a with
  | .error failure => return failed failure
  | .ok conventions =>
    match ← Metadata.Session.openFile files a.snapshot with
    | .error e => return failed (.run e)
    | .ok session =>
      match ← Project.openFolder files a.project with
      | .error e => return failed (.run e)
      | .ok project =>
        return runTask session (a.overrides.apply conventions) luck a.task project

end Docsmith.Command
