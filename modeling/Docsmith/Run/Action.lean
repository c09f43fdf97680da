import Docsmith.Run.Report
import Docsmith.Workspace.DocumentStore

/-!
# Actions

A run works on a set of documents and shows lines. What it has done before an error stays done.
-/

namespace Docsmith.Run

/-- The documents as they are, and the lines shown so far. -/
structure Progress (σ : Type) where
  docs : σ
  lines : List String

abbrev Action (σ : Type) := EStateM Error (Progress σ)

namespace Action

variable {σ : Type} [DocumentStore σ]

/-- An action on the documents alone. -/
def onDocs {α : Type} (f : σ → Except Error α × σ) : Action σ α := fun p =>
  match f p.docs with
  | (.ok a, docs) => .ok a { p with docs }
  | (.error e, docs) => .error e { p with docs }

def documents : Action σ (List Document) := fun p => .ok (DocumentStore.documents p.docs) p

def readDocument (d : Document) : Action σ String :=
  onDocs fun docs => (DocumentStore.read docs d, docs)

def writeDocument (d : Document) (text : String) : Action σ Unit :=
  onDocs fun docs => DocumentStore.write docs d text

def addDocument (name : String) (folders : List String) (text : String) : Action σ Document :=
  onDocs fun docs => DocumentStore.add docs name folders text

def showDocument (title text : String) : Action σ Unit := fun p =>
  .ok () { p with lines := p.lines ++ framed title text }

def ofExcept {α : Type} : Except Error α → Action σ α
  | .ok a => pure a
  | .error e => throw e

/-- Shows a changed document on a trial, writes it otherwise. -/
def emit (trial : Bool) (d : Document) (text : String) : Action σ Outcome :=
  if trial then do
    showDocument d.path text
    return .printed
  else do
    writeDocument d text
    return .written

/-- An error of the input makes one piece of work skipped. -/
def skipInput (work : Action σ Outcome) : Action σ Outcome := fun p =>
  match work p with
  | .error e p => if e.isInput then .ok (.skipped e.message) p else .error e p
  | done => done

/-- What the documents have become. -/
def run {α : Type} (a : Action σ α) (docs : σ) : Except Error α × Progress σ :=
  match a ⟨docs, []⟩ with
  | .ok r p => (.ok r, p)
  | .error e p => (.error e, p)

end Action

/-! ## What both runs share -/

/-- A text that names something. -/
def named? (text : Option String) : Option String :=
  text.filter (!Text.isBlankText ·)

def noTarget : Error :=
  .missingArgument "one of controller name or type name is required"

/-- The path of a type as the target module sees it. -/
def rootedPath (name target : String) : String :=
  let short := Naming.stripModule name target
  if short.utf8ByteSize = name.utf8ByteSize then name else "crate::" ++ short

end Docsmith.Run
