/-!
# Reports

What became of each piece of work of a run, in order, and the lines in which a trial run shows the
documents it would write.
-/

namespace Docsmith.Run

/-- What became of one piece of work. -/
inductive Outcome where
  /-- The changed document has been written. -/
  | written
  /-- The changed document has been shown. -/
  | printed
  /-- A new document has been added. -/
  | created
  | unchanged
  | skipped (reason : String)
  deriving DecidableEq, Repr

namespace Outcome

def text : Outcome → String
  | written => "written"
  | printed => "printed"
  | created => "created"
  | unchanged => "unchanged"
  | skipped reason => s!"skipped ({reason})"

def isSkipped : Outcome → Bool
  | skipped _ => true
  | _ => false

end Outcome

/-- The outcome of a piece of work. -/
structure ReportLine where
  subject : String
  outcome : Outcome
  deriving DecidableEq, Repr

/-- The outcomes of a run. -/
structure Report where
  entries : List ReportLine
  deriving DecidableEq, Repr

namespace Report

def empty : Report := ⟨[]⟩

def record (r : Report) (subject : String) (outcome : Outcome) : Report :=
  ⟨r.entries ++ [⟨subject, outcome⟩]⟩

/-- The first outcome of a subject. -/
def outcome? (r : Report) (subject : String) : Option Outcome :=
  (r.entries.find? (·.subject = subject)).map (·.outcome)

/-- How many pieces of work were skipped. -/
def skipped (r : Report) : Nat := r.entries.countP (·.outcome.isSkipped)

/-- One line for each piece of work. -/
def text (r : Report) : String :=
  String.join (r.entries.map fun e => s!"{e.subject}: {e.outcome.text}\n")

end Report

/-! ## Shown documents -/

/-- The line in front of a shown document and behind it. -/
def rule : String := " ---------------  ******* -----------------"

/-- The lines that show a document. -/
def framed (title text : String) : List String := [rule, title, text, rule]

end Docsmith.Run
