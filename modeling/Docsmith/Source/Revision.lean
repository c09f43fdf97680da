/-!
# Revisions

A revision keeps a text before and after a change.
-/

namespace Docsmith.Source

/-- A text and what it has become. -/
structure Revision where
  before : String
  after : String
  deriving DecidableEq, Repr

namespace Revision

def unchanged (source : String) : Revision := ⟨source, source⟩

def differs (r : Revision) : Bool := r.before ≠ r.after

theorem differs_unchanged (source : String) : (unchanged source).differs = false := by
  simp [differs, unchanged]

end Revision

end Docsmith.Source
