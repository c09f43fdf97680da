import Docsmith.Text.Quoted

/-!
# Errors

Errors of the input concern one piece of work: a name that is not there, or a document that has no
place for what should be added to it. All others end a run.
-/

namespace Docsmith

/-- Why something could not be done. -/
inductive Error where
  /-- A file could not be read or written. -/
  | io (text : String)
  /-- A text is not the JSON that was expected. -/
  | json (text : String)
  /-- A text is not the YAML that was expected. -/
  | yaml (text : String)
  | typeNotFound (name : String)
  | documentNotFound (name : String)
  | ambiguousDocument (name : String) (candidates : List String)
  | missingArgument (text : String)
  /-- A document does not have the shape a change needs. -/
  | parse (text : String)
  | general (text : String)
  deriving DecidableEq, Repr, Inhabited

namespace Error

/-- The text shown for an error. -/
def message : Error → String
  | io text => s!"IO Error: {text}"
  | json text => s!"JSON Error: {text}"
  | yaml text => s!"YAML Error: {text}"
  | typeNotFound name => s!"Type '{name}' not found in metadata"
  | documentNotFound name => s!"Document '{name}' not found"
  | ambiguousDocument name candidates =>
    "Found more than one document matching '" ++ name ++ "': " ++ Text.quoteAll candidates
  | missingArgument text => s!"Missing argument: {text}"
  | parse text => s!"Parse Error: {text}"
  | general text => s!"General Error: {text}"

/-- Errors that concern one piece of work only. -/
def isInput : Error → Bool
  | typeNotFound _ | documentNotFound _ | ambiguousDocument _ _ | missingArgument _
  | parse _ => true
  | io _ | json _ | yaml _ | general _ => false

end Error

end Docsmith
