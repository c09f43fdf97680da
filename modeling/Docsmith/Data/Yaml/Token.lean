import Docsmith.Data.Value

/-!
# Tokens

The indicators, properties and scalars of a text, and the starts and ends of blocks that follow
from its indentation.
-/

namespace Docsmith.Data.Yaml

inductive Token where
  | version (major minor : Nat)
  /-- Declares what a tag's handle stands for. -/
  | tagHandle (handle : String) (meaning : List UInt8)
  | documentStart
  | documentEnd
  | blockSequenceStart
  | blockMappingStart
  | blockEnd
  | flowSequenceStart
  | flowSequenceEnd
  | flowMappingStart
  | flowMappingEnd
  | blockEntry
  | flowEntry
  | key
  | value
  | alias (name : String)
  | anchor (name : String)
  | tag (handle : String) (suffix : List UInt8)
  | scalar (text : String) (style : Style)
  deriving DecidableEq, Repr

end Docsmith.Data.Yaml
