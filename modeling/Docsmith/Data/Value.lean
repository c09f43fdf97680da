import Docsmith.Data.Tag

/-!
# Data

Structured data as it is read from a text: scalars, lists and records. A scalar without quotes may
stand for a text or for a number, which only its reader decides.
-/

namespace Docsmith.Data

/-- How a scalar is written. -/
inductive Style where
  | plain
  /-- As a block whose line breaks stand for themselves. -/
  | literal
  /-- In quotes, or as a block whose lines are joined. -/
  | quoted
  deriving DecidableEq, Repr

/-- Data of any shape. -/
inductive Value where
  | null
  | bool (b : Bool)
  /-- A number that fits 64 bits, with or without a sign. -/
  | int (n : Int)
  /-- Any other number. -/
  | number
  /-- A scalar that is a text, or if plain what its reader needs it to be. -/
  | scalar (style : Style) (text : String)
  | list (vs : List Value)
  /-- Values under keys, in order. -/
  | record (fields : List (Value × Value))
  | tagged (tag : Tag) (v : Value)
  /-- A value written elsewhere. -/
  | alias (v : Value)
  /-- A value that can be skipped but not read. -/
  | unreadable
  deriving Repr, Inhabited

namespace Value

@[match_pattern]
def string (s : String) : Value := .scalar .quoted s

/-- A record with texts for keys. -/
def object (fields : List (String × Value)) : Value :=
  .record (fields.map fun f => (.string f.1, f.2))

end Value

/-- The data of a whole text. -/
structure Root where
  value : Value
  /-- How many aliases reading it may follow. -/
  links : Nat
  deriving Repr

/-- The texts data is read from. -/
inductive Format where
  | json | yaml
  deriving DecidableEq, Repr

/-- How many containers may nest. -/
def Format.depth : Format → Nat
  | .json => 127
  | .yaml => 128

end Docsmith.Data
