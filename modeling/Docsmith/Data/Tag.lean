/-!
# Tags

A tag says what a piece of data is. Its escapes may spell bytes that are no text.
-/

namespace Docsmith.Data

/-- A tag, as bytes. -/
structure Tag where
  bytes : List UInt8
  deriving DecidableEq, Repr

namespace Tag

def ofText (s : String) : Tag := ⟨s.toUTF8.toList⟩

/-- A null byte ends each part a tag is made of. -/
def upToNull (bs : List UInt8) : List UInt8 := bs.takeWhile (· ≠ 0)

def ofParts (start rest : List UInt8) : Tag := ⟨upToNull start ++ upToNull rest⟩

def mark : UInt8 := '!'.toUInt8

/-- The tag of what has none. -/
def unspecific : Tag := ⟨[mark]⟩

/-! ## Tags of scalars -/

def bool : Tag := ofText "tag:yaml.org,2002:bool"
def int : Tag := ofText "tag:yaml.org,2002:int"
def float : Tag := ofText "tag:yaml.org,2002:float"
def null : Tag := ofText "tag:yaml.org,2002:null"

/-! ## Local tags -/

def hasMark (t : Tag) : Bool := t.bytes.head? = some mark

/-- The name of a form of the reader's. A mark alone is a name of its own. -/
def localName? (t : Tag) : Option String :=
  if t.hasMark then
    let rest := t.bytes.drop 1
    String.fromUTF8? ⟨(if rest.isEmpty then t.bytes else rest).toArray⟩
  else none

end Tag

end Docsmith.Data
