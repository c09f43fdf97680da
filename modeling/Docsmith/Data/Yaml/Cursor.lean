/-!
# Positions in a text

A cursor is what remains of a text, with the line and column where it starts. Every kind of line
break is one character: `unified` makes it so.
-/

namespace Docsmith.Data.Yaml

/-! ## Characters -/

/-- A text with carriage returns and next-line marks written as line feeds. -/
def unified : List Char → List Char
  | [] => []
  | '\r' :: '\n' :: cs => '\n' :: unified cs
  | c :: cs => (if c = '\r' || c.toNat = 0x85 then '\n' else c) :: unified cs

/-- A character that may stand in a text at all. -/
def isAllowed (c : Char) : Bool :=
  let n := c.toNat
  n = 0x09 || n = 0x0A || n = 0x0D || (0x20 ≤ n && n ≤ 0x7E) || n = 0x85
    || (0xA0 ≤ n && n ≤ 0xD7FF) || (0xE000 ≤ n && n ≤ 0xFFFD) || 0x10000 ≤ n

def isBlank (c : Char) : Bool := c = ' ' || c = '\t'

def isBreak (c : Char) : Bool := c = '\n' || c.toNat = 0x2028 || c.toNat = 0x2029

/-- A letter, digit, hyphen or underscore. -/
def isNameChar (c : Char) : Bool := c.isAlphanum || c = '_' || c = '-'

/-- The text starts with a blank or break, or is at its end. -/
def endsWord (cs : List Char) : Bool := cs.head?.all fun c => isBlank c || isBreak c

def atBreak (cs : List Char) : Bool := cs.head?.all isBreak

/-- A line that starts or ends a document. -/
def isDocumentMark : List Char → Bool
  | '-' :: '-' :: '-' :: cs => endsWord cs
  | '.' :: '.' :: '.' :: cs => endsWord cs
  | _ => false

/-! ## Cursors -/

/-- The rest of a text at its position. -/
structure Cursor where
  rest : List Char
  /-- How many bytes precede it. -/
  index : Nat
  line : Nat
  column : Nat
  deriving Repr

namespace Cursor

def start (text : List Char) : Cursor := ⟨text, 0, 0, 0⟩

/-- Behind the next character. -/
def next (c : Cursor) : Cursor :=
  match c.rest with
  | [] => c
  | ch :: rest =>
    if isBreak ch then ⟨rest, c.index + ch.utf8Size, c.line + 1, 0⟩
    else ⟨rest, c.index + ch.utf8Size, c.line, c.column + 1⟩

def skip : Nat → Cursor → Cursor
  | 0, c => c
  | n + 1, c => skip n c.next

/-- Where a later part of the text starts. -/
def moveTo (c : Cursor) (rest : List Char) : Cursor := c.skip (c.rest.length - rest.length)

/-- Behind the byte order mark that a line may start with. -/
def skipOrderMark (c : Cursor) : Cursor :=
  if c.column = 0 && c.rest.head? = some '\ufeff' then c.next else c

/-- The text stands at a line that starts or ends a document. -/
def atDocumentMark (c : Cursor) : Bool := c.column = 0 && isDocumentMark c.rest

end Cursor

/-- The characters of a class at the start of a text, and the rest. -/
def spanChars (p : Char → Bool) (cs : List Char) : List Char × List Char :=
  (cs.takeWhile p, cs.dropWhile p)

/-- What follows a comment, if there is one. -/
def skipComment : List Char → List Char
  | '#' :: cs => cs.dropWhile (!isBreak ·)
  | cs => cs

/-- What follows the blanks and the comment that may end a line, without the break. -/
def lineEnd? (cs : List Char) : Option (List Char) :=
  let rest := skipComment (cs.dropWhile isBlank)
  if atBreak rest then some rest else none

end Docsmith.Data.Yaml
