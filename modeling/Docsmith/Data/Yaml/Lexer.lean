import Docsmith.Data.Yaml.Property

/-!
# From a text to tokens

The lexer keeps the indentation of open blocks. A scalar, alias, tag, anchor or flow collection may
turn out to be the key of a mapping when a colon follows on its line; the marks of the mapping and
the key are then put in front of it.
-/

namespace Docsmith.Data.Yaml

/-- The place of what may turn out to be a key. -/
structure KeyPlace where
  /-- How many tokens precede it. -/
  count : Nat
  index : Nat
  line : Nat
  column : Nat
  /-- It must be a key, or the text is broken. -/
  required : Bool
  deriving Repr

/-- The state of the lexer. -/
structure Lexer where
  cursor : Cursor
  tokens : Array Token
  /-- The column of the innermost block, -1 outside of any. -/
  indent : Int
  /-- The columns of the blocks around it. -/
  outer : List Int
  /-- A key without a mark may start here. -/
  allowsKey : Bool
  /-- What may be a key in the current flow collection, or in the block outside of any. -/
  place : Option KeyPlace
  /-- The same for the flow collections around it and the block. -/
  places : List (Option KeyPlace)

namespace Lexer

def start (text : List Char) : Lexer := ⟨.start text, #[], -1, [], true, none, []⟩

def inFlow (l : Lexer) : Bool := !l.places.isEmpty

def push (l : Lexer) (t : Token) : Lexer := { l with tokens := l.tokens.push t }

def moveTo (l : Lexer) (rest : List Char) : Lexer := { l with cursor := l.cursor.moveTo rest }

/-! ## Blocks -/

/-- Ends the blocks to the right of a column. -/
def unroll (column : Int) : List Int → Lexer → Lexer
  | outer, l =>
    if l.inFlow || l.indent ≤ column then l
    else
      match outer with
      | [] => { l with tokens := l.tokens.push .blockEnd, indent := -1, outer := [] }
      | i :: outer =>
        unroll column outer { l with tokens := l.tokens.push .blockEnd, indent := i, outer }

/-- Starts a block at a column to the right of the innermost one, with its mark in front of the
token at a place. -/
def roll (column count : Nat) (mark : Token) (l : Lexer) : Lexer :=
  if l.inFlow || column ≤ l.indent then l
  else
    { l with
      tokens := l.tokens.insertIdxIfInBounds count mark
      indent := column
      outer := l.indent :: l.outer }

/-! ## Keys -/

/-- What may be a key no longer is, because it must stand on one line and be short. -/
def KeyPlace.isStale (p : KeyPlace) (c : Cursor) : Bool :=
  p.line < c.line || p.index + 1024 < c.index

def freshen? (c : Cursor) : Option KeyPlace → Option (Option KeyPlace)
  | none => some none
  | some p =>
    if !KeyPlace.isStale p c then some (some p)
    else if p.required then none
    else some none

/-- Forgets all that can no longer be keys. -/
def forgetStale? (l : Lexer) : Option Lexer := do
  return { l with
    place := ← freshen? l.cursor l.place
    places := ← l.places.mapM (freshen? l.cursor) }

/-- Forgets what could be a key here. -/
def dropKey? (l : Lexer) : Option Lexer :=
  if l.place.any (·.required) then none else some { l with place := none }

/-- Notes that what starts here may be a key. -/
def noteKey? (l : Lexer) : Option Lexer :=
  if l.allowsKey then do
    let l ← l.dropKey?
    let c := l.cursor
    return { l with
      place := some ⟨l.tokens.size, c.index, c.line, c.column,
        !l.inFlow && l.indent = c.column⟩ }
  else some l

/-! ## Single tokens -/

/-- Skips blanks, comments, line breaks and byte order marks. A tab does not indent a key. -/
def skipSpace : Nat → Lexer → Lexer
  | 0, l => l
  | fuel + 1, l =>
    let blank (c : Char) : Bool := c = ' ' || (c = '\t' && (l.inFlow || !l.allowsKey))
    let l := { l with cursor := l.cursor.skipOrderMark }
    let rest := skipComment (l.cursor.rest.dropWhile blank)
    match rest with
    | c :: cs =>
      if isBreak c then
        skipSpace fuel { l.moveTo cs with allowsKey := l.allowsKey || !l.inFlow }
      else l.moveTo rest
    | [] => l.moveTo rest

def indicator (t : Token) (l : Lexer) : Lexer :=
  { l with tokens := l.tokens.push t, cursor := l.cursor.next }

/-- A directive or a mark of a document ends all blocks. -/
def leaveBlocks? (l : Lexer) : Option Lexer := do
  let l ← (l.unroll (-1) l.outer).dropKey?
  return { l with allowsKey := false }

def openFlow? (t : Token) (l : Lexer) : Option Lexer := do
  let l ← l.noteKey?
  return { l.indicator t with allowsKey := true, place := none, places := l.place :: l.places }

def closeFlow? (t : Token) (l : Lexer) : Option Lexer := do
  let l ← l.dropKey?
  let l := { l.indicator t with allowsKey := false }
  match l.places with
  | [] => return l
  | p :: places => return { l with place := p, places }

/-- A mark that starts a block where none is open at its column. -/
def startBlock? (mark : Token) (l : Lexer) : Option Lexer :=
  if l.inFlow then some l
  else if !l.allowsKey then none
  else some (l.roll l.cursor.column l.tokens.size mark)

def blockEntry? (l : Lexer) : Option Lexer := do
  let l ← (← l.startBlock? .blockSequenceStart).dropKey?
  return { l.indicator .blockEntry with allowsKey := true }

def key? (l : Lexer) : Option Lexer := do
  let l ← (← l.startBlock? .blockMappingStart).dropKey?
  return { l.indicator .key with allowsKey := !l.inFlow }

/-- A colon, which makes a key of what stands before it. -/
def value? (l : Lexer) : Option Lexer :=
  match l.place with
  | some p =>
    let l := { l with tokens := l.tokens.insertIdxIfInBounds p.count .key, place := none }
    let l := l.roll p.column p.count .blockMappingStart
    some { l.indicator .value with allowsKey := false }
  | none => do
    let l ← l.startBlock? .blockMappingStart
    return { l.indicator .value with allowsKey := !l.inFlow }

/-- An anchor, alias or tag, which may start a key. -/
def property? (l : Lexer) (read : Option (Token × List Char)) : Option Lexer := do
  let l ← l.noteKey?
  let (t, rest) ← read
  return { (l.push t).moveTo rest with allowsKey := false }

def blockScalar? (literal : Bool) (l : Lexer) : Option Lexer := do
  let l ← l.dropKey?
  let (text, cursor) ← Yaml.block? literal l.indent l.cursor.next
  let style := if literal then Style.literal else .quoted
  return { l.push (.scalar text style) with cursor, allowsKey := true }

def quotedScalar? (quote : Char) (l : Lexer) : Option Lexer := do
  let l ← l.noteKey?
  let (text, cursor) ← Yaml.quoted? quote l.cursor.next
  return { l.push (.scalar text .quoted) with cursor, allowsKey := false }

def plainScalar? (l : Lexer) : Option Lexer := do
  let l ← l.noteKey?
  let (text, broken, cursor) ← Yaml.plain? l.inFlow (l.indent + 1).toNat l.cursor
  return { l.push (.scalar text .plain) with cursor, allowsKey := broken }

/-- A plain scalar may start here. -/
def startsPlain (inFlow : Bool) : List Char → Bool
  | [] => false
  | c :: cs =>
    let indicators := "-?:,[]\x7b\x7d#&*!|>'\"%@\x60".toList
    !(isBlank c || isBreak c || indicators.contains c)
      || (c = '-' && !cs.head?.any isBlank)
      || (!inFlow && (c = '?' || c = ':') && !endsWord cs)

/-- The token at the cursor. -/
def token? (l : Lexer) : Option Lexer :=
  let cs := l.cursor.rest
  let atStart := l.cursor.column = 0
  match cs with
  | [] => none
  | c :: rest =>
    if atStart && c = '%' then do
      let l ← l.leaveBlocks?
      let (t, rest) ← directive? rest
      return (l.push t).moveTo rest
    else if atStart && isDocumentMark cs then do
      let l ← l.leaveBlocks?
      return (l.push (if c = '-' then .documentStart else .documentEnd)).moveTo (cs.drop 3)
    else if c = '[' then l.openFlow? .flowSequenceStart
    else if c = '{' then l.openFlow? .flowMappingStart
    else if c = ']' then l.closeFlow? .flowSequenceEnd
    else if c = '}' then l.closeFlow? .flowMappingEnd
    else if c = ',' then do
      let l ← l.dropKey?
      return { l.indicator .flowEntry with allowsKey := true }
    else if c = '-' && endsWord rest then l.blockEntry?
    else if c = '?' && (l.inFlow || endsWord rest) then l.key?
    else if c = ':' && (l.inFlow || endsWord rest) then l.value?
    else if c = '*' then
      l.property? ((anchorName? rest).map fun (n, rest) => (.alias n, rest))
    else if c = '&' then
      l.property? ((anchorName? rest).map fun (n, rest) => (.anchor n, rest))
    else if c = '!' then l.property? (tag? l.inFlow cs)
    else if c = '|' && !l.inFlow then l.blockScalar? true
    else if c = '>' && !l.inFlow then l.blockScalar? false
    else if c = '\'' || c = '"' then l.quotedScalar? c
    else if startsPlain l.inFlow cs then l.plainScalar?
    else none

/-- Reads tokens to the end of the text. -/
def run? : Nat → Lexer → Option Lexer
  | 0, _ => none
  | fuel + 1, l => do
    let l ← (l.skipSpace (l.cursor.rest.length + 1)).forgetStale?
    if l.cursor.rest.isEmpty then (l.unroll (-1) l.outer).dropKey?
    else run? fuel (← (l.unroll l.cursor.column l.outer).token?)

end Lexer

/-- The tokens of a text. -/
def Token.ofText? (text : String) : Option (List Token) :=
  let cs := text.toList
  if cs.all isAllowed then
    let cs := unified cs
    ((Lexer.start cs).run? (2 * cs.length + 2)).map (·.tokens.toList)
  else none

end Docsmith.Data.Yaml
