import Docsmith.Source.Lexer
import Docsmith.Text.Blank
import Docsmith.Text.Search

/-!
# The preamble of a file

A file may start with a line that names an interpreter, and behind it with a block of metadata
between two fences of dashes. Each of the two is one token. `Token.ofSource` reads them and the
tokens behind them.

* `Token.concat_ofSource`: the texts of the tokens of a file are that file.
-/

namespace Docsmith.Source

open Docsmith.Text

/-- What a file starts with: the size of the interpreter's line and that of the metadata, blank
lines in front of it included. Each is zero if there is none. -/
structure Preamble where
  interpreter : Nat
  metadata : Nat
  deriving DecidableEq, Repr

namespace Preamble

/-- The size of the first line with its line feed. -/
def lineSize (cs : List Char) : Nat :=
  min cs.length ((cs.takeWhile (· ≠ '\n')).length + 1)

/-- A first line that starts with `#!` names an interpreter, unless what follows the mark opens an
attribute. -/
def interpreterSize (cs : List Char) : Nat :=
  match cs with
  | '#' :: '!' :: rest => if (rest.dropWhile isWhite).head? = some '[' then 0 else lineSize cs
  | _ => 0

/-- The size of the blank lines a text starts with. -/
def blankLinesSize (cs : List Char) : Nat :=
  ((cs.takeWhile Lexer.isBlank).reverse.dropWhile (· ≠ '\n')).length

/-- What follows the line feed in front of a fence, if there is one. -/
def afterFence? (fence : List Char) : List Char → Option (List Char)
  | [] => none
  | c :: cs => afterStart? ('\n' :: fence) (c :: cs) <|> afterFence? fence cs

/-- The line of a closing fence holds nothing else than blanks and tabs. -/
def closesBlock (line : List Char) : Bool :=
  let line :=
    match line.reverse with
    | '\n' :: '\r' :: before => before
    | '\n' :: before => before
    | before => before
  line.all fun c => c = ' ' || c = '\t'

/-- The preamble of a file, or none if its fences do not match. A fence has three dashes or more,
and a file has at most one block between fences. -/
def ofChars? (cs : List Char) : Option Preamble := do
  let interpreter := interpreterSize cs
  let body := cs.drop interpreter
  let opening := body.drop (blankLinesSize body)
  let fence := opening.takeWhile (· = '-')
  if fence.isEmpty then return ⟨interpreter, 0⟩
  if fence.length < 3 then none
  else
    let behind ← afterFence? fence (opening.dropWhile (· ≠ '\n'))
    let size := lineSize behind
    let rest := behind.drop size
    if !closesBlock (behind.take size) then none
    else if (rest.drop (blankLinesSize rest)).head? = some '-' then none
    else return ⟨interpreter, body.length - rest.length⟩

/-! ## Files with broken fences -/

/-- A comment that is not part of the documentation. -/
def isPlainTrivia (t : Token) : Bool :=
  match t.kind with
  | .whitespace => true
  | .comment => !isDoc t.text.toList
  | _ => false
where
  isDoc : List Char → Bool
    | '/' :: '/' :: '!' :: _ => true
    | '/' :: '/' :: '/' :: c => c.head? ≠ some '/'
    | '/' :: '*' :: '!' :: _ => true
    | '/' :: '*' :: '*' :: c => c.head? ≠ some '*' && c.head? ≠ some '/'
    | _ => false

/-- The size of the interpreter's line in a file whose fences do not match. There a comment behind
the mark does not hide that an attribute follows, and the line ends before its line feed, and before
a carriage return in front of that. -/
def looseInterpreterSize (cs : List Char) : Nat :=
  match cs with
  | '#' :: '!' :: rest =>
    match (Token.lex rest).find? (!isPlainTrivia ·) with
    | some t => if t.kind = .lBrack then 0 else 2 + endOfLine rest
    | none => 2 + endOfLine rest
  | _ => 0
where
  endOfLine (cs : List Char) : Nat :=
    let line := cs.takeWhile (· ≠ '\n')
    if line.length < cs.length && line.getLast? = some '\r' then line.length - 1 else line.length

/-- The preamble of a file. Fences that do not match are read as operators. -/
def ofChars (cs : List Char) : Preamble :=
  (ofChars? cs).getD ⟨looseInterpreterSize cs, 0⟩

end Preamble

namespace Token

/-- The first `n` characters as one token, if there are any. -/
def block (kind : TokenKind) (n : Nat) (cs : List Char) : List Token :=
  if n = 0 then [] else [⟨kind, String.ofList (cs.take n), true⟩]

theorem concat_block (kind : TokenKind) (n : Nat) (cs : List Char) :
    concat (block kind n cs) = cs.take n := by
  by_cases h : n = 0 <;> simp [block, concat, h]

/-- The tokens of a source file. -/
def ofSource (source : String) : List Token :=
  let cs := source.toList
  let p := Preamble.ofChars cs
  let body := cs.drop p.interpreter
  block .shebang p.interpreter cs ++ block .frontmatter p.metadata body
    ++ lex (body.drop p.metadata)

theorem concat_ofSource (source : String) : concat (ofSource source) = source.toList := by
  simp only [ofSource, concat_append, concat_block, concat_lex, List.append_assoc,
    List.take_append_drop]

end Token

end Docsmith.Source
