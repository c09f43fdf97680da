import Docsmith.Source.Edit
import Docsmith.Source.File

/-!
# Layout

Where a new piece of a declaration goes, and how it is indented. A list that is spread over lines
keeps its indentation; a list on one line is spread.
-/

namespace Docsmith.Source

/-- What follows the last line break of a text. -/
def afterLastBreak? (cs : List Char) : Option (List Char) :=
  if cs.contains '\n' then some (cs.reverse.takeWhile (· ≠ '\n')).reverse else none

/-- The blanks and tabs the line of a position starts with. -/
def indentAt (cs : List Char) (position : Nat) : List Char :=
  let line := ((cs.take position).reverse.takeWhile (· ≠ '\n')).length
  (cs.drop (position - line)).takeWhile fun c => c = ' ' || c = '\t'

def fourBlanks : List Char := [' ', ' ', ' ', ' ']

namespace File

/-- The indentation of a token that starts a line. -/
def breakIndent? (f : File) (position : Nat) : Option (List Char) :=
  match f.previous? position with
  | some l => if l.kind = .whitespace then afterLastBreak? l.text.toList else none
  | none => none

/-- The indentation of a node that starts a line. -/
def indentOf? (f : File) (l : Located) : Option (List Char) :=
  l.firstLeaf.bind fun leaf => f.breakIndent? leaf.start

/-- The blanks in front of a position. -/
def gapBefore? (f : File) (position : Nat) : Option Leaf :=
  (f.previous? position).filter (·.kind = .whitespace)

/-- Reading backwards, an element comes before an opening bracket or a comma. -/
def lacksComma : List (Option Leaf) → Bool
  | [] => false
  | none :: _ => false
  | some l :: rest =>
    match l.kind with
    | .whitespace | .comment => lacksComma rest
    | .lCurly | .lBrack | .lParen | .comma => false
    | _ => true

/-- Puts a block in front of a closing token. If that stands on the last element's line, it moves
to a line of its own. -/
def insertBlock (f : File) (closing : Nat) (outer block : List Char) : Edit :=
  match f.gapBefore? closing with
  | some gap =>
    if gap.text.contains '\n' then .insert gap.start block
    else ⟨gap.start, gap.start + gap.text.length, block ++ '\n' :: outer⟩
  | none => .insert closing (block ++ '\n' :: outer)

/-- Adds items to a list in front of the token at `closing`, one on each line. -/
def appendItems (f : File) (source : List Char) (closing : Nat) (items : List (List Char))
    (inner : Option (List Char)) : Edit :=
  let outer := indentAt source closing
  let indent := inner.getD (outer ++ fourBlanks)
  let comma := if lacksComma (f.before closing) then [','] else []
  let lines := items.flatMap fun item => '\n' :: indent ++ item ++ [',']
  f.insertBlock closing outer (comma ++ lines)

/-- Puts an attribute in front of a declaration, behind the attributes and comments it has. -/
def insertAttr? (f : File) (l : Located) (attr : List Char) : Option Edit := do
  let content ← l.children.find? fun c =>
    c.kind? ≠ some .attr && c.tokenKind? ≠ some .comment && c.tokenKind? ≠ some .whitespace
  let first ← content.firstLeaf
  let separator :=
    match f.breakIndent? first.start with
    | some indent => '\n' :: indent
    | none => [' ']
  return .insert first.start (attr ++ separator)

end File

end Docsmith.Source
