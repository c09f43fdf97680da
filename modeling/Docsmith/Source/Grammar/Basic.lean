import Docsmith.Source.Grammar.First
import Docsmith.Source.Tree

/-!
# Rules of the grammar

A rule reads tokens off the front of the input and adds outlines to the node that is being built.
It never fails: where the input does not fit, it notes a fault and goes on. Rules call one another
through `Goal`, so each of them is an ordinary function, and `Docsmith.Source.Grammar` ties the
knot.
-/

namespace Docsmith.Source.Grammar

/-- A token the grammar sees. `glued` holds when it follows the one before it without a gap. -/
structure Input where
  kind : TokenKind
  text : String
  glued : Bool
  deriving DecidableEq, Repr, Inhabited

/-- The tokens that are neither blank nor comment. -/
def Input.ofTokens : Bool → List Token → List Input
  | _, [] => []
  | glued, t :: ts =>
    if t.kind.isTrivia then ofTokens false ts
    else ⟨t.kind, t.text, glued⟩ :: ofTokens true ts

/-- The input that is left, and the outlines of the node being built, newest first. -/
structure State where
  rest : List Input
  siblings : List Outline
  faults : List String

/-- What an expression may look like where it stands. -/
structure Limits where
  /-- A brace after a path opens a block, as in the condition of a loop. -/
  noRecords : Bool
  /-- An expression that ends with a block is a statement of its own. -/
  asStatement : Bool

/-- The rules that others call before they are defined. -/
inductive Goal where
  | tokenTree
  /-- Attributes of what follows, or of what encloses them. -/
  | attrs (inner : Bool)
  | useTree (top : Bool)
  | anyType (bounds : Bool)
  /-- A type that is a path; a plus sign behind it may add bounds. -/
  | pathType (bounds : Bool)
  /-- Arguments in angle brackets. -/
  | genericArgs
  | forBinder
  | pattern (stop : TokenKind → Bool)
  | onePattern (stop : TokenKind → Bool)
  /-- An expression with its attributes, in which operators bind at least this tightly. -/
  | expr (limits : Limits) (power : Nat)
  /-- The same, in the node that already holds the attributes. -/
  | exprHere (limits : Limits) (power : Nat)
  | ifExpr
  | statements
  | item (inBraces inExtern : Bool)

/-- What a rule has added: nothing, something, or something that ends with a block. -/
inductive Outcome where
  | nothing | plain | block
  deriving DecidableEq, Inhabited

abbrev Step := StateM State

abbrev Rule := ReaderT (Goal → Step Outcome) Step

def call (g : Goal) : Rule Outcome := fun solve => solve g

/-- Calls a rule for what it adds. -/
def run (g : Goal) : Rule Unit := discard (call g)

/-! ## Looking at the input -/

/-- The tokens that rules look at. -/
def ahead : List Input → List Input
  | [] => []
  | t :: ts =>
    t :: match ts with
      | [] => []
      | u :: _ => if t.kind.seals || u.kind.hides then [] else ahead ts

def look {β : Type} (d : List Input → β) : Rule β := do
  return d (ahead (← get).rest)

def nth (n : Nat) : Rule TokenKind :=
  look fun ts => (ts[n]?.map (·.kind)).getD .eof

def current : Rule TokenKind := nth 0

/-- Glued tokens of the given kinds come next. -/
def continuesWith : List TokenKind → List Input → Bool
  | [], _ => true
  | k :: ks, t :: ts => t.kind = k && t.glued && continuesWith ks ts
  | _ :: _, [] => false

/-- The input starts with the characters of an operator, without gaps. -/
def startsWith : List TokenKind → List Input → Bool
  | [], _ => true
  | k :: ks, t :: ts => t.kind = k && continuesWith ks ts
  | _ :: _, [] => false

def seesAt (n : Nat) (k : TokenKind) : Rule Bool :=
  look fun ts => startsWith k.parts (ts.drop n)

def sees (k : TokenKind) : Rule Bool := seesAt 0 k

def seesAny (p : TokenKind → Bool) : Rule Bool := return p (← current)

/-- The first of some candidates whose token comes next. -/
def firstSeen {β : Type} (kind : β → TokenKind) : List β → Rule (Option β)
  | [] => return none
  | b :: bs => do if ← sees (kind b) then return some b else firstSeen kind bs

/-- An identifier with a meaning in this place. -/
def seesWordAt (n : Nat) (w : String) : Rule Bool :=
  look fun ts => ts[n]?.any fun t => t.kind = .ident && t.text = w

def seesWord (w : String) : Rule Bool := seesWordAt 0 w

def seesEnd : Rule Bool := look List.isEmpty

/-! ## Taking tokens -/

def fault (message : String) : Rule Unit :=
  modify fun s => { s with faults := message :: s.faults }

/-- Takes the tokens of `k`, which the input is known to start with. -/
def take (k : TokenKind) : Rule Unit := do
  if ← sees k then
    modify fun s =>
      { s with rest := s.rest.drop k.parts.length, siblings := .leaf k k.parts.length :: s.siblings }
  else fault "unexpected token"

/-- Takes one token, whatever it is. -/
def takeAny : Rule Unit :=
  modify fun s =>
    match s.rest with
    | [] => s
    | t :: rest => { s with rest := rest, siblings := .leaf t.kind 1 :: s.siblings }

/-- Takes one token, which is known to be one of those wanted. -/
def takeOne (wanted : TokenKind → Bool) : Rule Unit := do
  if ← seesAny wanted then takeAny else fault "unexpected token"

def eat (k : TokenKind) : Rule Bool := do
  if ← sees k then
    take k
    return true
  return false

def skip (k : TokenKind) : Rule Unit := discard (eat k)

def expect (k : TokenKind) : Rule Bool := do
  if ← eat k then return true
  fault "unexpected token"
  return false

def need (k : TokenKind) : Rule Unit := discard (expect k)

/-! ## Building nodes -/

/-- Collects what `body` adds under the kind it answers, or leaves it where it is. -/
def group {α : Type} (body : Rule (Option NodeKind × α)) : Rule α := do
  let outer := (← get).siblings
  modify fun s => { s with siblings := [] }
  let (kind, a) ← body
  modify fun s =>
    { s with
      siblings :=
        match kind with
        | some k => .node k s.siblings.reverse :: outer
        | none => s.siblings ++ outer }
  return a

abbrev node {α : Type} (kind : NodeKind) (body : Rule α) : Rule α :=
  group do return (some kind, ← body)

abbrev nodeOf (body : Rule NodeKind) : Rule Unit :=
  group do return (some (← body), ())

abbrev nodeIf (body : Rule (Option NodeKind)) : Rule Unit :=
  group do return (← body, ())

/-- Starts a node with the newest outline inside it. -/
def around {α : Type} (kind : NodeKind) (body : Rule α) : Rule α := do
  let siblings := (← get).siblings
  modify fun s => { s with siblings := siblings.drop 1 }
  node kind do
    modify fun s => { s with siblings := siblings.take 1 }
    body

/-- Puts all that this node holds so far into one node. -/
def enclose (kind : NodeKind) : Rule Unit :=
  modify fun s => { s with siblings := [.node kind s.siblings.reverse] }

/-- Moves the older outlines of this node, its attributes, into the newest one, an expression. -/
def absorb : Rule Unit :=
  modify fun s =>
    match s.siblings with
    | .node k cs :: older =>
      if k.isExpr then { s with siblings := [.node k (older.reverse ++ cs)] } else s
    | _ => s

/-- The kind of the newest outline. -/
def newest : Rule (Option NodeKind) := do
  match (← get).siblings with
  | .node k _ :: _ => return some k
  | _ => return none

/-- Repeats `body`, at most `n` times, while it answers true with its new value. -/
def iterateUpTo {α : Type} : Nat → α → (α → Rule (Bool × α)) → Rule α
  | 0, a, _ => do
    fault "too many rounds"
    return a
  | n + 1, a, body => do
    let (more, a) ← body a
    if more then iterateUpTo n a body else return a

/-- Repeats `body` while it answers true. Every second round takes a token. -/
def iterate {α : Type} (a : α) (body : α → Rule (Bool × α)) : Rule α := do
  iterateUpTo (2 * (← get).rest.length + 2) a body

abbrev repeatWhile (body : Rule Bool) : Rule Unit :=
  iterate () fun _ => return (← body, ())

/-- Repeats `body`, which answers whether to go on, up to a closing token or the end. -/
abbrev untilSees (close : TokenKind) (body : Rule Bool) : Rule Unit :=
  repeatWhile do
    if (← sees close) || (← seesEnd) then return false
    body

/-! ## Recovery -/

/-- Wraps the next token in an error node. -/
def wrapNext (message : String) : Rule Unit :=
  node .error do
    fault message
    takeAny

/-- Wraps the next token in an error node, unless it is a brace or the caller can go on from it. -/
def recover (message : String) (stop : TokenKind → Bool) : Rule Unit := do
  let k ← current
  if k = .lCurly || k = .rCurly || stop k then fault message else wrapNext message

/-- The elements of a list up to its closing bracket. `element` answers false where nothing more can
be read. -/
abbrev elements (closing separator : TokenKind) (starts : TokenKind → Bool) (element : Rule Bool) :
    Rule Unit :=
  untilSees closing do
    if ← sees separator then
      node .error do
        fault "unexpected separator"
        take separator
      return true
    if !(← element) then return false
    if ← eat separator then return true
    if ← seesAny starts then
      fault "expected a separator"
      return true
    return false

/-- A list in brackets. -/
abbrev delimited (opening closing separator : TokenKind) (starts : TokenKind → Bool)
    (element : Rule Bool) : Rule Unit := do
  take opening
  elements closing separator starts element
  need closing

/-- A node in braces. -/
def braced (kind : NodeKind) (body : Rule Unit) : Rule Unit :=
  node kind do
    take .lCurly
    body
    need .rCurly

end Docsmith.Source.Grammar
