import Docsmith.Source.Grammar.Basic
import Docsmith.Source.Grammar.First

/-!
# Names, literals, blocks and token trees
-/

namespace Docsmith.Source.Grammar

open TokenKind

def nameOr (stop : TokenKind → Bool) : Rule Unit := do
  if ← sees .ident then node .name (take .ident)
  else recover "expected a name" stop

def name : Rule Unit := nameOr stopsNothing

def nameRef : Rule Unit := do
  if ← sees .ident then node .nameRef (take .ident)
  else wrapNext "expected identifier"

def nameRefOrIndex : Rule Unit := node .nameRef (takeOne fun k => k.isMemberName)

/-- A segment of a path. -/
def segmentName : Rule Unit := do
  if ← seesAny isSegmentName then node .nameRef (takeOne isSegmentName)
  else wrapNext "expected a segment of a path"

def nameRefOrSelf : Rule Unit := do
  match ← current with
  | .ident | .selfKw => node .nameRef (takeOne isSegmentName)
  | _ => wrapNext "expected identifier or self"

def lifetime : Rule Unit := node .lifetime (take .lifetimeIdent)

def optRename : Rule Unit := do
  if ← sees .asKw then
    node .rename do
      take .asKw
      if !(← eat .underscore) then name

def optReturnType : Rule Bool := do
  if ← sees .thinArrow then
    node .retType do
      take .thinArrow
      run (.anyType false)
    return true
  return false

def abi : Rule Unit :=
  node .abi do
    take .externKw
    skip .string

/-! ## Token trees -/

/-- What stands between a bracket and its partner. A stray closing brace ends every open tree. -/
def trees (closing : TokenKind) : Rule Unit :=
  untilSees closing do
    match ← current with
    | .lCurly | .lParen | .lBrack =>
      run .tokenTree
      return true
    | .rCurly => return false
    | .rParen | .rBrack =>
      wrapNext "unmatched bracket"
      return true
    | _ =>
      takeOne fun k => k ≠ .rCurly
      return true

/-- A bracket and everything up to its partner. -/
def tokenTree : Rule Unit := do
  match ← current with
  | .lCurly => braced .tokenTree (trees .rCurly)
  | .lParen =>
    node .tokenTree do
      take .lParen
      trees .rParen
      need .rParen
  | _ =>
    node .tokenTree do
      take .lBrack
      trees .rBrack
      need .rBrack

/-- The arguments of a macro call, from the exclamation mark on. -/
def macroArgs : Rule Outcome := do
  need .bang
  match ← current with
  | .lCurly =>
    run .tokenTree
    return .block
  | .lParen | .lBrack =>
    run .tokenTree
    return .plain
  | _ =>
    fault "expected a bracket"
    return .plain

/-! ## Expressions, literals and blocks -/

def free : Limits := ⟨false, false⟩

/-- An expression of any form. Answers false if there is none. -/
def expr : Rule Bool := return (← call (.expr free 1)) ≠ .nothing

def literal : Rule Bool := do
  if ← seesAny startsLiteral then
    node .literal (takeOne startsLiteral)
    return true
  return false

/-- Statements in braces. -/
def stmtList : Rule Unit :=
  braced .stmtList (run .statements)

def blockExpr : Rule Unit := do
  if ← sees .lCurly then node .blockExpr stmtList
  else fault "expected a block"

/-- A brace where no block can stand. -/
def errorBlock : Rule Unit := do
  fault "unexpected block"
  braced .error (run .statements)

end Docsmith.Source.Grammar
