import Docsmith.Source.Grammar.Type

/-!
# Built-in forms

A word with a hash sign behind it opens a form that has a grammar of its own: the offset of a
field, the arguments of a format, and assembly.
-/

namespace Docsmith.Source.Grammar

open TokenKind

def seesBuiltin : Rule Bool := do
  return (← seesWord "builtin") && (← seesAt 1 .pound)

def eatWord (w : String) : Rule Bool := do
  if ← seesWord w then
    take .ident
    return true
  return false

/-- The first of the words that is next is taken. -/
def eatOneOf : List String → Rule Bool
  | [] => return false
  | w :: ws => do if ← eatWord w then return true else eatOneOf ws

/-- A type, and the names of fields that lead into it. -/
def offsetArgs : Rule Unit := do
  need .lParen
  run (.anyType true)
  need .comma
  let wrapped ← eat .lParen
  untilSees .rParen do
    if ← seesAny isMemberName then nameRefOrIndex
    else wrapNext "expected a field name or number"
    if !(← sees .rParen) then need .dot
    return true
  if wrapped then need .rParen
  need .rParen

/-- A template, and arguments that may have names. -/
def formatArgs : Rule Unit := do
  need .lParen
  discard expr
  if ← eat .comma then
    untilSees .rParen do
      let found ← group do
        if (← sees .ident) && (← seesAt 1 .eq) then
          name
          take .eq
        let found ← expr
        return (if found then some .formatArg else none, found)
      if !found then return false
      if !(← sees .rParen) then need .comma
      return true
  need .rParen

/-! ## Assembly -/

/-- Words in parentheses. `word` answers whether the list goes on behind what it read. -/
def wordList (word : Rule Bool) : Rule Unit := do
  need .lParen
  repeatWhile do
    if (← eat .rParen) || (← seesEnd) then return false
    word

def asmOptions : Rule Unit :=
  wordList do
    if ← eatOneOf ["pure", "nomem", "readonly", "preserves_flags", "noreturn", "nostack",
        "may_unwind", "att_syntax", "raw"] then
      if ← eat .rParen then return false
      need .comma
    else wrapNext "expected an option"
    return true

def asmClobbers : Rule Unit :=
  wordList do
    if !(← expect .string) then return false
    if ← eat .rParen then return false
    need .comma
    return true

def asmRegister : Rule Unit := do
  need .lParen
  if ← sees .ident then nameRef
  else if ← sees .string then take .string
  else wrapNext "expected a register"
  need .rParen

/-- An operand behind its name. Answers false if there is none. -/
def asmOperand : Rule Bool := do
  if (← eat .inKw) || (← eatOneOf ["out", "lateout"]) then
    asmRegister
    discard expr
  else if ← eatOneOf ["inout", "inlateout"] then
    asmRegister
    discard expr
    if ← eat .fatArrow then discard expr
  else if ← eatWord "label" then blockExpr
  else if ← eat .constKw then discard expr
  else if ← eatWord "sym" then path .inType
  else return false
  return true

/-- A template, and what follows it: more of the template, then operands, options and clobbered
registers. -/
def asmArgs : Rule Unit := do
  need .lParen
  if !(← expr) then wrapNext "expected a template"
  discard <| iterate true fun templates => do
    if (← seesEnd) || (← sees .rParen) then return (false, templates)
    need .comma
    if ← sees .rParen then return (false, templates)
    if ← eatWord "clobber_abi" then
      asmClobbers
      return (true, false)
    if ← eatWord "options" then
      asmOptions
      return (true, false)
    let named := (← sees .ident) && (← seesAt 1 .eq)
    let found ← group do
      if named then
        name
        take .eq
      let found ← asmOperand
      return (if found then some .asmOperand else none, found)
    if found then return (true, false)
    if templates && !named then
      if !(← expr) then wrapNext "expected a template"
      return (true, true)
    wrapNext "expected an operand"
    if ← sees .lCurly then discard expr
    return (!(← sees .rCurly), false)
  need .rParen

/-- A built-in form. Answers false if its word is not known. -/
def builtinExpr : Rule Bool := do
  let known ← group do
    take .ident
    take .pound
    if ← eatWord "offset_of" then
      offsetArgs
      return (some .offsetExpr, true)
    if ← eatWord "format_args" then
      formatArgs
      return (some .formatExpr, true)
    if ← eatOneOf ["asm", "global_asm", "naked_asm"] then
      asmArgs
      return (some .asmExpr, true)
    return (none, false)
  return known

end Docsmith.Source.Grammar
