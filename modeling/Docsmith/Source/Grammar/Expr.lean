import Docsmith.Source.Grammar.Builtin
import Docsmith.Source.Grammar.Pattern

/-!
# Expressions

Binary operators bind by their power; a rule for one operand reads everything that binds tighter.
-/

namespace Docsmith.Source.Grammar

open TokenKind

def statementLimits : Limits := ⟨false, true⟩
def headLimits : Limits := ⟨true, false⟩

/-- The condition of a loop or a branch, or what is matched. -/
def headExpr : Rule Unit := run (.expr headLimits 1)

/-! ## Operators -/

/-- The operator in front, with its power and whether it groups to the right. -/
def operators : List (TokenKind × Nat × Bool) := [
  (pipe2, 3, false), (pipeEq, 1, true), (pipe, 6, false),
  (shrEq, 1, true), (shr, 9, false), (gtEq, 5, false), (rAngle, 5, false),
  (eq2, 5, false),
  (ltEq, 5, false), (shlEq, 1, true), (shl, 9, false), (lAngle, 5, false),
  (plusEq, 1, true), (plus, 10, false),
  (caretEq, 1, true), (caret, 7, false),
  (percentEq, 1, true), (percent, 11, false),
  (ampEq, 1, true), (amp2, 4, false), (amp, 8, false),
  (slashEq, 1, true), (slash, 11, false),
  (starEq, 1, true), (star, 11, false),
  (dot2Eq, 2, false), (dot2, 2, false),
  (neq, 5, false),
  (minusEq, 1, true), (minus, 10, false),
  (asKw, 12, false)]

def currentOperator : Rule (Option (TokenKind × Nat × Bool)) := do
  if (← current) = .eq && !(← sees .eq2) then
    return if ← sees .fatArrow then none else some (.eq, 1, true)
  firstSeen (·.1) operators

/-! ## Lists in brackets -/

def argList : Rule Unit :=
  node .argList do
    delimited .lParen .rParen .comma (fun k => k.startsExpr || k.startsAttr) expr

def recordExprField : Rule (Option NodeKind) := do
  run (.attrs false)
  match ← current with
  | .ident | .int =>
    if ← seesAt 1 .colon2 then
      need .dot2
      discard expr
      return none
    if ← seesAt 1 .dot2 then
      nameRefOrIndex
      fault "expected a colon"
    else
      if ← seesAt 1 .colon then
        nameRefOrIndex
        take .colon
      else if ← seesAt 1 .eq then
        nameRefOrIndex
        wrapNext "expected a colon"
      discard expr
    return some .recordExprField
  | .lCurly =>
    errorBlock
    return none
  | _ =>
    if ← eat .dot2 then
      if !(← sees .rCurly) then
        discard expr
        if ← sees .comma then fault "unexpected comma after the base"
    else wrapNext "expected identifier"
    return none

def recordExprFieldList : Rule Unit :=
  braced .recordExprFieldList do
    untilSees .rCurly do
      nodeIf recordExprField
      if !(← sees .rCurly) then need .comma
      return true

def tupleExpr : Rule Unit :=
  nodeOf do
    take .lParen
    let leading ← eat .comma
    if leading then fault "expected expression"
    let (split, any) ← iterate (leading, false) fun (split, any) => do
      if (← seesEnd) || (← sees .rParen) then return (false, split, any)
      if !(← expr) then return (false, split, true)
      if ← sees .rParen then return (true, split, true)
      need .comma
      return (true, true, true)
    need .rParen
    return if any && !split then .parenExpr else .tupleExpr

def arrayExpr : Rule Unit :=
  node .arrayExpr do
    take .lBrack
    discard <| iterate (0, false) fun (count, repeats) => do
      if (← seesEnd) || (← sees .rBrack) then return (false, count, repeats)
      if !(← expr) then return (false, count, repeats)
      if count = 0 then
        if ← eat .semi then return (true, count + 1, true)
      if repeats then return (false, count + 1, repeats)
      if ← sees .rBrack then return (true, count + 1, repeats)
      return (← expect .comma, count + 1, repeats)
    need .rBrack

/-! ## Atoms -/

def closureParam : Rule Unit := do
  run (.onePattern stopsPattern)
  if (← sees .colon) && !(← sees .colon2) then ascription

def closureExpr : Rule Unit :=
  node .closureExpr do
    if ← sees .forKw then node .closureBinder forBinder
    skip .constKw
    skip .staticKw
    skip .asyncKw
    skip .moveKw
    if ← sees .pipe then
      params .pipe .pipe noReceiver closureParam
      if ← optReturnType then blockExpr
      else if ← seesAny startsExpr then discard expr
      else fault "expected expression"
    else fault "expected a bar"

def ifExpr : Rule Unit :=
  node .ifExpr do
    take .ifKw
    headExpr
    blockExpr
    if ← eat .elseKw then
      if ← sees .ifKw then run .ifExpr else blockExpr

def loopBody : Rule NodeKind := do
  take .loopKw
  blockExpr
  return .loopExpr

def whileBody : Rule NodeKind := do
  take .whileKw
  headExpr
  blockExpr
  return .whileExpr

def forBody : Rule NodeKind := do
  take .forKw
  run (.pattern stopsPattern)
  need .inKw
  headExpr
  blockExpr
  return .forExpr

def labelled : Rule Bool :=
  group do
    node .labelMark do
      lifetime
      take .colon
    match ← current with
    | .loopKw => return (some (← loopBody), true)
    | .forKw => return (some (← forBody), true)
    | .whileKw => return (some (← whileBody), true)
    | .lCurly =>
      stmtList
      return (some .blockExpr, true)
    | _ =>
      fault "expected a loop or block"
      return (some .error, false)

def letExpr : Rule Unit :=
  node .letExpr do
    take .letKw
    run (.pattern stopsPattern)
    need .eq
    run (.expr headLimits 5)

def matchArm : Rule Unit :=
  node .matchArm do
    run (.attrs false)
    run (.pattern stopsArm)
    if ← sees .ifKw then
      node .matchGuard do
        take .ifKw
        if ← sees .eq then fault "expected expression"
        else discard expr
    need .fatArrow
    let body ← call (.expr statementLimits 1)
    if !(← eat .comma) && body ≠ .block && !(← sees .rCurly) then fault "expected a comma"

def matchArmList : Rule Unit :=
  braced .matchArmList do
    innerAttrs
    untilSees .rCurly do
      if ← sees .lCurly then errorBlock else matchArm
      return true

def matchExpr : Rule Unit :=
  node .matchExpr do
    take .matchKw
    headExpr
    if ← sees .lCurly then matchArmList
    else fault "expected match arms"

def tryExprBlock : Rule Unit :=
  node .blockExpr do
    take .tryKw
    if ← sees .lCurly then stmtList
    else fault "expected a block"

def breakExpr (limits : Limits) : Rule Unit :=
  node .breakExpr do
    take .breakKw
    if ← sees .lifetimeIdent then lifetime
    if (← seesAny startsExpr) && !(limits.noRecords && (← sees .lCurly)) then discard expr

def becomeExpr : Rule Unit :=
  node .becomeExpr do
    take .becomeKw
    discard expr

/-- A keyword and an expression that may be missing. -/
def leadingKeyword (kind : NodeKind) (keyword : TokenKind) : Rule Unit :=
  node kind do
    take keyword
    if ← seesAny startsExpr then discard expr

/-- A path, and what makes more of it: the fields of a record or the arguments of a macro. -/
def pathExpr (limits : Limits) : Rule Outcome := do
  let (isMacro, outcome) ← group do
    path .inExpr
    if (← sees .lCurly) && !limits.noRecords then
      recordExprFieldList
      return (some .recordExpr, false, .plain)
    if (← sees .bang) && !(← sees .neq) then
      let outcome ← macroArgs
      return (some .macroCall, true, outcome)
    return (some .pathExpr, false, .plain)
  if isMacro then around .macroExpr (pure ())
  return outcome

/-- A keyword in front of a block. -/
def markedBlock : Rule Unit :=
  node .blockExpr do
    takeOne fun k => k = .unsafeKw || k = .constKw || k = .asyncKw
    skip .moveKw
    stmtList

def atomExpr (limits : Limits) : Rule Outcome := do
  if ← literal then return .plain
  if ← seesBuiltin then return if ← builtinExpr then .plain else .nothing
  if ← seesPath then return ← pathExpr limits
  let next ← nth 1
  match ← current with
  | .lParen => tupleExpr
  | .lBrack => arrayExpr
  | .ifKw => ifExpr
  | .letKw => letExpr
  | .underscore => node .underscoreExpr (take .underscore)
  | .loopKw => nodeOf loopBody
  | .whileKw => nodeOf whileBody
  | .tryKw => tryExprBlock
  | .matchKw => matchExpr
  | .returnKw => leadingKeyword .returnExpr .returnKw
  | .becomeKw => becomeExpr
  | .yieldKw => leadingKeyword .yieldExpr .yieldKw
  | .continueKw =>
    node .continueExpr do
      take .continueKw
      if ← sees .lifetimeIdent then lifetime
  | .breakKw => breakExpr limits
  | .lifetimeIdent =>
    if next = .colon then
      if !(← labelled) then return .nothing
    else return ← missing
  | .lCurly => blockExpr
  | .unsafeKw => if next = .lCurly then markedBlock else return ← missing
  | .constKw => if next = .lCurly then markedBlock else closureExpr
  | .asyncKw =>
    if next = .lCurly || (next = .moveKw && (← nth 2) = .lCurly) then markedBlock
    else closureExpr
  | .forKw => if next = .lAngle then closureExpr else nodeOf forBody
  | .staticKw | .moveKw | .pipe => closureExpr
  | .doKw =>
    if ← seesWordAt 1 "yeet" then
      node .yeetExpr do
        take .doKw
        take .ident
        if ← seesAny startsExpr then discard expr
    else return ← missing
  | _ => return ← missing
  return if (← newest).any (·.isBlockLike) then .block else .plain
where
  missing : Rule Outcome := do
    recover "expected expression" stopsExpr
    return .nothing

/-! ## Behind an operand -/

/-- A field, a method call or an awaited value behind a dot. A number there may hold the next dot
as well. Answers false where the dot starts a range. -/
def dotExpr : Rule Bool := do
  let (_, found) ← iterate (false, true) fun (dotTaken, _) => do
    let second ← nth (if dotTaken then 0 else 1)
    let third := if dotTaken then 1 else 2
    let dot : Rule Unit := if dotTaken then pure () else take .dot
    if second.isSegmentName && ((← nth third) = .lParen || (← seesAt third .colon2)) then
      around .methodCallExpr do
        dot
        segmentName
        exprArgs
        if ← sees .lParen then argList
        else fault "expected argument list"
      return (false, false, true)
    if second = .awaitKw then
      around .awaitExpr do
        dot
        take .awaitKw
      return (false, false, true)
    if (← sees .dot2Eq) || (← sees .dot2) then return (false, false, false)
    around .fieldExpr do
      dot
      if ← seesAny isMemberName then nameRefOrIndex
      else if ← sees .float then
        let text ← look fun ts => (ts.head?.map (·.text)).getD ""
        take .float
        return (text.endsWith ".", true, true)
      else fault "expected field name or number"
      return (false, false, true)
  return found

/-- Calls, indices, fields and question marks behind the newest operand. -/
def postfixExpr (outcome : Outcome) (mayCall : Bool) : Rule Outcome := do
  let (outcome, _) ← iterate (outcome, mayCall) fun (outcome, mayCall) => do
    match ← current with
    | .lParen =>
      if !mayCall then return (false, outcome, mayCall)
      around .callExpr argList
    | .lBrack =>
      if !mayCall then return (false, outcome, mayCall)
      around .indexExpr do
        take .lBrack
        discard expr
        need .rBrack
    | .dot =>
      if !(← dotExpr) then return (false, outcome, mayCall)
    | .question => around .tryExpr (take .question)
    | _ => return (false, outcome, mayCall)
    return (true, .plain, true)
  return outcome

/-- An operand with the operators in front of it. -/
def operand (limits : Limits) : Rule Outcome := do
  match ← current with
  | .amp =>
    node .refExpr do
      take .amp
      if ← seesWord "raw" then
        match ← nth 1 with
        | .mutKw =>
          take .ident
          take .mutKw
        | .constKw =>
          take .ident
          take .constKw
        | .ident =>
          take .ident
          fault "expected mut or const"
        | _ => pure ()
      else skip .mutKw
      run (.expr limits 255)
    return .plain
  | .star | .bang | .minus =>
    node .prefixExpr do
      takeOne fun k => k = .star || k = .bang || k = .minus
      run (.expr limits 255)
    return .plain
  | _ =>
    if let some op ← firstSeen id [dot2Eq, dot2] then
      node .rangeExpr do
        take op
        let access := (← sees .dot) && (← nth 1) = .ident
        let blocked := limits.noRecords && (← sees .lCurly)
        if (← seesAny startsExpr) && !access && !blocked then run (.expr limits 2)
      return .plain
    let outcome ← atomExpr limits
    if outcome = .nothing then return .nothing
    postfixExpr outcome (!(limits.asStatement && outcome = .block))

/-- The operators behind an operand that bind at least as tightly as `power`. -/
def operatorTail (limits : Limits) (power : Nat) : Rule Unit :=
  discard <| iterate limits fun limits => do
    match ← currentOperator with
    | none => return (false, limits)
    | some (op, opPower, right) =>
      if opPower < power then return (false, limits)
      if op = .asKw then
        around .castExpr do
          take .asKw
          run (.anyType false)
        return (true, limits)
      let limits := { limits with asStatement := false }
      let isRange := op = .dot2 || op = .dot2Eq
      let more ← around (if isRange then .rangeExpr else .binExpr) do
        take op
        if isRange && (!(← seesAny startsExpr) || (limits.noRecords && (← sees .lCurly))) then
          return false
        run (.expr limits (if right then opPower else opPower + 1))
        return true
      return (more, limits)

/-- An expression in the node that holds its attributes. -/
def exprHere (limits : Limits) (power : Nat) : Rule Outcome := do
  if !(← seesAny startsExpr) then
    recover "expected expression" stopsExpr
    return .nothing
  let outcome ← operand limits
  if outcome = .nothing then return .nothing
  absorb
  if limits.asStatement && outcome = .block then return .block
  operatorTail limits power
  return .plain

def exprWithAttrs (limits : Limits) (power : Nat) : Rule Outcome :=
  group do
    run (.attrs false)
    return (none, ← exprHere limits power)

/-! ## Statements -/

/-- Whether a statement must be closed with a semicolon. -/
def letBody (mustClose : Bool) : Rule Unit := do
  skip .superKw
  take .letKw
  run (.pattern stopsPattern)
  if ← sees .colon then ascription
  if ← eat .eq then discard expr
  if ← sees .elseKw then
    node .letElse do
      take .elseKw
      blockExpr
  if mustClose then need .semi else skip .semi

end Docsmith.Source.Grammar
