import Docsmith.Source.Grammar.Type

/-!
# Patterns
-/

namespace Docsmith.Source.Grammar

open TokenKind

def identPat (withSub : Bool) : Rule Unit :=
  node .identPat do
    skip .refKw
    skip .mutKw
    nameOr stopsPattern
    if withSub then
      if ← eat .atSign then run (.onePattern stopsPattern)

def boxPat : Rule Unit :=
  node .boxPat do
    take .boxKw
    run (.onePattern stopsPattern)

def patternList (closing : TokenKind) : Rule Unit :=
  untilSees closing do
    run (.pattern stopsPattern)
    if ← eat .comma then return true
    if ← seesAny startsAlternatives then
      fault "expected a comma"
      return true
    return false

def recordPatField : Rule Unit := do
  let k ← current
  let next ← nth 1
  if (k = .ident || k = .int) && (next = .colon || next = .eq) then
    nameRefOrIndex
    if next = .colon then take .colon
    else wrapNext "expected a colon"
    run (.pattern stopsPattern)
  else
    match k with
    | .boxKw => boxPat
    | .refKw | .mutKw | .ident => identPat false
    | _ => wrapNext "expected identifier"

def recordPatFieldList : Rule Unit :=
  braced .recordPatFieldList do
    untilSees .rCurly do
      nodeIf do
        run (.attrs false)
        if ← sees .dot2 then
          take .dot2
          return some .restPat
        if ← sees .lCurly then
          errorBlock
          return none
        recordPatField
        return some .recordPatField
      if !(← sees .rCurly) then need .comma
      return true

def pathOrMacroPat : Rule Unit := do
  let isMacro ← group do
    path .inExpr
    match ← current with
    | .lParen =>
      take .lParen
      patternList .rParen
      need .rParen
      return (some .tupleStructPat, false)
    | .lCurly =>
      recordPatFieldList
      return (some .recordPat, false)
    | .bang =>
      discard macroArgs
      return (some .macroCall, true)
    | _ => return (some .pathPat, false)
  if isMacro then around .macroPat (pure ())

def tuplePat : Rule Unit :=
  nodeOf do
    take .lParen
    let leading ← eat .comma
    if leading then fault "expected a pattern"
    let (split, any, loose) ← iterate (leading, false, false) fun (split, any, loose) => do
      if (← seesEnd) || (← sees .rParen) then return (false, split, any, loose)
      if !(← seesAny startsAlternatives) then
        fault "expected a pattern"
        return (false, split, true, loose)
      let loose := loose || (← sees .dot2)
      run (.pattern stopsPattern)
      if ← sees .rParen then return (true, split, true, loose)
      need .comma
      return (true, true, true, loose)
    need .rParen
    return if !split && !loose && any then .parenPat else .tuplePat

/-- One pattern without ranges. Answers false if there is none. -/
def atomPat (stop : TokenKind → Bool) : Rule Bool := do
  match ← current with
  | .boxKw => boxPat
  | .refKw | .mutKw => identPat true
  | .constKw =>
    node .constBlockPat do
      take .constKw
      blockExpr
  | .ident =>
    match ← nth 1 with
    | .lParen | .lCurly | .bang => pathOrMacroPat
    | .colon => if ← seesAt 1 .colon2 then pathOrMacroPat else identPat true
    | _ => identPat true
  | .underscore => node .wildcardPat (take .underscore)
  | .amp =>
    node .refPat do
      take .amp
      skip .mutKw
      run (.onePattern stopsPattern)
  | .lParen => tuplePat
  | .lBrack =>
    node .slicePat do
      take .lBrack
      patternList .rBrack
      need .rBrack
  | k =>
    let next ← nth 1
    if ← seesPath then pathOrMacroPat
    else if (k = .minus && (next = .int || next = .float)) || k.startsLiteral then
      node .literalPat do
        skip .minus
        discard literal
    else
      recover "expected pattern" stop
      return false
  return true

def onePattern (stop : TokenKind → Bool) : Rule Unit := do
  if ← sees .dot2Eq then
    node .rangePat do
      take .dot2Eq
      discard (atomPat stop)
  else if ← sees .dot2 then
    nodeOf do
      take .dot2
      if ← seesAny startsRangeEnd then
        discard (atomPat stop)
        return .rangePat
      return .restPat
  else if ← atomPat stop then
    if let some op ← firstSeen id [dot3, dot2Eq, dot2] then
      around .rangePat do
        take op
        if !(← seesAny endsOpenRange) then discard (atomPat stop)

/-- Patterns separated by bars. -/
def pattern (stop : TokenKind → Bool) : Rule Unit :=
  nodeIf do
    let leading ← eat .pipe
    onePattern stop
    if !leading && !(← sees .pipe) then return none
    repeatWhile do
      if ← eat .pipe then
        onePattern stop
        return true
      return false
    return some .orPat

end Docsmith.Source.Grammar
