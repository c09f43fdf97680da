import Docsmith.Source.Grammar.Name

/-!
# Paths, generic arguments and bounds
-/

namespace Docsmith.Source.Grammar

open TokenKind

/-- Where a path stands, which settles what may follow its segments. -/
inductive PathPlace where
  | inUse | inAttr | inType | inExpr | inVisibility
  deriving DecidableEq

def PathPlace.stops : PathPlace → TokenKind → Bool
  | .inUse, k => k.startsItem
  | .inAttr, k => k.startsItem || k = rBrack || k = eq || k = pound
  | .inVisibility, k => k.startsItem || k = rParen
  | .inType, k => k.stopsType
  | .inExpr, k => k.startsItem || k.stopsExpr || k = letKw

def seesUsePath : Rule Bool := do
  match ← current with
  | .ident | .selfKw | .superKw | .crateKw => return true
  | .colon => sees .colon2
  | _ => return false

def seesPath : Rule Bool := do
  return (← seesUsePath) || (← sees .lAngle) || (← sees .selfTypeKw)

/-- A list of parameters between two brackets. `param` reads one behind its attributes. The first
may instead be the receiver, which `receiver` reads if it is there. -/
def params (opening closing : TokenKind) (receiver : Rule Bool) (param : Rule Unit) : Rule Unit :=
  node .paramList do
    take opening
    discard <| iterate true fun first => do
      if (← seesEnd) || (← sees closing) then return (false, false)
      let kind ← group do
        run (.attrs false)
        if first then
          if ← receiver then return (some .selfParam, some .selfParam)
        if ← seesAny startsParamOrAttr then
          param
          return (some .param, some NodeKind.param)
        fault "expected a parameter"
        return (none, none)
      if kind = some .selfParam then
        if !(← sees closing) then need .comma
        return (true, false)
      if ← eat .comma then return (true, false)
      if kind = none then return (false, false)
      if ← seesAny startsParamOrAttr then
        fault "expected a comma"
        return (true, false)
      return (false, false)
    need closing
where
  startsParamOrAttr (k : TokenKind) : Bool := k.startsParam || k.startsAttr

/-- No receiver. -/
def noReceiver : Rule Bool := return false

def typeArg : Rule Unit := node .typeArg (run (.anyType true))

/-- Arguments in angle brackets, if they follow a double colon. -/
def exprArgs : Rule Unit := do
  if (← sees .colon2) && (← nth 2) = .lAngle then
    node .genericArgList do
      take .colon2
      run .genericArgs

/-- Arguments in angle brackets, or types in parentheses and the type answered, if they follow. A
pair of dots in parentheses stands for whatever the types are. -/
def typeArgs : Rule Unit := do
  let third ← nth 2
  let colons := (← sees .colon2) && (third = .lAngle || third = .lParen)
  if colons || (← sees .lParen) || ((← sees .lAngle) && (← nth 1) ≠ .eq) then
    let answers ← group do
      if colons then take .colon2
      if ← sees .lAngle then
        run .genericArgs
        return (some .genericArgList, false)
      else if ← seesAt 1 .dot2 then
        take .lParen
        take .dot2
        need .rParen
        return (some .returnTypeArgs, false)
      else
        delimited .lParen .rParen .comma startsType do
          let more ← seesAny startsType
          typeArg
          return more
        return (some .parenArgList, true)
    if answers then discard optReturnType

def pathArgs : PathPlace → Rule Unit
  | .inType => typeArgs
  | .inExpr => exprArgs
  | _ => pure ()

/-- One segment of a path. Answers false if there is none. -/
def pathSegment (place : PathPlace) (first : Bool) : Rule Bool :=
  group do
    if first && (← sees .lAngle) then
      take .lAngle
      run (.anyType true)
      if ← eat .asKw then
        if ← seesUsePath then run (.pathType true)
        else fault "expected a trait"
      need .rAngle
      if !(← sees .colon2) then fault "expected a path separator"
      return (some .pathSegment, true)
    if first then skip .colon2
    if ← seesAny isSegmentName then
      segmentName
      pathArgs place
      return (some .pathSegment, true)
    recover "expected identifier" place.stops
    if first then return (some .pathSegment, true)
    return (none, false)

/-- The segments behind the newest path. -/
def pathTail (place : PathPlace) : Rule Unit :=
  repeatWhile do
    let third ← nth 2
    if (← sees .colon2) && !(place = .inUse && (third = .star || third = .lCurly)) then
      around .path do
        take .colon2
        discard (pathSegment place false)
      return true
    return false

def path (place : PathPlace) : Rule Unit := do
  if ← group do
    let found ← pathSegment place true
    return (if found then some .path else none, found)
  then pathTail place

/-! ## Bounds -/

/-- A list of names in angle brackets that an opaque type may use. -/
def useBoundArgs : Rule Unit :=
  node .useBoundArgs do
    delimited .lAngle .rAngle .comma
      (fun k => k = .selfTypeKw || k = .ident || k = .lifetimeIdent) do
      match ← current with
      | .selfTypeKw | .ident => node .nameRef (takeOne isSegmentName)
      | .lifetimeIdent => lifetime
      | _ => wrapNext "expected a name or a lifetime"
      return true

/-- A trait with its modifiers. Answers false if no path follows them. -/
def traitBound : Rule Bool := do
  if ← eat .tilde then need .constKw
  else if ← eat .lBrack then
    need .constKw
    need .rBrack
  else skip .constKw
  skip .asyncKw
  skip .question
  if !(← seesUsePath) then return false
  run (.pathType false)
  if ← sees .bang then
    node .error do
      take .bang
      fault "unexpected macro call"
      match ← current with
      | .lCurly | .lBrack | .lParen => run .tokenTree
      | _ => pure ()
  return true

/-- One bound. Answers false if there is none. -/
def typeBound : Rule Bool :=
  group do
    let inParens ← eat .lParen
    let found ←
      match ← current with
      | .lifetimeIdent => do
        lifetime
        pure true
      | .forKw => do
        run .forBinder
        traitBound
      | .useKw => do
        let listed ← seesAt 1 .lAngle
        if listed then
          take .useKw
          useBoundArgs
        pure listed
      | _ => traitBound
    if !found then return (none, false)
    if inParens then need .rParen
    return (some .typeBound, true)

/-- Bounds joined by plus signs. -/
def boundsTail : Rule Unit :=
  repeatWhile do
    if ← typeBound then eat .plus else return false

def boundList : Rule Unit := node .typeBoundList boundsTail

def bounds : Rule Unit := do
  need .colon
  boundList

/-- A plus sign behind the newest type makes it the first of several bounds. -/
def dynBounds : Rule Unit := do
  if ← sees .plus then
    around .typeBound (pure ())
    around .typeBoundList do
      take .plus
      boundsTail
    around .dynTraitType (pure ())

/-! ## Generic arguments -/

/-- A constant argument: a block, a literal, a negative number or a path. -/
def constArg : Rule Unit :=
  node .constArg do
    match ← current with
    | .lCurly => blockExpr
    | .minus =>
      node .prefixExpr do
        take .minus
        discard literal
    | k =>
      if k.startsLiteral then discard literal
      else if ← seesPath then node .pathExpr (path .inExpr)
      else recover "expected a constant argument" stopsGenericArg

/-- An argument that starts with a name: the value or the bounds of an associated type, or a
type. -/
def namedArg : Rule NodeKind := do
  nameRef
  typeArgs
  if ← eat .eq then
    if ← seesAny startsType then run (.anyType true)
    else if ← seesAny stopsGenericArg then fault "missing value of an associated item"
    else constArg
    return .assocTypeArg
  if (← sees .colon) && !(← sees .colon2) then
    bounds
    return .assocTypeArg
  enclose .pathSegment
  enclose .path
  pathTail .inType
  if (← sees .bang) && !(← sees .neq) then
    discard macroArgs
    enclose .macroCall
    enclose .macroType
  else enclose .pathType
  dynBounds
  return .typeArg

/-- One generic argument. Answers false where none can start. -/
def genericArg : Rule Bool := do
  match ← current with
  | .lifetimeIdent => if ← seesAt 1 .plus then typeArg else node .lifetimeArg lifetime
  | .lCurly | .trueKw | .falseKw | .minus => constArg
  | .ident => nodeOf namedArg
  | k =>
    if k.isLiteral then constArg
    else if k.startsType then typeArg
    else return false
  return true

def genericArgs : Rule Unit :=
  delimited .lAngle .rAngle .comma startsGenericArg genericArg

end Docsmith.Source.Grammar
