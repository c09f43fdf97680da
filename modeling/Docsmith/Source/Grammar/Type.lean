import Docsmith.Source.Grammar.Path

/-!
# Types, attributes, generic parameters and where clauses
-/

namespace Docsmith.Source.Grammar

open TokenKind

/-- A colon and a type. -/
def ascription : Rule Unit := do
  take .colon
  if ← sees .eq then fault "missing type"
  else run (.anyType true)

/-! ## Attributes -/

/-- An attribute: a path, and an expression or a token tree behind it. -/
def attr (inner : Bool) : Rule Unit :=
  node .attr do
    take .pound
    if inner then take .bang
    if ← expect .lBrack then
      node .attrBody do
        let marked ← eat .unsafeKw
        if marked then need .lParen
        path .inAttr
        match ← current with
        | .eq =>
          take .eq
          discard expr
        | .lParen | .lBrack | .lCurly => run .tokenTree
        | _ => pure ()
        if marked then need .rParen
      need .rBrack

def outerAttrs : Rule Unit :=
  repeatWhile do
    if ← sees .pound then
      attr false
      return true
    return false

def innerAttrs : Rule Unit :=
  repeatWhile do
    if (← sees .pound) && (← nth 1) = .bang then
      attr true
      return true
    return false

/-! ## Generic parameters -/

def lifetimeParam : Rule Unit := do
  lifetime
  if ← sees .colon then bounds

def typeParam : Rule Unit := do
  name
  if ← sees .colon then bounds
  if ← eat .eq then run (.anyType true)

def constParam : Rule Unit := do
  take .constKw
  name
  if ← sees .colon then ascription
  else fault "missing type for const parameter"
  if ← eat .eq then constArg

def genericParam : Rule Bool :=
  group do
    outerAttrs
    match ← current with
    | .lifetimeIdent =>
      lifetimeParam
      return (some .lifetimeParam, true)
    | .ident =>
      typeParam
      return (some .typeParam, true)
    | .constKw =>
      constParam
      return (some .constParam, true)
    | _ =>
      wrapNext "expected generic parameter"
      return (none, false)

def optGenericParams : Rule Unit := do
  if ← sees .lAngle then
    node .genericParamList do
      delimited .lAngle .rAngle .comma startsGenericParam genericParam

/-! ## Where clauses -/

def forBinder : Rule Unit :=
  node .forBinder do
    take .forKw
    if ← sees .lAngle then optGenericParams
    else fault "expected generic parameters"

def wherePred : Rule Unit :=
  node .wherePred do
    if ← sees .lifetimeIdent then lifetime
    else
      if ← sees .forKw then forBinder
      run (.anyType true)
    if ← sees .colon then bounds
    else fault "expected colon"

def optWhereClause : Rule Unit := do
  if ← sees .whereKw then
    node .whereClause do
      take .whereKw
      repeatWhile do
        let k ← current
        if !k.startsType || k = .implKw then return false
        wherePred
        let comma ← eat .comma
        match ← current with
        | .lCurly | .semi | .eq => return false
        | _ =>
          if !comma then fault "expected comma"
          return true

/-! ## Types -/

def parenOrTupleType : Rule Unit :=
  nodeOf do
    take .lParen
    let (count, trailing) ← iterate (0, false) fun (count, trailing) => do
      if (← seesEnd) || (← sees .rParen) then return (false, count, trailing)
      run (.anyType true)
      let comma ← eat .comma
      return (comma, count + 1, comma)
    need .rParen
    return if count = 1 && !trailing then .parenType else .tupleType

def ptrType : Rule Unit :=
  node .ptrType do
    take .star
    match ← current with
    | .mutKw => take .mutKw
    | .constKw => take .constKw
    | _ => fault "expected mut or const"
    run (.anyType false)

def arrayOrSliceType : Rule Unit :=
  nodeOf do
    take .lBrack
    run (.anyType true)
    match ← current with
    | .rBrack =>
      take .rBrack
      return .sliceType
    | .semi =>
      take .semi
      node .constArg (discard expr)
      need .rBrack
      return .arrayType
    | _ =>
      fault "expected a length"
      return .sliceType

def refType : Rule Unit :=
  node .refType do
    take .amp
    if ← sees .lifetimeIdent then lifetime
    skip .mutKw
    run (.anyType false)

/-- Three dots in place of a type. -/
def variadic : Rule Bool := do
  if (← sees .colon) && (← seesAt 1 .dot3) then
    take .colon
    take .dot3
    return true
  return false

/-- The type of a parameter that needs one. -/
def paramType : Rule Unit := do
  if !(← variadic) then
    if ← sees .colon then ascription
    else fault "missing type for function parameter"

/-- A parameter of a function pointer, which need not have a name. -/
def fnPtrParam : Rule Unit := do
  if ← eat .dot3 then return
  if ((← sees .ident) || (← sees .underscore)) && (← nth 1) = .colon
      && !(← seesAt 1 .colon2) then
    run (.onePattern stopsPattern)
    paramType
  else run (.anyType true)

def fnPtrType : Rule Unit :=
  nodeIf do
    skip .unsafeKw
    if ← sees .externKw then abi
    if ← eat .fnKw then
      if ← sees .lParen then params .lParen .rParen noReceiver fnPtrParam
      else fault "expected parameters"
      discard optReturnType
      return some .fnPtrType
    fault "expected a function pointer"
    return none

def forType (withBounds : Bool) : Rule Unit := do
  node .forType do
    forBinder
    match ← current with
    | .fnKw | .unsafeKw | .externKw => pure ()
    | _ => if !(← seesPath) then fault "expected a function pointer or path"
    run (.anyType false)
  if withBounds then dynBounds

def pathType (withBounds : Bool) : Rule Unit := do
  node .pathType (path .inType)
  if withBounds then dynBounds

def pathOrMacroType (withBounds : Bool) : Rule Unit := do
  nodeOf do
    path .inType
    if (← sees .bang) && !(← sees .neq) then
      discard macroArgs
      enclose .macroCall
      return .macroType
    return .pathType
  if withBounds then dynBounds

def anyType (withBounds : Bool) : Rule Unit := do
  match ← current with
  | .lParen => parenOrTupleType
  | .bang => node .neverType (take .bang)
  | .star => ptrType
  | .lBrack => arrayOrSliceType
  | .amp => refType
  | .underscore => node .inferType (take .underscore)
  | .fnKw | .unsafeKw | .externKw => fnPtrType
  | .forKw => forType withBounds
  | .implKw =>
    node .implTraitType do
      take .implKw
      boundList
  | .dynKw =>
    node .dynTraitType do
      take .dynKw
      boundList
  | .lAngle => pathType withBounds
  | k =>
    if ← seesPath then pathOrMacroType withBounds
    else if k = .lifetimeIdent && (← seesAt 1 .plus) then node .dynTraitType boundList
    else recover "expected type" stopsType

end Docsmith.Source.Grammar
