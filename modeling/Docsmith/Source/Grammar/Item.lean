import Docsmith.Source.Grammar.Expr

/-!
# Items and statements
-/

namespace Docsmith.Source.Grammar

open TokenKind

/-- A visibility. Inside a tuple, parentheses behind `pub` may belong to the type. -/
def optVisibility (inTuple : Bool) : Rule Bool := do
  if !(← sees .pubKw) then return false
  node .visibility do
    take .pubKw
    if ← sees .lParen then
      let next ← nth 1
      match next with
      | .crateKw | .selfKw | .superKw | .ident | .rParen =>
        if (← nth 2) ≠ .colon && !(inTuple && (next = .ident || next = .rParen)) then
          take .lParen
          path .inVisibility
          need .rParen
      | .inKw =>
        take .lParen
        take .inKw
        path .inVisibility
        need .rParen
      | _ => pure ()
  return true

/-! ## Use trees -/

def useTreeList : Rule Unit :=
  braced .useTreeList do
    elements .rCurly .comma startsUseTree do
      if (← call (.useTree false)) ≠ .nothing then return true
      seesAny stopsUseTree

/-- A tree of imported names. -/
def useTree (top : Bool) : Rule Outcome :=
  group do
    if ← eat .star then return (some .useTree, .plain)
    if ← sees .lCurly then
      useTreeList
      return (some .useTree, .plain)
    if ← sees .colon2 then
      match ← nth 2 with
      | .star =>
        take .colon2
        take .star
        return (some .useTree, .plain)
      | .lCurly =>
        take .colon2
        useTreeList
        return (some .useTree, .plain)
      | _ => pure ()
    if ← seesUsePath then
      path .inUse
      if ← sees .asKw then optRename
      else if ← eat .colon2 then
        match ← current with
        | .star => take .star
        | .lCurly => useTreeList
        | _ => fault "expected a list of names"
      return (some .useTree, .plain)
    if top then recover "expected a use tree" startsItem
    else wrapNext "expected a use tree"
    return (none, .nothing)

/-! ## Fields -/

def recordField : Rule (Option NodeKind) := do
  outerAttrs
  discard (optVisibility false)
  skip .unsafeKw
  if ← sees .ident then
    name
    need .colon
    run (.anyType true)
    if ← eat .eq then discard expr
    return some .recordField
  return none

def recordFieldList : Rule Unit :=
  braced .recordFieldList do
    untilSees .rCurly do
      if ← sees .lCurly then
        errorBlock
        return true
      let kind ← group do
        let kind ← recordField
        return (kind, kind)
      if kind = none then wrapNext "expected a field"
      if !(← sees .rCurly) then need .comma
      return true

def tupleField : Rule Bool :=
  group do
    outerAttrs
    let visible ← optVisibility true
    if ← seesAny startsType then
      run (.anyType true)
      return (some .tupleField, true)
    fault "expected a type"
    return (if visible then some .error else none, false)

def tupleFieldList : Rule Unit :=
  node .tupleFieldList do
    delimited .lParen .rParen .comma (fun k => k.startsType || k.startsAttr || k = .pubKw)
      tupleField

def structBody (isStruct : Bool) : Rule Unit := do
  nameOr startsItem
  optGenericParams
  match ← current with
  | .whereKw =>
    optWhereClause
    match ← current with
    | .semi => take .semi
    | .lCurly => recordFieldList
    | _ => fault "expected fields"
  | .lCurly => recordFieldList
  | k =>
    if k = .semi && isStruct then take .semi
    else if k = .lParen && isStruct then
      tupleFieldList
      optWhereClause
      need .semi
    else fault "expected fields"

def enumVariant : Rule Unit := do
  let read ← group do
    outerAttrs
    if ← sees .ident then
      name
      match ← current with
      | .lCurly => recordFieldList
      | .lParen => tupleFieldList
      | _ => pure ()
      if ← eat .eq then discard expr
      return (some .variant, true)
    return (none, false)
  if !read then wrapNext "expected enum variant"

def variantList : Rule Unit :=
  braced .variantList do
    untilSees .rCurly do
      if ← sees .lCurly then
        errorBlock
        return true
      enumVariant
      if !(← sees .rCurly) then need .comma
      return true

/-! ## Functions -/

def receiverName : Rule Unit := node .receiver (take .selfKw)

/-- The receiver of a method. -/
def receiver : Rule Bool := do
  let second ← nth 1
  if (← sees .selfKw) || ((← sees .mutKw) && second = .selfKw) then
    skip .mutKw
    receiverName
    if ← sees .colon then ascription
    return true
  let third ← nth 2
  let fourth ← nth 3
  if (← sees .amp)
      && (second = .selfKw || ((second = .mutKw || second = .lifetimeIdent) && third = .selfKw)
        || (second = .lifetimeIdent && third = .mutKw && fourth = .selfKw)) then
    take .amp
    if ← sees .lifetimeIdent then lifetime
    skip .mutKw
    receiverName
    return true
  return false

def fnParam : Rule Unit := do
  if ← eat .dot3 then return
  run (.pattern stopsPattern)
  paramType

def fnBody : Rule Unit := do
  take .fnKw
  nameOr startsItem
  optGenericParams
  if ← sees .lParen then params .lParen .rParen receiver fnParam
  else fault "expected function arguments"
  discard optReturnType
  repeatWhile do
    match ← current with
    | .rParen | .rBrack | .rAngle =>
      wrapNext "expected a curly brace"
      return true
    | _ => return false
  optWhereClause
  if !(← eat .semi) then blockExpr

/-! ## Items -/

/-- An item between braces. -/
def member (blocks inExtern : Bool) : Rule Unit := do
  if blocks && (← sees .lCurly) then errorBlock
  else run (.item true inExtern)

/-- Items up to a closing brace. -/
def members (blocks inExtern : Bool) : Rule Unit := do
  run (.attrs true)
  untilSees .rCurly do
    member blocks inExtern
    return true

/-- Items between braces. -/
def memberList (kind : NodeKind) (blocks inExtern : Bool) : Rule Unit :=
  braced kind (members blocks inExtern)

def traitBody : Rule NodeKind := do
  take .traitKw
  nameOr startsItem
  optGenericParams
  if ← eat .eq then
    boundList
    optWhereClause
    need .semi
    return .traitAlias
  if ← sees .colon then bounds
  optWhereClause
  if ← sees .lCurly then memberList .assocItemList true false
  else fault "expected trait items"
  return .traitItem

/-- Angle brackets behind `impl` hold parameters, unless they open a qualified path. -/
def seesImplParams : Rule Bool := do
  if !(← sees .lAngle) then return false
  match ← nth 1 with
  | .pound | .rAngle | .constKw => return true
  | .lifetimeIdent | .ident =>
    match ← nth 2 with
    | .rAngle | .comma | .colon | .eq => return true
    | _ => return false
  | _ => return false

def implType : Rule Unit := do
  if ← sees .implKw then fault "expected trait or type"
  else run (.anyType true)

def implBody : Rule Unit := do
  take .implKw
  if ← seesImplParams then optGenericParams
  skip .constKw
  if (← sees .bang) && (← nth 1) ≠ .lCurly then take .bang
  implType
  if ← eat .forKw then implType
  optWhereClause
  if ← sees .lCurly then memberList .assocItemList true false
  else fault "expected impl items"

def constBody : Rule Unit := do
  take .constKw
  skip .mutKw
  if !(← eat .underscore) then name
  optGenericParams
  if ← sees .colon then ascription
  else fault "missing type for const"
  if ← eat .eq then discard expr
  optWhereClause
  need .semi

def staticBody : Rule Unit := do
  take .staticKw
  skip .mutKw
  if !(← eat .underscore) then name
  if ← sees .lAngle then fault "unexpected generic parameters"
  optGenericParams
  if ← sees .colon then ascription
  else fault "missing type for static"
  if ← eat .eq then discard expr
  if ← sees .whereKw then fault "unexpected where clause"
  optWhereClause
  need .semi

def typeAliasBody : Rule Unit := do
  take .typeKw
  name
  optGenericParams
  if ← sees .colon then bounds
  optWhereClause
  if ← eat .eq then run (.anyType true)
  optWhereClause
  need .semi

def moduleBody : Rule Unit := do
  take .modKw
  name
  if ← sees .lCurly then memberList .itemList false true
  else need .semi

def macroRulesBody : Rule Unit := do
  take .ident
  need .bang
  name
  match ← current with
  | .lBrack | .lParen =>
    run .tokenTree
    need .semi
  | .lCurly => run .tokenTree
  | _ => fault "expected a bracket"

def macroDefBody : Rule Unit := do
  take .macroKw
  nameOr startsItem
  if ← sees .lCurly then run .tokenTree
  else if ← sees .lParen then
    run .tokenTree
    match ← current with
    | .lCurly | .lBrack | .lParen => run .tokenTree
    | _ => fault "expected a bracket"
  else fault "expected a bracket"

/-- An item that takes no modifiers, if one follows. -/
def plainItem : Rule (Option NodeKind) := do
  let second ← nth 1
  let named := second = .ident || second = .underscore || second = .mutKw
  match ← current with
  | .externKw =>
    if second = .crateKw then
      take .externKw
      take .crateKw
      nameRefOrSelf
      optRename
      need .semi
      return some .externCrate
    return none
  | .useKw =>
    take .useKw
    run (.useTree true)
    need .semi
    return some .useItem
  | .modKw =>
    moduleBody
    return some .moduleItem
  | .typeKw =>
    typeAliasBody
    return some .typeAlias
  | .structKw =>
    take .structKw
    structBody true
    return some .structItem
  | .enumKw =>
    take .enumKw
    nameOr startsItem
    optGenericParams
    optWhereClause
    if ← sees .lCurly then variantList
    else fault "expected variants"
    return some .enumItem
  | .macroKw =>
    macroDefBody
    return some .macroDef
  | .constKw =>
    if named then
      constBody
      return some .constItem
    return none
  | .staticKw =>
    if named then
      staticBody
      return some .staticItem
    return none
  | .ident =>
    if (← seesWord "union") && second = .ident then
      take .ident
      structBody false
      return some .unionItem
    let third ← nth 2
    if (← seesWord "macro_rules") && second = .bang && third = .ident then
      macroRulesBody
      return some .macroRules
    if (← seesBuiltin) && (← seesWordAt 2 "global_asm") then
      take .ident
      take .pound
      take .ident
      asmArgs
      return some .asmExpr
    return none
  | _ => return none

/-- A keyword, unless a block or something else of its own follows it. Answers whether there was
one. -/
def keywordUnless (k : TokenKind) (follows : TokenKind → Bool) : Rule Bool := do
  if (← sees k) && !follows (← nth 1) then
    take k
    return true
  return false

/-- A word that is a keyword in front of some tokens. -/
def wordBefore (w : String) (follows : TokenKind → Bool) : Rule Bool := do
  if (← seesWord w) && follows (← nth 1) then
    take .ident
    return true
  return false

def optAbi : Rule Bool := do
  if ← sees .externKw then
    abi
    return true
  return false

/-- The word that marks a default, with the keyword behind it that no other rule takes. -/
def optDefault : Rule Bool := do
  if ← wordBefore "default" (fun k => k = .fnKw || k = .typeKw || k = .constKw || k = .implKw) then
    return true
  if !(← seesWord "default") then return false
  let second ← nth 1
  let third ← nth 2
  if second = .unsafeKw && (third = .implKw || third = .fnKw) then
    take .ident
    take .unsafeKw
    return true
  if second = .asyncKw && (third = .fnKw || (third = .unsafeKw && (← nth 3) = .fnKw)) then
    take .ident
    take .asyncKw
    skip .unsafeKw
    return true
  return false

/-- Takes the modifiers of an item. Answers whether there were any, and whether they name an
external block. -/
def modifiers (inExtern : Bool) : Rule (Bool × Bool) := do
  let constant ← keywordUnless .constKw (· = .lCurly)
  let asynchronous ← keywordUnless .asyncKw fun k => k = .lCurly || k = .moveKw || k = .pipe
  let unchecked ← keywordUnless .unsafeKw (· = .lCurly)
  let checked ← if inExtern then eatWord "safe" else pure false
  let external ← optAbi
  let derived ← wordBefore "auto" (· = .traitKw)
  let overridable ← optDefault
  let found := constant || asynchronous || unchecked || checked || external || derived
    || overridable
  return (found, external)

/-- An item behind its modifiers. `marked` holds if something of it has been read already. -/
def itemBehind (marked external : Bool) : Rule (Option NodeKind) := do
  let second ← nth 1
  match ← current with
  | .fnKw =>
    fnBody
    return some .fnItem
  | .traitKw => return some (← traitBody)
  | .implKw =>
    implBody
    return some .implItem
  | .typeKw =>
    typeAliasBody
    return some .typeAlias
  | k =>
    if k = .constKw && second ≠ .lCurly then
      constBody
      return some .constItem
    if k = .staticKw && (second = .ident || second = .underscore || second = .mutKw) then
      staticBody
      return some .staticItem
    if k = .lCurly && external then
      memberList .externItemList false true
      return some .externBlock
    if marked then
      fault "expected an item"
      return some .error
    return none

/-- An item that may take modifiers, behind its visibility. -/
def modifiedItem (visible inExtern : Bool) : Rule (Option NodeKind) := do
  let (modified, external) ← modifiers inExtern
  itemBehind (visible || modified) external

/-- An item behind its visibility. -/
def plainOrModifiedItem (visible inExtern : Bool) : Rule (Option NodeKind) := do
  if let some kind ← plainItem then return some kind
  modifiedItem visible inExtern

/-- An item behind its attributes. Answers its kind, or none if no item follows. -/
def optItem (inExtern : Bool) : Rule (Option NodeKind) := do
  plainOrModifiedItem (← optVisibility false) inExtern

/-- What the rule for items found behind the attributes. -/
inductive Found where
  | item | macroCall | path | other

/-- A macro call, or a path that is none. -/
def macroOrPath : Rule (Option NodeKind × Found) := do
  path .inUse
  if ← sees .bang then
    if (← macroArgs) ≠ .block then need .semi
    return (some .macroCall, .macroCall)
  return (some .error, .path)

/-- What stands in the node of an item, behind its attributes. -/
def itemOrMacro (inExtern : Bool) : Rule (Option NodeKind × Found) := do
  if let some kind ← optItem inExtern then return (some kind, .item)
  if ← seesUsePath then macroOrPath
  else return (none, .other)

/-- What follows an item, or stands in its place. -/
def afterItem (inBraces : Bool) : Found → Rule Unit
  | .item => do if ← sees .semi then wrapNext "expected item, found semicolon"
  | .macroCall => pure ()
  | .path => fault "expected an item"
  | .other => do
    match ← current with
    | .lCurly => errorBlock
    | .rCurly => if inBraces then fault "expected an item" else wrapNext "unmatched brace"
    | .eof => fault "expected an item"
    | .letKw =>
      node .error do
        fault "expected an item"
        letBody false
    | _ => wrapNext "expected an item"

/-- An item, a macro call or an error. -/
def item (inBraces inExtern : Bool) : Rule Unit := do
  let found ← group do
    outerAttrs
    itemOrMacro inExtern
  afterItem inBraces found

/-- The items of a file. -/
def fileItems : Rule Unit := do
  skip .shebang
  skip .frontmatter
  innerAttrs
  repeatWhile do
    if ← seesEnd then return false
    run (.item false true)
    return true

/-! ## Statements -/

/-- A statement of a block. -/
def stmt : Rule Unit := do
  if ← eat .semi then return
  nodeIf do
    outerAttrs
    if (← sees .letKw) || ((← sees .superKw) && (← nth 1) = .letKw) then
      letBody true
      return some .letStmt
    if let some kind ← optItem false then return some kind
    if !(← seesAny startsExpr) then
      wrapNext "expected a statement"
      return none
    let outcome ← call (.exprHere statementLimits 1)
    if outcome ≠ .nothing && !(← sees .rCurly) then
      around .exprStmt do
        if outcome = .block then skip .semi else need .semi
    return none

def statements : Rule Unit := do
  innerAttrs
  untilSees .rCurly do
    stmt
    return true

end Docsmith.Source.Grammar
