import Docsmith.Source.Token

/-!
# Starts and stops

The kinds of token a construct can start with, those a rule does not skip when it looks for the rest
of its construct, and those at which it stops looking ahead.
-/

namespace Docsmith.Source.TokenKind

def startsLiteral : TokenKind → Bool
  | trueKw | falseKw | int | float | byte | char | string | byteString | cString => true
  | _ => false

def isLiteral : TokenKind → Bool
  | int | float | byte | char | string | byteString | cString => true
  | _ => false

/-- The words a segment of a path can be. -/
def isSegmentName : TokenKind → Bool
  | ident | selfKw | superKw | crateKw | selfTypeKw => true
  | _ => false

/-- What may stand behind the dot of a field. -/
def isMemberName (k : TokenKind) : Bool :=
  k.isSegmentName || k = int

def startsPath (k : TokenKind) : Bool :=
  k.isSegmentName || k = colon || k = lAngle

def startsAttr : TokenKind → Bool
  | pound => true
  | _ => false

def startsType (k : TokenKind) : Bool :=
  k.startsPath ||
    match k with
    | lParen | lBrack | bang | star | amp | underscore | fnKw | unsafeKw | externKw | forKw
    | implKw | dynKw | lifetimeIdent => true
    | _ => false

def startsPattern (k : TokenKind) : Bool :=
  k.startsLiteral || k.startsPath ||
    match k with
    | boxKw | refKw | mutKw | constKw | lParen | lBrack | amp | underscore | minus | dot => true
    | _ => false

def startsAlternatives (k : TokenKind) : Bool :=
  k.startsPattern || k = pipe

/-- What follows two dots at the start of a pattern belongs to their range if it starts with one of
these. -/
def startsRangeEnd (k : TokenKind) : Bool :=
  k.startsLiteral || k.startsPath || k = minus || k = constKw

/-- A range that starts with a value has no end in front of one of these. -/
def endsOpenRange : TokenKind → Bool
  | eq | comma | colon | rParen | rCurly | rBrack | ifKw | eof => true
  | _ => false

def startsParam (k : TokenKind) : Bool :=
  k.startsPattern || k.startsType

def startsAtom (k : TokenKind) : Bool :=
  k.startsLiteral || k.startsPath ||
    match k with
    | lParen | lCurly | lBrack | pipe | asyncKw | becomeKw | breakKw | constKw | continueKw | doKw
    | forKw | ifKw | letKw | loopKw | matchKw | moveKw | returnKw | staticKw | tryKw | unsafeKw
    | whileKw | yieldKw | lifetimeIdent => true
    | _ => false

def startsExpr (k : TokenKind) : Bool :=
  k.startsAtom ||
    match k with
    | amp | star | bang | dot | minus | underscore => true
    | _ => false

def startsGenericArg (k : TokenKind) : Bool :=
  k.startsType || k.isLiteral ||
    match k with
    | lCurly | trueKw | falseKw | minus => true
    | _ => false

def startsGenericParam (k : TokenKind) : Bool :=
  k.startsAttr ||
    match k with
    | ident | lifetimeIdent | constKw => true
    | _ => false

/-- A tree of imported names may follow another one without a comma if it starts with one of
these. -/
def startsUseTree (k : TokenKind) : Bool :=
  k = lCurly || k = ident

/-! ## Stops -/

def startsItem : TokenKind → Bool
  | fnKw | structKw | enumKw | implKw | traitKw | constKw | asyncKw | unsafeKw | externKw
  | staticKw | letKw | modKw | pubKw | crateKw | useKw | macroKw | semi => true
  | _ => false

def stopsExpr : TokenKind → Bool
  | rParen | rBrack | comma => true
  | _ => false

def stopsType : TokenKind → Bool
  | rParen | rBrack | rCurly | rAngle | comma | pubKw => true
  | _ => false

def stopsPattern : TokenKind → Bool
  | letKw | ifKw | whileKw | loopKw | matchKw | rParen | rBrack | comma | eq | amp => true
  | _ => false

def stopsArm : TokenKind → Bool
  | eq | ifKw | comma => true
  | _ => false

def stopsGenericArg : TokenKind → Bool
  | rAngle | comma => true
  | _ => false

def stopsUseTree (k : TokenKind) : Bool :=
  k.startsItem || k = comma || k = ident

def stopsNothing (_ : TokenKind) : Bool := false

/-! ## Looking ahead -/

/-- No rule looks for what follows one of these. -/
def seals : TokenKind → Bool
  | lCurly | rCurly | rBrack | comma | semi => true
  | _ => false

/-- No rule looks for one of these behind another token. -/
def hides : TokenKind → Bool
  | rCurly | rBrack | pubKw => true
  | _ => false

end Docsmith.Source.TokenKind
