import Docsmith.Source.Token

/-!
# Syntax trees

A tree keeps every token of its file, so its text is the file's text. The grammar first draws an
`Outline` of the tokens that are neither blank nor comment; `Outline.weave` puts those back. Blanks
and comments stand in front of the node that follows them, except that the comments directly above
a declaration belong to it.

* `Tree.text_ofOutline`: whatever the outline, the tree's text is the text of the tokens.
-/

namespace Docsmith.Source

/-- What a node of the tree is. -/
inductive NodeKind where
  | sourceFile | error
  | constItem | enumItem | externBlock | externCrate | fnItem | implItem | macroDef | macroRules
  | moduleItem | staticItem | structItem | traitItem | traitAlias | typeAlias | unionItem | useItem
  | itemList | assocItemList | externItemList | variantList | variant | recordFieldList
  | recordField | tupleFieldList | tupleField
  | visibility | abi | name | nameRef | lifetime | rename | retType
  | genericParamList | typeParam | lifetimeParam | constParam
  | genericArgList | typeArg | lifetimeArg | constArg | assocTypeArg | returnTypeArgs
  | parenArgList | typeBoundList | typeBound | useBoundArgs | whereClause | wherePred | forBinder
  | paramList | param | selfParam | receiver
  | useTree | useTreeList | path | pathSegment | attr | attrBody | tokenTree
  | parenType | tupleType | neverType | pathType | ptrType | arrayType | sliceType | refType
  | inferType | fnPtrType | forType | implTraitType | dynTraitType | macroType
  | orPat | parenPat | tuplePat | tupleStructPat | recordPat | recordPatFieldList
  | recordPatField | slicePat | restPat | rangePat | identPat | boxPat | refPat | wildcardPat
  | literalPat | pathPat | macroPat | constBlockPat
  | letStmt | letElse | exprStmt | stmtList
  | macroCall | macroExpr | literal | pathExpr | recordExpr | recordExprFieldList
  | recordExprField | tupleExpr | parenExpr | arrayExpr | ifExpr | loopExpr | whileExpr | forExpr
  | matchExpr | matchArmList | matchArm | matchGuard | blockExpr | closureExpr | closureBinder
  | returnExpr | becomeExpr | yieldExpr | yeetExpr | breakExpr | continueExpr | labelMark | letExpr
  | underscoreExpr | refExpr | prefixExpr | rangeExpr | binExpr | castExpr | callExpr | argList
  | methodCallExpr | fieldExpr | indexExpr | awaitExpr | tryExpr | offsetExpr | formatExpr | asmExpr
  | formatArg | asmOperand
  deriving DecidableEq, Repr, Inhabited

namespace NodeKind

/-- Declarations that keep the comments directly above them. -/
def keepsComments : NodeKind → Bool
  | constItem | enumItem | fnItem | implItem | macroCall | macroDef | macroRules | moduleItem
  | recordField | staticItem | structItem | traitItem | tupleField | typeAlias | unionItem
  | useItem | variant | externCrate => true
  | _ => false

/-- Expressions that end with a block. -/
def isBlockLike : NodeKind → Bool
  | blockExpr | ifExpr | whileExpr | forExpr | loopExpr | matchExpr => true
  | _ => false

def isType : NodeKind → Bool
  | parenType | tupleType | neverType | pathType | ptrType | arrayType | sliceType | refType
  | inferType | fnPtrType | forType | implTraitType | dynTraitType | macroType => true
  | _ => false

def isPattern : NodeKind → Bool
  | orPat | parenPat | tuplePat | tupleStructPat | recordPat | slicePat | restPat | rangePat
  | identPat | boxPat | refPat | wildcardPat | literalPat | pathPat | macroPat
  | constBlockPat => true
  | _ => false

def isExpr : NodeKind → Bool
  | macroExpr | literal | pathExpr | recordExpr | tupleExpr | parenExpr | arrayExpr | ifExpr
  | loopExpr | whileExpr | forExpr | matchExpr | blockExpr | closureExpr | returnExpr | becomeExpr
  | yieldExpr | yeetExpr | breakExpr | continueExpr | letExpr | underscoreExpr | refExpr
  | prefixExpr | rangeExpr | binExpr | castExpr | callExpr | methodCallExpr | fieldExpr | indexExpr
  | awaitExpr | tryExpr | offsetExpr | formatExpr | asmExpr => true
  | _ => false

end NodeKind

/-- A syntax tree with the text of every token. -/
inductive Tree where
  | token (kind : TokenKind) (text : String)
  | node (kind : NodeKind) (children : List Tree)
  deriving Repr, Inhabited

/-- A tree over the tokens the grammar sees. A leaf of width `n` is joined from `n` tokens. -/
inductive Outline where
  | leaf (kind : TokenKind) (width : Nat)
  | node (kind : NodeKind) (children : List Outline)
  deriving Repr, Inhabited

namespace Tree

mutual

def text : Tree → List Char
  | .token _ s => s.toList
  | .node _ cs => textAll cs

def textAll : List Tree → List Char
  | [] => []
  | t :: ts => t.text ++ textAll ts

end

theorem textAll_append (ts us : List Tree) : textAll (ts ++ us) = textAll ts ++ textAll us := by
  induction ts with
  | nil => rfl
  | cons t ts ih => simp [textAll, ih]

def ofToken (t : Token) : Tree :=
  .token t.kind t.text

theorem textAll_map_ofToken (ts : List Token) : textAll (ts.map ofToken) = Token.concat ts := by
  induction ts with
  | nil => rfl
  | cons t ts ih => simp_all [textAll, ofToken, text, Token.concat]

end Tree

namespace Outline

/-- A comment on the declaration below it: three slashes or two stars, not more. -/
def isOuterDoc (s : String) : Bool :=
  (s.startsWith "///" && !s.startsWith "////") || (s.startsWith "/**" && !s.startsWith "/***")

/-- A comment on what encloses it. -/
def isInnerDoc (s : String) : Bool :=
  s.startsWith "//!" || s.startsWith "/*!"

/-- How many of the blanks and comments in front of a declaration belong to it, given nearest
first: up to the farthest comment not cut off by an empty line or a comment on the enclosing item.
An empty line below an outer documentation comment does not cut it off. -/
def attached : Nat → List Token → Nat
  | _, [] => 0
  | seen, t :: ts =>
    if t.kind = .comment then
      if isInnerDoc t.text then 0
      else max (seen + 1) (attached (seen + 1) ts)
    else if hasEmptyLine t.text.toList then
      match ts with
      | c :: _ => if c.kind = .comment && isOuterDoc c.text then attached (seen + 1) ts else 0
      | [] => 0
    else attached (seen + 1) ts
where
  hasEmptyLine : List Char → Bool
    | '\n' :: '\n' :: _ => true
    | _ :: cs => hasEmptyLine cs
    | [] => false

/-- The tokens of an operator, as one. -/
def joined (kind : TokenKind) (ts : List Token) : Tree :=
  .token kind (String.ofList (Token.concat ts))

mutual

/-- Lays an outline over the tokens: the trees it covers, and the tokens behind them. A leaf for
blanks, or one for which no token is left, covers none. -/
def weave : Outline → List Token → List Tree × List Token
  | .leaf kind width, ts =>
    let gap := ts.takeWhile (·.kind.isTrivia)
    let rest := ts.dropWhile (·.kind.isTrivia)
    if kind.isTrivia || (rest.take width).isEmpty then (gap.map Tree.ofToken, rest)
    else (gap.map Tree.ofToken ++ [joined kind (rest.take width)], rest.drop width)
  | .node kind cs, ts =>
    let gap := ts.takeWhile (·.kind.isTrivia)
    let rest := ts.dropWhile (·.kind.isTrivia)
    let kept := if kind.keepsComments then attached 0 gap.reverse else 0
    let (inside, rest) := weaveAll cs rest
    let before := gap.take (gap.length - kept)
    let own := gap.drop (gap.length - kept)
    (before.map Tree.ofToken ++ [.node kind (own.map Tree.ofToken ++ inside)], rest)

def weaveAll : List Outline → List Token → List Tree × List Token
  | [], ts => ([], ts)
  | o :: os, ts =>
    let (first, rest) := weave o ts
    let (more, rest) := weaveAll os rest
    (first ++ more, rest)

end

theorem weave_text (o : Outline) (ts : List Token) :
    Tree.textAll (weave o ts).1 ++ Token.concat (weave o ts).2 = Token.concat ts := by
  have split (p : Token → Bool) (ts : List Token) :
      Token.concat (ts.takeWhile p) ++ Token.concat (ts.dropWhile p) = Token.concat ts := by
    simp only [Token.concat, ← List.flatMap_append, List.takeWhile_append_dropWhile]
  have cut (n : Nat) (ts : List Token) :
      Token.concat (ts.take n) ++ Token.concat (ts.drop n) = Token.concat ts := by
    simp only [Token.concat, ← List.flatMap_append, List.take_append_drop]
  induction o using Outline.rec (motive_2 := fun os => ∀ ts,
      Tree.textAll (weaveAll os ts).1 ++ Token.concat (weaveAll os ts).2 = Token.concat ts)
      generalizing ts with
  | leaf kind width =>
    rw [weave]
    split
    · simp only [Tree.textAll_map_ofToken, split]
    · simp only [Tree.textAll_append, Tree.textAll_map_ofToken]
      simp only [Tree.textAll, joined, Tree.text, String.toList_ofList, List.append_nil,
        List.append_assoc, cut, split]
  | node kind cs ih =>
    simp only [weave, Tree.textAll_append, Tree.textAll_map_ofToken]
    simp only [Tree.textAll, Tree.text, Tree.textAll_append, Tree.textAll_map_ofToken,
      List.append_nil, List.append_assoc, ih]
    rw [← List.append_assoc, cut, split]
  | nil => rename_i ts; simp [weaveAll, Tree.textAll]
  | cons o os iho ihos =>
    rename_i ts
    simp only [weaveAll, Tree.textAll_append, List.append_assoc, ihos, iho]

theorem weaveAll_text (os : List Outline) (ts : List Token) :
    Tree.textAll (weaveAll os ts).1 ++ Token.concat (weaveAll os ts).2 = Token.concat ts := by
  induction os generalizing ts with
  | nil => simp [weaveAll, Tree.textAll]
  | cons o os ih => simp only [weaveAll, Tree.textAll_append, List.append_assoc, ih, weave_text]

end Outline

namespace Tree

/-- The tree of a file: the outline's nodes under one root, which also holds what follows them. -/
def ofOutline (os : List Outline) (ts : List Token) : Tree :=
  let (inside, rest) := Outline.weaveAll os ts
  .node .sourceFile (inside ++ rest.map ofToken)

theorem text_ofOutline (os : List Outline) (ts : List Token) :
    (ofOutline os ts).text = Token.concat ts := by
  simp only [ofOutline, text, textAll_append, textAll_map_ofToken, Outline.weaveAll_text]

end Tree

end Docsmith.Source
