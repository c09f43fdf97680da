/-!
# Tokens of a source file

A token is a kind and the text it was read from. Blanks and comments are tokens too, so the texts
of a file's tokens, put together, are the file. Operators of several characters are read as single
characters and joined by the grammar, which alone knows where `>>` closes two brackets.
-/

namespace Docsmith.Source

/-- What a token is. The kinds after `shrEq` are keywords, but for the last few. -/
inductive TokenKind where
  | semi | comma | lParen | rParen | lCurly | rCurly | lBrack | rBrack | lAngle | rAngle
  | atSign | pound | tilde | question | dollar | amp | pipe | plus | star | slash | caret
  | percent | underscore | dot | colon | eq | bang | minus
  | dot2 | dot3 | dot2Eq | colon2 | eq2 | fatArrow | neq | thinArrow | ltEq | gtEq
  | plusEq | minusEq | pipeEq | ampEq | caretEq | slashEq | starEq | percentEq
  | amp2 | pipe2 | shl | shr | shlEq | shrEq
  | selfTypeKw | abstractKw | asKw | asyncKw | awaitKw | becomeKw | boxKw | breakKw | constKw
  | continueKw | crateKw | doKw | dynKw | elseKw | enumKw | externKw | falseKw | finalKw | fnKw
  | forKw | ifKw | implKw | inKw | letKw | loopKw | macroKw | matchKw | modKw | moveKw | mutKw
  | overrideKw | privKw | pubKw | refKw | returnKw | selfKw | staticKw | structKw | superKw
  | traitKw | trueKw | tryKw | typeKw | typeofKw | unsafeKw | unsizedKw | useKw | virtualKw
  | whereKw | whileKw | yieldKw
  | ident | lifetimeIdent | int | float | char | byte | string | byteString | cString
  | whitespace | comment | shebang | frontmatter | unknown | eof
  deriving DecidableEq, Repr, Inhabited

namespace TokenKind

/-- The kind of a reserved word. -/
def ofKeyword? : String → Option TokenKind
  | "Self" => some selfTypeKw | "abstract" => some abstractKw | "as" => some asKw
  | "async" => some asyncKw | "await" => some awaitKw | "become" => some becomeKw
  | "box" => some boxKw | "break" => some breakKw | "const" => some constKw
  | "continue" => some continueKw | "crate" => some crateKw | "do" => some doKw
  | "dyn" => some dynKw | "else" => some elseKw | "enum" => some enumKw
  | "extern" => some externKw | "false" => some falseKw | "final" => some finalKw
  | "fn" => some fnKw | "for" => some forKw | "if" => some ifKw | "impl" => some implKw
  | "in" => some inKw | "let" => some letKw | "loop" => some loopKw | "macro" => some macroKw
  | "match" => some matchKw | "mod" => some modKw | "move" => some moveKw
  | "mut" => some mutKw | "override" => some overrideKw | "priv" => some privKw
  | "pub" => some pubKw | "ref" => some refKw | "return" => some returnKw
  | "self" => some selfKw | "static" => some staticKw | "struct" => some structKw
  | "super" => some superKw | "trait" => some traitKw | "true" => some trueKw
  | "try" => some tryKw | "type" => some typeKw | "typeof" => some typeofKw
  | "unsafe" => some unsafeKw | "unsized" => some unsizedKw | "use" => some useKw
  | "virtual" => some virtualKw | "where" => some whereKw | "while" => some whileKw
  | "yield" => some yieldKw
  | _ => none

/-- The kind of a character that is a token by itself. -/
def ofChar? : Char → Option TokenKind
  | ';' => some semi | ',' => some comma | '.' => some dot | '(' => some lParen
  | ')' => some rParen | '{' => some lCurly | '}' => some rCurly | '[' => some lBrack
  | ']' => some rBrack | '@' => some atSign | '#' => some pound | '~' => some tilde
  | '?' => some question | ':' => some colon | '$' => some dollar | '=' => some eq
  | '!' => some bang | '<' => some lAngle | '>' => some rAngle | '-' => some minus
  | '&' => some amp | '|' => some pipe | '+' => some plus | '*' => some star
  | '^' => some caret | '%' => some percent | '/' => some slash
  | _ => none

/-- The single characters a kind is joined from. -/
def parts : TokenKind → List TokenKind
  | dot2 => [dot, dot] | dot3 => [dot, dot, dot] | dot2Eq => [dot, dot, eq]
  | colon2 => [colon, colon] | eq2 => [eq, eq] | fatArrow => [eq, rAngle]
  | neq => [bang, eq] | thinArrow => [minus, rAngle] | ltEq => [lAngle, eq]
  | gtEq => [rAngle, eq] | plusEq => [plus, eq] | minusEq => [minus, eq]
  | pipeEq => [pipe, eq] | ampEq => [amp, eq] | caretEq => [caret, eq]
  | slashEq => [slash, eq] | starEq => [star, eq] | percentEq => [percent, eq]
  | amp2 => [amp, amp] | pipe2 => [pipe, pipe] | shl => [lAngle, lAngle]
  | shr => [rAngle, rAngle] | shlEq => [lAngle, lAngle, eq] | shrEq => [rAngle, rAngle, eq]
  | k => [k]

/-- Blanks and comments, which the grammar does not see. -/
def isTrivia : TokenKind → Bool
  | whitespace | comment => true
  | _ => false

end TokenKind

/-- A token: `sound` is false where the text breaks off or holds a character of no token. -/
structure Token where
  kind : TokenKind
  text : String
  sound : Bool
  deriving DecidableEq, Repr, Inhabited

/-- The text of a list of tokens. -/
def Token.concat (ts : List Token) : List Char :=
  ts.flatMap (·.text.toList)

end Docsmith.Source
