import Docsmith.Source.Token
import Docsmith.Text.Identifier

/-!
# Reading tokens

`Token.scan` reads one token off the front of a text, and `Token.lex` reads them all. A reader
answers how many characters it takes, so each token is a piece of the text and nothing is lost:

* `Token.concat_lex`: the texts of the tokens of a text are that text.
-/

namespace Docsmith.Source

open Docsmith.Text

namespace Lexer

/-- A reader's answer: the number of characters it takes, and whether they form a whole token. -/
structure Extent where
  size : Nat
  sound : Bool

/-- `n` more characters in front. -/
def Extent.after (n : Nat) (e : Extent) : Extent :=
  ⟨n + e.size, e.sound⟩

/-- The blanks between tokens. -/
def isBlank (c : Char) : Bool :=
  c = ' ' || c = '\n' || c = '\t' || c = '\r' || c.toNat = 0x0B || c.toNat = 0x0C ||
    c.toNat = 0x85 || c.toNat = 0x200E || c.toNat = 0x200F || c.toNat = 0x2028 || c.toNat = 0x2029

def run (p : Char → Bool) (cs : List Char) : Nat :=
  (cs.takeWhile p).length

/-- An identifier directly behind a literal belongs to it. -/
def suffix : List Char → Nat
  | [] => 0
  | c :: cs => if isIdentStart c then 1 + run isIdentContinue cs else 0

/-- The rest of a literal that may carry a suffix if it was closed. -/
def withSuffix (e : Extent) (cs : List Char) : Extent :=
  if e.sound then ⟨e.size + suffix (cs.drop e.size), true⟩ else e

/-- A block comment behind its opening, `depth` comments deep. -/
def blockComment : Nat → List Char → Extent
  | _, [] => ⟨0, false⟩
  | depth, '/' :: '*' :: cs => (blockComment (depth + 1) cs).after 2
  | depth, '*' :: '/' :: cs =>
    if depth ≤ 1 then ⟨2, true⟩ else (blockComment (depth - 1) cs).after 2
  | depth, _ :: cs => (blockComment depth cs).after 1

/-- A string behind its opening quote. -/
def quoted : List Char → Extent
  | [] => ⟨0, false⟩
  | '"' :: _ => ⟨1, true⟩
  | '\\' :: '\\' :: cs => (quoted cs).after 2
  | '\\' :: '"' :: cs => (quoted cs).after 2
  | _ :: cs => (quoted cs).after 1

/-- The inside of a raw string, which ends at a quote and `hashes` hash signs. -/
def rawBody (hashes : Nat) : List Char → Extent
  | [] => ⟨0, false⟩
  | '"' :: cs =>
    if (cs.take hashes).length = hashes && (cs.take hashes).all (· = '#') then ⟨1 + hashes, true⟩
    else (rawBody hashes cs).after 1
  | _ :: cs => (rawBody hashes cs).after 1

/-- A raw string behind its letter. More than 255 hash signs are a fault, but count. -/
def rawQuoted (cs : List Char) : Extent :=
  let hashes := run (· = '#') cs
  match cs.drop hashes with
  | [] => ⟨hashes, false⟩
  | '"' :: body =>
    let e := (rawBody hashes body).after (hashes + 1)
    ⟨e.size, e.sound && hashes ≤ 255⟩
  | _ :: _ => ⟨hashes + 1, false⟩

/-- A character literal of more than one symbol behind its opening quote. -/
def longChar : List Char → Extent
  | [] => ⟨0, false⟩
  | '\'' :: _ => ⟨1, true⟩
  | '/' :: _ => ⟨0, false⟩
  | '\\' :: _ :: cs => (longChar cs).after 2
  | c :: cs => if c = '\n' && cs.head? ≠ some '\'' then ⟨0, false⟩ else (longChar cs).after 1

/-- A character literal behind its opening quote. -/
def charLiteral (cs : List Char) : Extent :=
  match cs with
  | c :: '\'' :: _ => if c = '\\' then longChar cs else ⟨2, true⟩
  | _ => longChar cs

def isDecimalOrBar (c : Char) : Bool := c.isDigit || c = '_'

def isHexOrBar (c : Char) : Bool :=
  isDecimalOrBar c || ('a' ≤ c && c ≤ 'f') || ('A' ≤ c && c ≤ 'F')

/-- Digits behind a base mark; at least one must not be a bar. -/
def basedDigits (p : Char → Bool) (cs : List Char) : Extent :=
  let digits := cs.takeWhile p
  ⟨digits.length, digits.any (· ≠ '_')⟩

/-- An exponent behind its letter. -/
def exponent (cs : List Char) : Extent :=
  match cs with
  | '-' :: cs => (basedDigits isDecimalOrBar cs).after 1
  | '+' :: cs => (basedDigits isDecimalOrBar cs).after 1
  | cs => basedDigits isDecimalOrBar cs

/-- What follows the whole part of a number. A point belongs to the number unless a second point
or a name follows it. -/
def fraction (cs : List Char) : TokenKind × Extent :=
  match cs with
  | '.' :: cs =>
    match cs with
    | [] => (.float, ⟨1, true⟩)
    | c :: _ =>
      if c = '.' || isIdentStart c then (.int, ⟨0, true⟩)
      else if c.isDigit then
        let whole := run isDecimalOrBar cs
        match cs.drop whole with
        | 'e' :: cs => (.float, (exponent cs).after (whole + 2))
        | 'E' :: cs => (.float, (exponent cs).after (whole + 2))
        | _ => (.float, ⟨1 + whole, true⟩)
      else (.float, ⟨1, true⟩)
  | 'e' :: cs => (.float, (exponent cs).after 1)
  | 'E' :: cs => (.float, (exponent cs).after 1)
  | _ => (.int, ⟨0, true⟩)

/-- Digits of a class and what follows them. -/
def digitsThenFraction (p : Char → Bool) (cs : List Char) : TokenKind × Extent :=
  let whole := run p cs
  let (kind, e) := fraction (cs.drop whole)
  (kind, e.after whole)

/-- What follows a base mark. Without a digit the number ends there. -/
def based (p : Char → Bool) (cs : List Char) : TokenKind × Extent :=
  let digits := basedDigits p cs
  let (kind, e) := if digits.sound then digitsThenFraction p cs else (.int, digits)
  (kind, e.after 1)

/-- A number behind its first digit, suffix included. -/
def number (first : Char) (cs : List Char) : TokenKind × Extent :=
  let (kind, e) : TokenKind × Extent :=
    match first, cs with
    | '0', 'b' :: cs => based isDecimalOrBar cs
    | '0', 'o' :: cs => based isDecimalOrBar cs
    | '0', 'x' :: cs => based isHexOrBar cs
    | _, cs => digitsThenFraction isDecimalOrBar cs
  (kind, ⟨e.size + suffix (cs.drop e.size), e.sound⟩)

/-- A word that started with `first`. A quote or a hash sign right behind it makes it the prefix of
an unknown kind of literal. -/
def word (first : Char) (cs : List Char) : TokenKind × Extent :=
  let size := run isIdentContinue cs
  match cs.drop size with
  | c :: rest =>
    if c = '#' || c = '"' || c = '\'' then (.ident, ⟨size, false⟩)
    else if isPictograph c then (.ident, ⟨size + run isMisspelt (c :: rest), false⟩)
    else (kindOf size, ⟨size, true⟩)
  | [] => (kindOf size, ⟨size, true⟩)
where
  isMisspelt (c : Char) : Bool :=
    isIdentContinue c || isPictograph c || c.toNat = 0x200D
  kindOf (size : Nat) : TokenKind :=
    let text := String.ofList (first :: cs.take size)
    if text = "_" then .underscore else (TokenKind.ofKeyword? text).getD .ident

/-- A lifetime or a character literal behind its quote. -/
def tick (cs : List Char) : TokenKind × Extent :=
  let literal := withSuffix (charLiteral cs) cs
  match cs with
  | _ :: '\'' :: _ => (.char, literal)
  | 'r' :: '#' :: c :: rest =>
    if isIdentStart c then (.lifetimeIdent, ⟨3 + run isIdentContinue rest, true⟩)
    else (.lifetimeIdent, ⟨1, false⟩)
  | c :: rest =>
    if isIdentStart c || c.isDigit then
      let size := 1 + run isIdentContinue rest
      match cs.drop size with
      | '\'' :: _ => (.char, ⟨size + 1, true⟩)
      | '#' :: _ => (.lifetimeIdent, ⟨size, false⟩)
      | _ => (.lifetimeIdent, ⟨size, !c.isDigit⟩)
    else (.char, literal)
  | [] => (.char, literal)

/-- A byte or foreign string behind its letter; `bytes` tells the two apart. -/
def lettered (first : Char) (bytes : Bool) (cs : List Char) : TokenKind × Extent :=
  let kind := if bytes then TokenKind.byteString else .cString
  match cs with
  | '"' :: body => (kind, (withSuffix (quoted body) body).after 1)
  | 'r' :: c :: rest =>
    if c = '"' || c = '#' then
      (kind, (withSuffix (rawQuoted (c :: rest)) (c :: rest)).after 1)
    else word first cs
  | '\'' :: body =>
    if bytes then (.byte, (withSuffix (charLiteral body) body).after 1) else word first cs
  | _ => word first cs

/-- The token that starts with `first`: its kind, and how much of `cs` belongs to it. -/
def scan (first : Char) (cs : List Char) : TokenKind × Extent :=
  if first = '/' && cs.head? = some '/' then (.comment, ⟨run (· ≠ '\n') cs, true⟩)
  else if first = '/' && cs.head? = some '*' then (.comment, (blockComment 1 (cs.drop 1)).after 1)
  else if isBlank first then (.whitespace, ⟨run isBlank cs, true⟩)
  else if first = 'r' then
    match cs with
    | '"' :: _ => (.string, withSuffix (rawQuoted cs) cs)
    | '#' :: c :: rest =>
      if isIdentStart c then (.ident, ⟨2 + run isIdentContinue rest, true⟩)
      else (.string, withSuffix (rawQuoted cs) cs)
    | '#' :: [] => (.string, withSuffix (rawQuoted cs) cs)
    | _ => word first cs
  else if first = 'b' then lettered first true cs
  else if first = 'c' then lettered first false cs
  else if isIdentStart first then word first cs
  else if first.isDigit then number first cs
  else if first = '\'' then tick cs
  else if first = '"' then (.string, withSuffix (quoted cs) cs)
  else
    match TokenKind.ofChar? first with
    | some kind => (kind, ⟨0, true⟩)
    | none =>
      if isPictograph first then (.ident, ⟨run word.isMisspelt cs, false⟩)
      else (.unknown, ⟨0, false⟩)

end Lexer

namespace Token

open Lexer

/-- The tokens of a text. -/
def lex : List Char → List Token
  | [] => []
  | c :: cs =>
    let (kind, e) := scan c cs
    ⟨kind, String.ofList (c :: cs.take e.size), e.sound⟩ :: lex (cs.drop e.size)
termination_by cs => cs.length
decreasing_by
  simp only [List.length_drop, List.length_cons]
  omega

theorem concat_cons (t : Token) (ts : List Token) :
    concat (t :: ts) = t.text.toList ++ concat ts := by
  simp [concat]

theorem concat_append (ts us : List Token) : concat (ts ++ us) = concat ts ++ concat us := by
  simp [concat]

theorem concat_lex (cs : List Char) : concat (lex cs) = cs := by
  fun_induction lex cs with
  | case1 => rfl
  | case2 c cs kind e _ ih => simp [concat_cons, ih]

end Token

end Docsmith.Source
