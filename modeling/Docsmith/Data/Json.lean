import Docsmith.Data.Decimal
import Docsmith.Data.Value

/-!
# JSON

`Json.read?` reads a whole text, `Json.write` writes a value on one line.
-/

namespace Docsmith.Data.Json

def isBlank (c : Char) : Bool := c = ' ' || c = '\n' || c = '\t' || c = '\r'

def skipBlanks (cs : List Char) : List Char := cs.dropWhile isBlank

/-! ## Texts -/

def hexValue? (c : Char) : Option Nat :=
  if c.isDigit then some (c.toNat - 48)
  else if 'a' ≤ c && c ≤ 'f' then some (c.toNat - 87)
  else if 'A' ≤ c && c ≤ 'F' then some (c.toNat - 55)
  else none

/-- The number of four hexadecimal digits. -/
def hex4? (a b c d : Char) : Option Nat := do
  return ((← hexValue? a) * 16 + (← hexValue? b)) * 256 + (← hexValue? c) * 16 + (← hexValue? d)

def simpleEscape? : Char → Option Char
  | '"' => some '"' | '\\' => some '\\' | '/' => some '/' | 'b' => some '\x08'
  | 'f' => some '\x0c' | 'n' => some '\n' | 'r' => some '\r' | 't' => some '\t'
  | _ => none

def isHighSurrogate (n : Nat) : Bool := 0xD800 ≤ n && n < 0xDC00
def isLowSurrogate (n : Nat) : Bool := 0xDC00 ≤ n && n < 0xE000

/-- A text behind its opening quote: the text, newest character first, unless an escape names half
a character, and what follows the closing quote. -/
def string? : Option (List Char) → List Char → Option (Option String × List Char)
  | _, [] => none
  | acc, '"' :: cs => some (acc.map fun a => String.ofList a.reverse, cs)
  | acc, '\\' :: 'u' :: a :: b :: c :: d :: cs =>
    match hex4? a b c d with
    | none => none
    | some n =>
      if isHighSurrogate n then
        match cs with
        | '\\' :: 'u' :: a :: b :: c :: d :: cs' =>
          match hex4? a b c d with
          | none => none
          | some m =>
            if isLowSurrogate m then
              let full := 0x10000 + (n - 0xD800) * 1024 + (m - 0xDC00)
              string? (acc.map (Char.ofNat full :: ·)) cs'
            else string? none ('\\' :: 'u' :: a :: b :: c :: d :: cs')
        | rest => string? none rest
      else if isLowSurrogate n then string? none cs
      else string? (acc.map (Char.ofNat n :: ·)) cs
  | acc, '\\' :: e :: cs =>
    match simpleEscape? e with
    | some c => string? (acc.map (c :: ·)) cs
    | none => none
  | acc, c :: cs => if c.toNat < 32 || c = '\\' then none else string? (acc.map (c :: ·)) cs
termination_by _ cs => cs.length

/-! ## Numbers -/

/-- A number, and what follows it. -/
def number? (cs : List Char) : Option (Value × List Char) := do
  let (negative, cs) := match cs with
    | '-' :: cs => (true, cs)
    | cs => (false, cs)
  let whole := cs.takeWhile Char.isDigit
  let rest := cs.dropWhile Char.isDigit
  if whole.isEmpty || (whole.head? = some '0' && whole.length > 1) then none
  let (fraction, rest) ← match rest with
    | '.' :: r =>
      let ds := r.takeWhile Char.isDigit
      if ds.isEmpty then none else some (some ds, r.dropWhile Char.isDigit)
    | r => some (none, r)
  let (power, rest) ← match rest with
    | 'e' :: r => (exponent? r).map fun (p, r) => (some p, r)
    | 'E' :: r => (exponent? r).map fun (p, r) => (some p, r)
    | r => some (none, r)
  let scaled := Scaled.ofDigits whole (fraction.getD []) (power.getD 0)
  let n := digitsValue whole
  if fraction.isNone && power.isNone && n < UInt64.size then
    if !negative then some (.int n, rest)
    else if n = 0 || n > 1 <<< 63 then some (.number, rest)
    else some (.int (-n), rest)
  else some (if scaled.overflows then .unreadable else .number, rest)
where
  exponent? (cs : List Char) : Option (Int × List Char) :=
    let (sign, cs) := splitSign cs
    let ds := cs.takeWhile Char.isDigit
    if ds.isEmpty then none else some (sign * digitsValue ds, cs.dropWhile Char.isDigit)

/-! ## Values -/

def literal? (word : List Char) (v : Value) (cs : List Char) : Option (Value × List Char) :=
  if cs.take word.length = word then some (v, cs.drop word.length) else none

/-- A text that cannot be read may be skipped. -/
def ofText (s : Option String) : Value := s.elim .unreadable .string

mutual

/-- A value that nests at most `fuel` deep, and what follows it. -/
def value? : Nat → List Char → Option (Value × List Char)
  | 0, _ => none
  | fuel + 1, cs =>
    match skipBlanks cs with
    | [] => none
    | '"' :: cs => (string? (some []) cs).map fun (s, r) => (ofText s, r)
    | '[' :: cs =>
      match skipBlanks cs with
      | ']' :: r => some (.list [], r)
      | cs => (elements? fuel cs).map fun (vs, r) => (.list vs, r)
    | '{' :: cs =>
      match skipBlanks cs with
      | '}' :: r => some (.record [], r)
      | cs => (fields? fuel cs).map fun (fs, r) => (.record fs, r)
    | 't' :: cs => literal? "rue".toList (.bool true) cs
    | 'f' :: cs => literal? "alse".toList (.bool false) cs
    | 'n' :: cs => literal? "ull".toList .null cs
    | cs => number? cs

def elements? : Nat → List Char → Option (List Value × List Char)
  | 0, _ => none
  | fuel + 1, cs => do
    let (v, r) ← value? fuel cs
    match skipBlanks r with
    | ']' :: r => some ([v], r)
    | ',' :: r => (elements? fuel r).map fun (vs, r) => (v :: vs, r)
    | _ => none

def fields? : Nat → List Char → Option (List (Value × Value) × List Char)
  | 0, _ => none
  | fuel + 1, cs => do
    let '"' :: r := skipBlanks cs | none
    let (key, r) ← string? (some []) r
    let ':' :: r := skipBlanks r | none
    let (v, r) ← value? fuel r
    match skipBlanks r with
    | '}' :: r => some ([(ofText key, v)], r)
    | ',' :: r => (fields? fuel r).map fun (fs, r) => ((ofText key, v) :: fs, r)
    | _ => none

end

/-- Reads a text that holds one value. -/
def read? (text : String) : Option Value := do
  let cs := text.toList
  let (v, r) ← value? (2 * cs.length + 2) cs
  if (skipBlanks r).isEmpty then some v else none

/-! ## Writing -/

def hexDigit (n : Nat) : Char := (Nat.toDigits 16 n).headD '0'

def escapeChar (c : Char) : List Char :=
  if c = '"' then ['\\', '"']
  else if c = '\\' then ['\\', '\\']
  else if c.toNat < 32 || c.toNat = 0x7F || c.toNat = 0x85 || c.toNat = 0x2028
      || c.toNat = 0x2029 then
    let n := c.toNat
    ['\\', 'u', hexDigit (n / 4096), hexDigit (n / 256 % 16), hexDigit (n / 16 % 16),
      hexDigit (n % 16)]
  else [c]

def writeString (s : String) : String :=
  String.ofList ('"' :: s.toList.flatMap escapeChar ++ ['"'])

mutual

/-- A value on one line. What cannot be read back is written as null. -/
def write : Value → String
  | .null | .number | .unreadable => "null"
  | .bool b => if b then "true" else "false"
  | .int n => toString n
  | .scalar _ s => writeString s
  | .list vs => "[" ++ ",".intercalate (writeAll vs) ++ "]"
  | .record fs => "\x7b" ++ ",".intercalate (writeFields fs) ++ "\x7d"
  | .tagged _ v | .alias v => write v

def writeAll : List Value → List String
  | [] => []
  | v :: vs => write v :: writeAll vs

def writeFields : List (Value × Value) → List String
  | [] => []
  | (k, v) :: fs => (write k ++ ":" ++ write v) :: writeFields fs

end

end Docsmith.Data.Json
