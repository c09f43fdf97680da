import Docsmith.Data.Decimal

/-!
# Plain scalars

What a scalar without quotes stands for: nothing, a truth value, a whole number, a number with a
point or exponent, or else itself.
-/

namespace Docsmith.Data

/-! ## Words -/

def isNullWord (s : String) : Bool := s = "null" || s = "Null" || s = "NULL" || s = "~"

/-- Nothing, written out or left out. -/
def isNothing (s : String) : Bool := s.isEmpty || isNullWord s

def boolOf? : String → Option Bool
  | "true" | "True" | "TRUE" => some true
  | "false" | "False" | "FALSE" => some false
  | _ => none

/-! ## Whole numbers -/

def radixDigit? (radix : Nat) (c : Char) : Option Nat :=
  let d :=
    if c.isDigit then c.toNat - 48
    else if 'a' ≤ c && c ≤ 'z' then c.toNat - 87
    else if 'A' ≤ c && c ≤ 'Z' then c.toNat - 55
    else radix
  if d < radix then some d else none

/-- A number in a base, at least one digit long. -/
def natOf? (radix : Nat) : List Char → Option Nat
  | [] => none
  | cs => cs.foldlM (fun n c => (radixDigit? radix c).map (n * radix + ·)) 0

/-- Digits behind a leading zero do not make a number. -/
def hasLeadingZero (cs : List Char) : Bool :=
  match cs with
  | '0' :: c :: rest => (c :: rest).all Char.isDigit
  | _ => false

def hasMinus (s : String) : Bool := s.toList.head? = some '-'

/-- A whole number with a sign or without. -/
def signedOf? (s : String) : Option Int :=
  let (sign, cs) := splitSign s.toList
  let based : Option Nat :=
    match cs with
    | '0' :: 'x' :: ds => natOf? 16 ds
    | '0' :: 'o' :: ds => natOf? 8 ds
    | '0' :: 'b' :: ds => natOf? 2 ds
    | _ => none
  match based with
  | some n => some (sign * n)
  | none => if hasLeadingZero cs then none else (natOf? 10 cs).map (sign * ·)

/-- A whole number without a minus, which not even zero may have. -/
def unsignedOf? (s : String) : Option Nat :=
  if hasMinus s then none else (signedOf? s).map Int.toNat

def isSigned64 (n : Int) : Bool := Int64.minValue.toInt ≤ n && n ≤ Int64.maxValue.toInt

/-- A whole number as large as plain scalars can hold, 128 bits with or without a sign. -/
def wholeOf? (s : String) : Option Int :=
  (signedOf? s).filter fun n => if hasMinus s then n.natAbs ≤ 1 <<< 127 else n.natAbs < 1 <<< 128

/-! ## Other numbers -/

/-- A number with digits, a point and an exponent that a double holds, or none or an endless one. -/
def isReal (s : String) : Bool :=
  let special := [".inf", ".Inf", ".INF", "+.inf", "+.Inf", "+.INF", "-.inf", "-.Inf", "-.INF",
    ".nan", ".NaN", ".NAN"]
  special.contains s ||
    let (_, cs) := splitSign s.toList
    let whole := cs.takeWhile Char.isDigit
    let rest := cs.dropWhile Char.isDigit
    let (fraction, rest) : List Char × List Char := match rest with
      | '.' :: r => (r.takeWhile Char.isDigit, r.dropWhile Char.isDigit)
      | r => ([], r)
    let power : Option Int := match rest with
      | [] => some 0
      | c :: r =>
        let (sign, ds) := splitSign r
        if (c = 'e' || c = 'E') && !ds.isEmpty && ds.all Char.isDigit then
          some (sign * digitsValue ds)
        else none
    !(whole.isEmpty && fraction.isEmpty) &&
      power.any fun p => !overflows (digitsValue (whole ++ fraction)) (p - fraction.length)

end Docsmith.Data
