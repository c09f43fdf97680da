/-!
# Decimal numbers

Decimal numbers as digits and a power of ten, and which of them a double can hold.
-/

namespace Docsmith.Data

def digitsValue (ds : List Char) : Nat := ds.foldl (fun n c => n * 10 + (c.toNat - 48)) 0

/-- The sign of a number, and what follows it. -/
def splitSign : List Char → Int × List Char
  | '-' :: cs => (-1, cs)
  | '+' :: cs => (1, cs)
  | cs => (1, cs)

/-! ## Doubles -/

/-- The least number that a double rounds to infinity: half a step above the largest double. -/
def doubleBound : Nat := (1 <<< 54 - 1) <<< 970

/-- The magnitude is too large for a double. -/
def overflows (mantissa : Nat) (exponent : Int) : Bool :=
  if mantissa = 0 then false
  else
    let scale := exponent + (toString mantissa).length
    if scale > 310 then true
    else if scale < 300 then false
    else if 0 ≤ exponent then doubleBound ≤ mantissa * Nat.pow 10 exponent.toNat
    else doubleBound * Nat.pow 10 (-exponent).toNat ≤ mantissa

/-- The nearest number of 53 bits in front of zeros, of two the one with an even last bit. -/
def nearestDouble (n : Nat) : Nat :=
  let shift := n.log2 + 1 - 53
  if shift = 0 then n
  else
    let kept := n >>> shift
    let lost := n - kept <<< shift
    let half := 1 <<< (shift - 1)
    let up := half < lost || (lost = half && kept % 2 = 1)
    (if up then kept + 1 else kept) <<< shift

/-! ## Digits that fit a word -/

/-- A number as the digits that fit 64 bits and a power of ten. -/
structure Scaled where
  significand : Nat
  exponent : Int
  deriving DecidableEq, Repr

namespace Scaled

/-- Digits put behind a number as long as it fits 64 bits, and those that remain. -/
def appendDigits : Nat → List Char → Nat × List Char
  | n, [] => (n, [])
  | n, c :: cs =>
    let m := n * 10 + (c.toNat - 48)
    if m < UInt64.size then appendDigits m cs else (n, c :: cs)

/-- The number with the digits before and behind a point and a power of ten. Digits that do not fit
count as zeros, but those behind the point are tried again. -/
def ofDigits (whole fraction : List Char) (power : Int) : Scaled :=
  let (n, excess) := appendDigits 0 whole
  let (n, unused) := appendDigits n fraction
  ⟨n, power + excess.length - (fraction.length - unused.length)⟩

/-- The product of the significand and the power of ten, both as doubles, is too large for one. -/
def overflows (s : Scaled) : Bool :=
  s.significand ≠ 0 &&
    (308 < s.exponent || (0 ≤ s.exponent &&
      doubleBound ≤
        nearestDouble s.significand * nearestDouble (Nat.pow 10 s.exponent.toNat)))

end Scaled

end Docsmith.Data
