/-!
# Sets of characters

A set of characters is a sorted list of change points: a character belongs to it when an odd
number of change points are at or below it.
-/

namespace Docsmith.Text

/-- The change points of a set, in increasing order. The set starts empty at character 0. -/
structure CharSet where
  points : List Nat

/-- Membership, read off the pairs of change points. -/
def covers : List Nat → Nat → Bool
  | [], _ => false
  | [lo], n => lo ≤ n
  | lo :: hi :: rest, n => if n < lo then false else n < hi || covers rest n

namespace CharSet

def contains (s : CharSet) (c : Char) : Bool :=
  covers s.points c.toNat

end CharSet

theorem covers_pair (lo hi : Nat) (rest : List Nat) (n : Nat) (h : lo ≤ n) :
    covers (lo :: hi :: rest) n = (decide (n < hi) || covers rest n) := by
  simp [covers, Nat.not_lt.2 h]

end Docsmith.Text
