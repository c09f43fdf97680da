import Docsmith.Random.Keystream

/-!
# Numbers below a bound

A generator reads a keystream word by word. A word is scaled to the bound; words that would make
some numbers likelier than others are passed over.

* `Generator.below_lt`: a number below the bound.
-/

namespace Docsmith.Random

/-- A keystream and the position of its next word. -/
structure Generator where
  key : Key
  position : Nat
  deriving Repr, DecidableEq

namespace Generator

def ofSeed (seed : UInt64) : Generator := ⟨.ofSeed seed, 0⟩

/-- The largest fraction that is accepted: the bound, shifted to fill 32 bits, less one. -/
def zone (bound : Nat) : Nat := bound <<< (31 - bound.log2) - 1

/-- A number below the bound, from the first word whose fraction is accepted. At most `fuel` words are
passed over. -/
def search (key : Key) (bound : Nat) : Nat → Nat → Nat × Nat
  | 0, position => ((word key position).toNat * bound / UInt32.size, position + 1)
  | fuel + 1, position =>
    let product := (word key position).toNat * bound
    if product % UInt32.size ≤ zone bound then (product / UInt32.size, position + 1)
    else search key bound fuel (position + 1)

theorem search_lt (key : Key) {bound : Nat} (h : 0 < bound) (fuel position : Nat) :
    (search key bound fuel position).1 < bound := by
  have scaled (w : UInt32) : w.toNat * bound / UInt32.size < bound := by
    rw [Nat.div_lt_iff_lt_mul (by decide), Nat.mul_comm]
    exact Nat.mul_lt_mul_of_pos_left w.toNat_lt h
  induction fuel generalizing position with
  | zero => exact scaled _
  | succ fuel ih =>
    simp only [search]
    split
    · exact scaled _
    · exact ih _

/-- A number below a positive bound, and the generator behind it. The words repeat with their period,
so no more of them need be looked at. -/
def below (bound : Nat) (g : Generator) : Nat × Generator :=
  let found := search g.key bound period g.position
  (found.1, { g with position := found.2 })

theorem below_lt {bound : Nat} (h : 0 < bound) (g : Generator) : (g.below bound).1 < bound :=
  search_lt g.key h _ _

end Generator

end Docsmith.Random
