/-!
# The keystream

The words of ChaCha with twelve rounds, a 64-bit block counter and no nonce, under a key that a
64-bit seed is stretched to.
-/

namespace Docsmith.Random

/-! ## Keys -/

/-- The next state of the generator that stretches a seed. -/
def stretch (state : UInt64) : UInt64 :=
  state * 6364136223846793005 + 11634580027462260723

def rotateLeft (x k : UInt32) : UInt32 :=
  (x <<< k) ||| (x >>> (32 - k))

/-- The word a state yields: its high bits mixed, rotated by the highest five. -/
def stretchedWord (state : UInt64) : UInt32 :=
  let mixed := (((state >>> 18) ^^^ state) >>> 27).toUInt32
  let turn := (state >>> 59).toUInt32
  (mixed >>> turn) ||| (mixed <<< ((32 - turn) % 32))

/-- The first words a seed is stretched to. -/
def stretchedWords : Nat → UInt64 → List UInt32
  | 0, _ => []
  | n + 1, state => stretchedWord (stretch state) :: stretchedWords n (stretch state)

theorem length_stretchedWords (n : Nat) (state : UInt64) : (stretchedWords n state).length = n := by
  induction n generalizing state with
  | zero => rfl
  | succ n ih => simp [stretchedWords, ih]

/-- The eight words of a key. -/
abbrev Key := Vector UInt32 8

def Key.ofSeed (seed : UInt64) : Key :=
  ⟨(stretchedWords 8 seed).toArray, by simp [length_stretchedWords]⟩

/-! ## Blocks -/

abbrev Block := Vector UInt32 16

/-- Mixes four words. -/
def quarterRound (s : Block) (a b c d : Fin 16) : Block :=
  let s := s.set a (s[a] + s[b])
  let s := s.set d (rotateLeft (s[d] ^^^ s[a]) 16)
  let s := s.set c (s[c] + s[d])
  let s := s.set b (rotateLeft (s[b] ^^^ s[c]) 12)
  let s := s.set a (s[a] + s[b])
  let s := s.set d (rotateLeft (s[d] ^^^ s[a]) 8)
  let s := s.set c (s[c] + s[d])
  s.set b (rotateLeft (s[b] ^^^ s[c]) 7)

/-- A round over the columns and one over the diagonals. -/
def doubleRound (s : Block) : Block :=
  let s := quarterRound s 0 4 8 12
  let s := quarterRound s 1 5 9 13
  let s := quarterRound s 2 6 10 14
  let s := quarterRound s 3 7 11 15
  let s := quarterRound s 0 5 10 15
  let s := quarterRound s 1 6 11 12
  let s := quarterRound s 2 7 8 13
  quarterRound s 3 4 9 14

def initialBlock (key : Key) (counter : UInt64) : Block :=
  #v[0x61707865, 0x3320646e, 0x79622d32, 0x6b206574,
    key[0], key[1], key[2], key[3], key[4], key[5], key[6], key[7],
    counter.toUInt32, (counter >>> 32).toUInt32, 0, 0]

/-- The block of a counter. -/
def block (key : Key) (counter : UInt64) : Block :=
  let start := initialBlock key counter
  let mixed := (List.range 6).foldl (fun s _ => doubleRound s) start
  Vector.zipWith (· + ·) mixed start

/-- The word at a position of the keystream. -/
def word (key : Key) (position : Nat) : UInt32 :=
  (block key (position / 16).toUInt64).get ⟨position % 16, Nat.mod_lt _ (by decide)⟩

/-- How many words there are before the counter of the blocks starts again. -/
def period : Nat := 16 * UInt64.size

end Docsmith.Random
