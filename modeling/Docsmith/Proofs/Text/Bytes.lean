import Mathlib.Data.List.Flatten
import Mathlib.Data.String.Basic

/-!
# Texts and their bytes

Texts are compared character by character, names of files byte by byte. Both orders are the same,
as the bytes of a character are the digits of its number, behind a mark that tells how many there
are.

* `bytes_lt`: a text comes before another if its bytes do.
-/

namespace Docsmith.Text

/-- The bytes of a text. -/
def bytes (s : String) : List UInt8 := s.toByteArray.data.toList

theorem bytes_eq_flatMap (s : String) : bytes s = s.toList.flatMap String.utf8EncodeChar := by
  rw [bytes, ← String.utf8Encode_toList, List.utf8Encode, List.toList_data_toByteArray]

theorem length_bytes (s : String) : (bytes s).length = s.utf8ByteSize := rfl

/-- A text from which characters are left out takes no more bytes. -/
theorem utf8ByteSize_le_of_sublist {s t : String} (h : s.toList.Sublist t.toList) :
    s.utf8ByteSize ≤ t.utf8ByteSize := by
  rw [← length_bytes, ← length_bytes, bytes_eq_flatMap, bytes_eq_flatMap, List.flatMap_def,
    List.flatMap_def]
  exact (h.map _).flatten.length_le

/-! ## The order of bytes -/

theorem ofNat_lt {m n : Nat} (h : m < n) (hn : n < 256) (us vs : List UInt8) :
    UInt8.ofNat m :: us < UInt8.ofNat n :: vs := by
  refine List.cons_lt_cons_iff.2 (.inl ?_)
  rw [UInt8.lt_iff_toNat_lt, UInt8.toNat_ofNat', UInt8.toNat_ofNat']
  omega

theorem toNat_lt (c : Char) : c.toNat < 0x110000 := by
  rcases c.valid with h | h
  · exact Nat.lt_trans h (by decide)
  · exact h.2

/-- The bytes behind the first one of a character: the last digits of its number. -/
def lastDigits : Nat → Nat → List UInt8
  | 0, _ => []
  | k + 1, n => UInt8.ofNat (n / 64 ^ k % 64 + 128) :: lastDigits k n

/-- Among numbers that differ in their last digits only, these tell which is greater. -/
theorem lastDigits_lt {k m n : Nat} (h : m < n) (hk : m / 64 ^ k = n / 64 ^ k)
    (us vs : List UInt8) : lastDigits k m ++ us < lastDigits k n ++ vs := by
  induction k with
  | zero =>
    rw [Nat.pow_zero, Nat.div_one, Nat.div_one] at hk
    omega
  | succ k ih =>
    rw [lastDigits, lastDigits, List.cons_append, List.cons_append]
    rcases Nat.lt_or_eq_of_le (Nat.div_le_div_right (c := 64 ^ k) (Nat.le_of_lt h)) with hd | hd
    · rw [Nat.pow_succ, ← Nat.div_div_eq_div_mul, ← Nat.div_div_eq_div_mul] at hk
      exact ofNat_lt (by omega) (by omega) _ _
    · rw [hd]
      exact List.cons_lt_cons_iff.2 (.inr ⟨rfl, ih hd⟩)

/-- How many bytes follow the first one of a character, and the mark on that one. -/
theorem utf8EncodeChar_eq (c : Char) : ∃ k mark,
    String.utf8EncodeChar c = UInt8.ofNat (c.toNat / 64 ^ k + mark) :: lastDigits k c.toNat ∧
      (k = 0 ∧ mark = 0 ∧ c.toNat ≤ 0x7F ∨
        k = 1 ∧ mark = 0xC0 ∧ 0x7F < c.toNat ∧ c.toNat ≤ 0x7FF ∨
        k = 2 ∧ mark = 0xE0 ∧ 0x7FF < c.toNat ∧ c.toNat ≤ 0xFFFF ∨
        k = 3 ∧ mark = 0xF0 ∧ 0xFFFF < c.toNat) := by
  have hc := toNat_lt c
  rw [String.utf8EncodeChar, show c.val.toNat = c.toNat from rfl]
  generalize c.toNat = n at *
  split_ifs with h₁ h₂ h₃
  · exact ⟨0, 0, by simp [lastDigits], by omega⟩
  · exact ⟨1, 0xC0, by simp [lastDigits, Nat.mod_eq_of_lt (show n / 64 < 32 by omega)], by omega⟩
  · exact ⟨2, 0xE0, by simp [lastDigits, Nat.mod_eq_of_lt (show n / 4096 < 16 by omega)], by omega⟩
  · exact ⟨3, 0xF0, by simp [lastDigits, Nat.mod_eq_of_lt (show n / 262144 < 8 by omega)], by omega⟩

/-- The bytes of a character come before those of a greater one, whatever follows. -/
theorem utf8EncodeChar_lt {c d : Char} (h : c < d) (us vs : List UInt8) :
    String.utf8EncodeChar c ++ us < String.utf8EncodeChar d ++ vs := by
  have hlt : c.toNat < d.toNat := UInt32.lt_iff_toNat_lt.1 (Char.lt_def.1 h)
  have hd := toNat_lt d
  obtain ⟨k, mark, hce, hck⟩ := utf8EncodeChar_eq c
  obtain ⟨l, mark', hde, hdl⟩ := utf8EncodeChar_eq d
  rw [hce, hde, List.cons_append, List.cons_append]
  generalize c.toNat = m at *
  generalize d.toNat = n at *
  by_cases hkl : k = l ∧ m / 64 ^ k = n / 64 ^ k
  · obtain ⟨rfl, hq⟩ := hkl
    obtain rfl : mark = mark' := by omega
    rw [hq]
    exact List.cons_lt_cons_iff.2 (.inr ⟨rfl, lastDigits_lt hlt hq us vs⟩)
  · -- the first bytes differ: by the mark if not as many bytes follow, or else by the first digit
    refine ofNat_lt ?_ ?_ _ _
    · rcases hck with ⟨rfl, rfl, hm⟩ | ⟨rfl, rfl, hm⟩ | ⟨rfl, rfl, hm⟩ | ⟨rfl, rfl, hm⟩ <;>
        rcases hdl with ⟨rfl, rfl, hn⟩ | ⟨rfl, rfl, hn⟩ | ⟨rfl, rfl, hn⟩ | ⟨rfl, rfl, hn⟩ <;>
        omega
    · rcases hdl with ⟨rfl, rfl, hn⟩ | ⟨rfl, rfl, hn⟩ | ⟨rfl, rfl, hn⟩ | ⟨rfl, rfl, hn⟩ <;> omega

theorem flatMap_utf8EncodeChar_lt {cs ds : List Char} (h : cs < ds) :
    cs.flatMap String.utf8EncodeChar < ds.flatMap String.utf8EncodeChar := by
  induction cs generalizing ds with
  | nil =>
    cases ds with
    | nil => cases h
    | cons d ds =>
      obtain ⟨k, mark, hd, -⟩ := utf8EncodeChar_eq d
      rw [List.flatMap_cons, hd]
      exact List.nil_lt_cons ..
  | cons c cs ih =>
    cases ds with
    | nil => cases h
    | cons d ds =>
      rw [List.flatMap_cons, List.flatMap_cons]
      rcases List.cons_lt_cons_iff.1 h with hc | ⟨rfl, hcs⟩
      · exact utf8EncodeChar_lt hc _ _
      · exact List.append_left_lt (ih hcs)

/-- A text that comes before another does so byte by byte. -/
theorem bytes_lt {s t : String} (h : s < t) : bytes s < bytes t := by
  rw [bytes_eq_flatMap, bytes_eq_flatMap]
  exact flatMap_utf8EncodeChar_lt (String.lt_iff_toList_lt.1 h)

end Docsmith.Text
