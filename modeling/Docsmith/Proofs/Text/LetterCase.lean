import Docsmith.Text.Identifier
import Docsmith.Text.LetterCase

/-!
# Letters of identifiers

What starts an identifier continues one. Upper case keeps what may stand in an identifier, and
starts with a letter that is its own upper case and no lower case letter of ASCII.

* `covers_of_coversAll`, `covers_of_includes`: how sets of characters are compared;
* `isIdentContinue_of_isIdentStart`: the letters that start identifiers;
* `shiftOf_eq`: how far a character is moved, by induction on the runs;
* `isIdentContinue_of_mem_upperChar`, `exists_head_upperChar`: what replaces a character;
* `upperChar_head`, `underscore_notMem_upperChar`: how it starts, and what it does not hold.
-/

namespace Docsmith.Text

/-- A shift is none, or that of a run the character belongs to. -/
theorem shiftOf_eq (runs : List CaseRun) (n : Nat) :
    shiftOf runs n = 0 ∨ ∃ r ∈ runs, r.first ≤ n ∧ n ≤ r.last ∧ (n - r.first) % r.step = 0 ∧
      shiftOf runs n = r.shift := by
  induction runs with
  | nil => exact .inl rfl
  | cons r runs ih =>
    rw [shiftOf]
    split
    · exact .inl rfl
    · rename_i hn
      split
      · rename_i hr
        rw [Bool.and_eq_true, decide_eq_true_eq, decide_eq_true_eq] at hr
        exact .inr ⟨r, List.mem_cons_self .., by omega, hr.1, hr.2, rfl⟩
      · refine ih.imp_right ?_
        rintro ⟨r', hr', h⟩
        exact ⟨r', List.mem_cons_of_mem _ hr', h⟩

theorem toNat_ofNat (n : Nat) : (Char.ofNat n).toNat = n ∨ (Char.ofNat n).toNat = 0 := by
  by_cases h : n.isValidChar
  · refine .inl ?_
    rw [Char.ofNat, dif_pos h]
    rfl
  · refine .inr ?_
    rw [Char.ofNat, dif_neg h]
    rfl

/-! ## Runs within a set -/

/-- All from `lo` to `hi` belong to one part of a set. -/
def coversAll : List Nat → Nat → Nat → Bool
  | a :: b :: rest, lo, hi =>
    bif a.ble lo then bif hi.blt b then true else coversAll rest lo hi else false
  | _, _, _ => false

theorem covers_of_coversAll {points : List Nat} {lo hi n : Nat} (h : coversAll points lo hi = true)
    (hlo : lo ≤ n) (hhi : n ≤ hi) : covers points n = true := by
  fun_induction coversAll points lo hi with
  | case1 a b rest lo hi ha hb =>
    have hle := Nat.le_of_ble_eq_true ha
    have hlt : hi < b := Nat.le_of_ble_eq_true hb
    rw [covers_pair _ _ _ _ (by omega), Bool.or_eq_true, decide_eq_true_eq]
    exact .inl (by omega)
  | case2 a b rest lo hi ha hb ih =>
    have hle := Nat.le_of_ble_eq_true ha
    rw [covers_pair _ _ _ _ (by omega), Bool.or_eq_true]
    exact .inr (ih h hlo hhi)
  | case3 | case4 => cases h

/-- All from `lo` to `hi` are numbers of characters. -/
def AllValid (lo hi : Nat) : Prop := hi < 0xd800 ∨ (0xdfff < lo ∧ hi < 0x110000)

instance (lo hi : Nat) : Decidable (AllValid lo hi) := inferInstanceAs (Decidable (_ ∨ _))

theorem toNat_ofNat_of_allValid {lo hi n : Nat} (h : AllValid lo hi) (hlo : lo ≤ n) (hhi : n ≤ hi) :
    (Char.ofNat n).toNat = n := by
  have hn : n.isValidChar := h.imp (by omega) (by omega)
  rw [Char.ofNat, dif_pos hn]
  rfl

namespace CaseRun

/-- The least and the greatest of what a run makes of its characters. -/
def bounds (r : CaseRun) : Nat × Nat := ((r.first + r.shift).toNat, (r.last + r.shift).toNat)

/-- What a run makes of the characters that continue an identifier continues one: all of it, or what
it makes of each. -/
def keepsIdent (r : CaseRun) : Bool :=
  coversAll xidContinue.points r.bounds.1 r.bounds.2 && AllValid r.bounds.1 r.bounds.2 ||
    (List.range (r.last - r.first + 1)).all fun i =>
      i % r.step ≠ 0 || !covers xidContinue.points (r.first + i) ||
        isIdentContinue (Char.ofNat (r.first + i + r.shift).toNat)

/-- What a run makes of its characters holds no lower case letter of ASCII. -/
def leavesAscii (r : CaseRun) : Bool := r.bounds.2 < 97 || 122 < r.bounds.1

variable {r : CaseRun} {c : Char} (hfirst : r.first ≤ c.toNat) (hlast : c.toNat ≤ r.last)
include hfirst hlast

theorem isIdentContinue_of_keepsIdent (h : r.keepsIdent = true)
    (hstep : (c.toNat - r.first) % r.step = 0) (hc : isIdentContinue c = true) :
    isIdentContinue (Char.ofNat (c.toNat + r.shift).toNat) = true := by
  rw [keepsIdent, Bool.or_eq_true, Bool.and_eq_true, decide_eq_true_eq] at h
  rcases h with ⟨hall, hvalid⟩ | hall
  · have hlo : r.bounds.1 ≤ (c.toNat + r.shift).toNat := by
      rw [bounds]
      omega
    have hhi : (c.toNat + r.shift).toNat ≤ r.bounds.2 := by
      rw [bounds]
      omega
    rw [isIdentContinue, CharSet.contains, toNat_ofNat_of_allValid hvalid hlo hhi]
    exact covers_of_coversAll hall hlo hhi
  · have hat := List.all_eq_true.1 hall (c.toNat - r.first) (List.mem_range.2 (by omega))
    rw [isIdentContinue, CharSet.contains] at hc
    have hn : r.first + (c.toNat - r.first) = c.toNat := by omega
    have hn' : (r.first : Int) + ((c.toNat - r.first : Nat) : Int) = c.toNat := by omega
    rw [hn, hn', hstep, hc] at hat
    simpa using hat

theorem not_asciiLower_of_leavesAscii (h : r.leavesAscii = true) :
    ¬ (97 ≤ (Char.ofNat (c.toNat + r.shift).toNat).toNat ∧
      (Char.ofNat (c.toNat + r.shift).toNat).toNat ≤ 122) := by
  rw [leavesAscii, Bool.or_eq_true, decide_eq_true_eq, decide_eq_true_eq, bounds] at h
  rcases toNat_ofNat (c.toNat + r.shift).toNat with hn | hn <;> omega

end CaseRun

/-- A set without the parts that end in front of a character. -/
def partsFrom (n : Nat) : List Nat → List Nat
  | a :: b :: rest => bif a.ble b && b.ble n then partsFrom n rest else a :: b :: rest
  | ns => ns

/-- Each part of a set belongs to one part of another. -/
def includes : List Nat → List Nat → Bool
  | [], _ => true
  | a :: b :: rest, points =>
    match partsFrom a points with
    | c :: d :: more => c.ble a && b.ble d && includes rest (c :: d :: more)
    | _ => false
  | [_], _ => false

theorem covers_of_partsFrom {points : List Nat} {m n : Nat} (hmn : m ≤ n)
    (h : covers (partsFrom m points) n = true) : covers points n = true := by
  fun_induction partsFrom m points with
  | case1 a b rest hb ih =>
    rw [Bool.and_eq_true] at hb
    have hab := Nat.le_of_ble_eq_true hb.1
    have hbm := Nat.le_of_ble_eq_true hb.2
    rw [covers_pair _ _ _ _ (by omega), ih h, Bool.or_true]
  | case2 => exact h
  | case3 => exact h

theorem covers_of_includes {points more : List Nat} {n : Nat} (h : includes points more = true)
    (hn : covers points n = true) : covers more n = true := by
  fun_induction includes points more with
  | case1 => cases hn
  | case2 a b rest points c d more hparts ih =>
    rw [Bool.and_eq_true, Bool.and_eq_true] at h
    have hca := Nat.le_of_ble_eq_true h.1.1
    have hbd := Nat.le_of_ble_eq_true h.1.2
    have han : a ≤ n := by
      refine Nat.le_of_not_lt fun hlt => ?_
      rw [covers, if_pos hlt] at hn
      cases hn
    rw [covers_pair _ _ _ _ han, Bool.or_eq_true, decide_eq_true_eq] at hn
    refine covers_of_partsFrom han ?_
    rw [hparts]
    rcases hn with hn | hn
    · rw [covers_pair _ _ _ _ (by omega), Bool.or_eq_true, decide_eq_true_eq]
      exact .inl (by omega)
    · exact ih h.2 hn
  | case3 => cases h
  | case4 => cases h

/-- What starts an identifier continues one. -/
theorem isIdentContinue_of_isIdentStart {c : Char} (h : isIdentStart c = true) :
    isIdentContinue c = true := by
  have hbar : isIdentContinue '_' = true := by decide +kernel
  have hall : includes xidStart.points xidContinue.points = true := by decide +kernel
  rw [isIdentStart, Bool.or_eq_true, decide_eq_true_eq] at h
  rcases h with rfl | h
  · exact hbar
  · exact covers_of_includes hall h

/-! ## Upper case -/

theorem upperChar_eq (c : Char) : upperChar c =
    match upperExpansions.find? (·.1 = c.toNat) with
    | some e => e.2.map Char.ofNat
    | none => [if shiftOf upperRuns c.toNat = 0 then c
      else Char.ofNat (c.toNat + shiftOf upperRuns c.toNat).toNat] := rfl

theorem upperRuns_keepsIdent : ∀ r ∈ upperRuns, r.keepsIdent = true := by
  have h : upperRuns.all CaseRun.keepsIdent = true := by decide +kernel
  exact List.all_eq_true.1 h

theorem upperRuns_leavesAscii : ∀ r ∈ upperRuns, r.leavesAscii = true := by
  have h : upperRuns.all CaseRun.leavesAscii = true := by decide +kernel
  exact List.all_eq_true.1 h

/-- What replaces a letter when more than one letter does: all of it continues an identifier, and it
starts with no lower case letter of ASCII. -/
theorem upperExpansions_fit : ∀ e ∈ upperExpansions,
    (∀ n ∈ e.2, coversAll xidContinue.points n n = true ∧ AllValid n n) ∧
      ∃ n, e.2.head? = some n ∧ (n < 97 ∨ 122 < n) := by
  have h : (upperExpansions.all fun e =>
      (e.2.all fun n => coversAll xidContinue.points n n && AllValid n n) &&
        e.2.head?.any fun n => n < 97 || 122 < n) = true := by decide +kernel
  intro e he
  have hat := List.all_eq_true.1 h e he
  simpa [Option.any_eq_true] using hat

/-- The upper case of what continues an identifier continues one. -/
theorem isIdentContinue_of_mem_upperChar {c d : Char} (hc : isIdentContinue c = true)
    (hd : d ∈ upperChar c) : isIdentContinue d = true := by
  rw [upperChar_eq] at hd
  split at hd
  · rename_i e he
    obtain ⟨n, hn, rfl⟩ := List.mem_map.1 hd
    obtain ⟨hall, hvalid⟩ := (upperExpansions_fit e (List.mem_of_find?_eq_some he)).1 n hn
    rw [isIdentContinue, CharSet.contains, toNat_ofNat_of_allValid hvalid (Nat.le_refl n) (Nat.le_refl n)]
    exact covers_of_coversAll hall (Nat.le_refl n) (Nat.le_refl n)
  · obtain rfl := List.mem_singleton.1 hd
    split
    · exact hc
    · rename_i hs
      rcases shiftOf_eq upperRuns c.toNat with h | ⟨r, hr, hfirst, hlast, hstep, h⟩
      · exact absurd h hs
      · rw [h]
        exact CaseRun.isIdentContinue_of_keepsIdent hfirst hlast (upperRuns_keepsIdent r hr) hstep hc

/-- Upper case starts with no lower case letter of ASCII. -/
theorem exists_head_upperChar (c : Char) :
    ∃ d ds, upperChar c = d :: ds ∧ ¬ (97 ≤ d.toNat ∧ d.toNat ≤ 122) := by
  rw [upperChar_eq]
  split
  · rename_i e he
    obtain ⟨hfits, n, hhead, hn⟩ := upperExpansions_fit e (List.mem_of_find?_eq_some he)
    obtain ⟨ns, hns⟩ := List.head?_eq_some_iff.1 hhead
    have hvalid := (hfits n (List.mem_of_mem_head? hhead)).2
    refine ⟨Char.ofNat n, ns.map Char.ofNat, by rw [hns, List.map_cons], ?_⟩
    rw [toNat_ofNat_of_allValid hvalid (Nat.le_refl n) (Nat.le_refl n)]
    omega
  · refine ⟨_, [], rfl, ?_⟩
    split
    · rename_i hs
      -- the letters of ASCII make the first run
      intro hc
      have hruns : upperRuns = ⟨97, 122, 1, -32⟩ :: upperRuns.tail := rfl
      rw [hruns, shiftOf, if_neg (Nat.not_lt.2 hc.1), if_pos (by simp [hc.2, Nat.mod_one])] at hs
      cases hs
    · rename_i hs
      rcases shiftOf_eq upperRuns c.toNat with h | ⟨r, hr, hfirst, hlast, -, h⟩
      · exact absurd h hs
      · rw [h]
        exact CaseRun.not_asciiLower_of_leavesAscii hfirst hlast (upperRuns_leavesAscii r hr)

/-! ## Upper case of upper case -/

/-- None of the numbers stands from `lo` to `hi`. -/
def avoids (lo hi : Nat) (ns : List Nat) : Bool :=
  ns.foldr (fun n rest => bif hi.blt n then rest else bif n.blt lo then rest else false) true

theorem notMem_of_avoids {lo hi n : Nat} {ns : List Nat} (h : avoids lo hi ns = true) (hlo : lo ≤ n)
    (hhi : n ≤ hi) : n ∉ ns := by
  induction ns with
  | nil => exact List.not_mem_nil
  | cons m ns ih =>
    rw [avoids, List.foldr_cons, ← avoids] at h
    rw [List.mem_cons]
    rintro (rfl | hmem)
    · have hfront : hi.blt n = false := by rwa [← Bool.not_eq_true, Nat.blt_eq, Nat.not_lt]
      have hback : n.blt lo = false := by rwa [← Bool.not_eq_true, Nat.blt_eq, Nat.not_lt]
      rw [hfront, hback] at h
      cases h
    · refine ih ?_ hmem
      cases hfront : hi.blt m <;> cases hback : m.blt lo <;> rw [hfront, hback] at h <;>
        first | exact h | cases h

/-- No run moves a number from `lo` to `hi`. With `even`, only each second one counts, `lo` first. -/
def clears (lo hi : Nat) (even : Bool) (runs : List CaseRun) : Bool :=
  runs.foldr (fun r rest =>
    bif hi.blt r.first then true
    else bif r.last.blt lo then rest
    else bif even && r.step.beq 2 && ((lo + r.first) % 2).beq 1 then rest else false) true

theorem shiftOf_of_clears {runs : List CaseRun} {lo hi n : Nat} {even : Bool}
    (h : clears lo hi even runs = true) (hlo : lo ≤ n) (hhi : n ≤ hi)
    (heven : even = true → (n - lo) % 2 = 0) : shiftOf runs n = 0 := by
  induction runs with
  | nil => rfl
  | cons r runs ih =>
    rw [shiftOf]
    split
    · rfl
    · rename_i hfirst
      have hbefore : hi.blt r.first = false := by
        rw [← Bool.not_eq_true, Nat.blt_eq]
        omega
      rw [clears, List.foldr_cons, ← clears, hbefore, cond_false] at h
      cases hbehind : r.last.blt lo with
      | true =>
        rw [hbehind, cond_true] at h
        rw [Nat.blt_eq] at hbehind
        rw [if_neg (by simp; omega), ih h]
      | false =>
        rw [hbehind, cond_false, Bool.cond_false_right, Bool.and_eq_true, Bool.and_eq_true,
          Bool.and_eq_true, Nat.beq_eq, Nat.beq_eq] at h
        obtain ⟨⟨⟨he, htwo⟩, hodd⟩, h⟩ := h
        have hn := heven he
        rw [htwo, if_neg (by simp; omega), ih h]

/-- A number of a character that is its own upper case. -/
def Capital (n : Nat) : Prop := shiftOf upperRuns n = 0 ∧ n ∉ upperExpansions.map (·.1)

theorem upperChar_of_capital {c : Char} (h : Capital c.toNat) : upperChar c = [c] := by
  have hnone : upperExpansions.find? (·.1 = c.toNat) = none := by
    rw [List.find?_eq_none]
    exact fun e he heq => h.2 (List.mem_map.2 ⟨e, he, of_decide_eq_true heq⟩)
  rw [upperChar_eq, hnone]
  exact congrArg ([·]) (if_pos h.1)

/-- What a run makes of its numbers stays within its bounds and is in upper case, and none of it is an
underscore. -/
theorem upperRuns_fit : upperRuns.all (fun r => decide (0 ≤ r.first + r.shift) &&
    clears r.bounds.1 r.bounds.2 (r.step.beq 2 || r.first.beq r.last) upperRuns &&
    avoids r.bounds.1 r.bounds.2 (95 :: upperExpansions.map (·.1))) = true := by
  decide +kernel

/-- The first number of an expansion is in upper case, and none is an underscore. -/
theorem upperExpansions_capital : (upperExpansions.all fun e => e.1 ≠ 0 && e.2.all (· ≠ 95) &&
    e.2.head?.all fun n =>
      clears n n true upperRuns && avoids n n (upperExpansions.map (·.1))) = true := by
  decide +kernel

theorem capital_zero : Capital 0 := by
  refine ⟨rfl, fun hmem => ?_⟩
  obtain ⟨e, he, heq⟩ := List.mem_map.1 hmem
  have hfit := List.all_eq_true.1 upperExpansions_capital e he
  simp [heq] at hfit

theorem capital_ofNat {n : Nat} (h : Capital n) : Capital (Char.ofNat n).toNat := by
  rcases toNat_ofNat n with hn | hn <;> rw [hn]
  · exact h
  · exact capital_zero

/-- What a run makes of its numbers is in upper case, and no underscore. -/
theorem capital_of_run {r : CaseRun} {n : Nat} (hr : r ∈ upperRuns) (hfirst : r.first ≤ n)
    (hlast : n ≤ r.last) (hstep : (n - r.first) % r.step = 0) :
    Capital (n + r.shift).toNat ∧ (n + r.shift).toNat ≠ 95 := by
  have hfit := List.all_eq_true.1 upperRuns_fit r hr
  rw [Bool.and_eq_true, Bool.and_eq_true, decide_eq_true_eq] at hfit
  obtain ⟨⟨hsum, hclear⟩, hfree⟩ := hfit
  have hlo : r.bounds.1 ≤ (n + r.shift).toNat := by
    rw [CaseRun.bounds]
    omega
  have hhi : (n + r.shift).toNat ≤ r.bounds.2 := by
    rw [CaseRun.bounds]
    omega
  have hsame : (n + r.shift).toNat - r.bounds.1 = n - r.first := by
    rw [CaseRun.bounds]
    omega
  have hnot := notMem_of_avoids hfree hlo hhi
  rw [List.mem_cons, not_or] at hnot
  refine ⟨⟨shiftOf_of_clears hclear hlo hhi fun heven => ?_, hnot.2⟩, hnot.1⟩
  -- in steps of two, or with one number only, an even distance from the first one is kept
  rw [hsame]
  rw [Bool.or_eq_true, Nat.beq_eq, Nat.beq_eq] at heven
  rcases heven with h | h
  · rwa [h] at hstep
  · omega

theorem capital_of_expansion {e : Nat × List Nat} {n : Nat} (he : e ∈ upperExpansions)
    (hn : e.2.head? = some n) : Capital n := by
  have h := List.all_eq_true.1 upperExpansions_capital e he
  rw [hn, Option.all_some, Bool.and_eq_true, Bool.and_eq_true, Bool.and_eq_true] at h
  have hle := Nat.le_refl n
  exact ⟨shiftOf_of_clears h.2.1 hle hle (by simp), notMem_of_avoids h.2.2 hle hle⟩

/-- The upper case of a character starts with one that is its own upper case. -/
theorem upperChar_head {c d : Char} {ds : List Char} (h : upperChar c = d :: ds) :
    upperChar d = [d] := by
  rw [upperChar_eq] at h
  split at h
  · rename_i e he
    obtain ⟨n, ns, hns, rfl, -⟩ := List.map_eq_cons_iff.1 h
    refine upperChar_of_capital (capital_ofNat ?_)
    exact capital_of_expansion (List.mem_of_find?_eq_some he) (List.head?_eq_some_iff.2 ⟨ns, hns⟩)
  · rename_i hnone
    obtain ⟨rfl, -⟩ := List.cons.inj h
    refine upperChar_of_capital ?_
    split
    · rename_i hs
      refine ⟨hs, fun hmem => ?_⟩
      obtain ⟨e, he, heq⟩ := List.mem_map.1 hmem
      simpa [heq] using List.find?_eq_none.1 hnone e he
    · rename_i hs
      rcases shiftOf_eq upperRuns c.toNat with h | ⟨r, hr, hfirst, hlast, hstep, h⟩
      · exact absurd h hs
      · rw [h]
        exact capital_ofNat (capital_of_run hr hfirst hlast hstep).1

/-- No other character has an underscore in its upper case. -/
theorem underscore_notMem_upperChar {c : Char} (hc : c ≠ '_') : '_' ∉ upperChar c := by
  have hbar {n : Nat} (h : n ≠ 95) : Char.ofNat n ≠ '_' := fun heq => by
    have h95 : (Char.ofNat n).toNat = 95 := by
      rw [heq]
      rfl
    rcases toNat_ofNat n with hn | hn <;> omega
  rw [upperChar_eq]
  split
  · rename_i e he
    rw [List.mem_map]
    rintro ⟨n, hn, heq⟩
    have hfit := List.all_eq_true.1 upperExpansions_capital e (List.mem_of_find?_eq_some he)
    rw [Bool.and_eq_true, Bool.and_eq_true] at hfit
    exact hbar (of_decide_eq_true (List.all_eq_true.1 hfit.1.2 n hn)) heq
  · rw [List.mem_singleton]
    split
    · exact hc.symm
    · rename_i hs
      rcases shiftOf_eq upperRuns c.toNat with h | ⟨r, hr, hfirst, hlast, hstep, h⟩
      · exact absurd h hs
      · rw [h]
        exact (hbar (capital_of_run hr hfirst hlast hstep).2).symm

end Docsmith.Text
