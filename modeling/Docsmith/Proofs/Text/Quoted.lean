import Docsmith.Text.Quoted
import Mathlib.Data.List.Basic

/-!
# What a quoted text stands for

A string literal is read by rules of its own, which know more escapes than a quoted text uses: by a
letter, by two digits, by a number in braces, and a backslash at the end of a line, which takes the
blanks behind it. A quoted text is read as the text that was quoted.

* `literalValue?`: the text a literal stands for, if it is one literal and no more;
* `literalValue?_quote`: a quoted text stands for what was quoted;
* `quotesEscaped_flatMap`: the quotes inside are escaped, by a backslash that is not escaped itself;
* `no_break_quote`: a quoted text is on one line.
-/

namespace Docsmith.Text

/-! ## Reading literals -/

/-- The number a hexadecimal digit stands for. -/
def hexValue? (c : Char) : Option Nat :=
  if '0' ≤ c ∧ c ≤ '9' then some (c.toNat - '0'.toNat)
  else if 'a' ≤ c ∧ c ≤ 'f' then some (c.toNat - 'a'.toNat + 10)
  else if 'A' ≤ c ∧ c ≤ 'F' then some (c.toNat - 'A'.toNat + 10)
  else none

/-- The number that hexadecimal digits stand for. -/
def hexNumber? (digits : List Char) : Option Nat :=
  digits.foldlM (fun n c => (hexValue? c).map (16 * n + ·)) 0

/-- The character with a number. -/
def numbered? (n : Nat) : Option Char :=
  if n.isValidChar then some (Char.ofNat n) else none

/-- The character whose number stands in braces: up to six digits, which bars may part. -/
def braced? (cs : List Char) : Option Char :=
  let digits := cs.filter (· ≠ '_')
  if cs.head? = some '_' ∨ digits = [] ∨ 6 < digits.length then none
  else (hexNumber? digits).bind numbered?

def isLineBlank (c : Char) : Bool := c = ' ' || c = '\t' || c = '\n' || c = '\r'

/-- What an escape behind its backslash stands for, and the text behind it. -/
def escape? : List Char → Option (List Char × List Char)
  | 'n' :: cs => some (['\n'], cs)
  | 'r' :: cs => some (['\r'], cs)
  | 't' :: cs => some (['\t'], cs)
  | '0' :: cs => some (['\x00'], cs)
  | '\\' :: cs => some (['\\'], cs)
  | '\'' :: cs => some (['\''], cs)
  | '"' :: cs => some (['"'], cs)
  | '\n' :: cs => some ([], cs.dropWhile isLineBlank)
  | 'x' :: a :: b :: cs => do
    let n ← hexNumber? [a, b]
    if n ≤ 0x7F then some ([Char.ofNat n], cs) else none
  | 'u' :: '{' :: cs => do
    let c ← braced? (cs.takeWhile (· ≠ '}'))
    match cs.dropWhile (· ≠ '}') with
    | [] => none
    | _ :: rest => some ([c], rest)
  | _ => none

theorem length_of_escape? {cs ds rest : List Char} (h : escape? cs = some (ds, rest)) :
    rest.length < cs.length := by
  unfold escape? at h
  split at h
  case h_8 cs =>
    obtain ⟨-, rfl⟩ := Prod.mk.inj (Option.some.inj h)
    exact Nat.lt_succ_of_le (List.dropWhile_sublist isLineBlank).length_le
  case h_9 a b cs =>
    obtain ⟨n, -, h⟩ := Option.bind_eq_some_iff.1 h
    split at h
    · obtain ⟨-, rfl⟩ := Prod.mk.inj (Option.some.inj h)
      simp only [List.length_cons]
      omega
    · cases h
  case h_10 cs =>
    obtain ⟨c, -, h⟩ := Option.bind_eq_some_iff.1 h
    have hle := (List.dropWhile_sublist (· ≠ '}') (l := cs)).length_le
    split at h
    · cases h
    · rename_i d tail hd
      obtain ⟨-, rfl⟩ := Prod.mk.inj (Option.some.inj h)
      rw [hd] at hle
      simp only [List.length_cons] at hle ⊢
      omega
  case h_11 => cases h
  all_goals
    obtain ⟨-, rfl⟩ := Prod.mk.inj (Option.some.inj h)
    exact Nat.lt_succ_self _

/-- What the text behind an opening quote stands for. It ends with the closing quote, which is the
only one that is not escaped. -/
def literalBody? : List Char → Option (List Char)
  | [] => none
  | c :: cs =>
    if c = '"' then if cs = [] then some [] else none
    else if c = '\r' then none
    else if c = '\\' then
      match _ : escape? cs with
      | none => none
      | some (ds, rest) => (literalBody? rest).map (ds ++ ·)
    else (literalBody? cs).map (c :: ·)
termination_by cs => cs.length
decreasing_by
  · exact Nat.lt_succ_of_lt (length_of_escape? ‹_›)
  · exact Nat.lt_succ_self _

/-- The text a string literal stands for. -/
def literalValue? (literal : String) : Option String :=
  match literal.toList with
  | '"' :: cs => (literalBody? cs).map String.ofList
  | _ => none

variable {c : Char} {cs ds rest : List Char}

theorem literalBody?_escape (h : escape? cs = some (ds, rest)) :
    literalBody? ('\\' :: cs) = (literalBody? rest).map (ds ++ ·) := by
  rw [literalBody?, if_neg (by decide), if_neg (by decide), if_pos rfl]
  split
  · rename_i hn
    rw [hn] at h
    cases h
  · rename_i hs
    rw [hs] at h
    obtain ⟨rfl, rfl⟩ := Prod.mk.inj (Option.some.inj h)
    rfl

/-! ## Numbers in digits -/

theorem mem_hexDigits {n : Nat} (h : c ∈ hexDigits n) : ∃ d < 16, c = d.digitChar := by
  induction n using Nat.strongRecOn with
  | ind n ih =>
    rw [hexDigits] at h
    rcases Nat.lt_or_ge n 16 with hn | hn
    · rw [Nat.toDigits_of_lt_base hn, List.mem_singleton] at h
      exact ⟨n, hn, h⟩
    · rw [Nat.toDigits_of_base_le (by decide) hn, List.mem_append, List.mem_singleton] at h
      rcases h with h | h
      · exact ih (n / 16) (by omega) h
      · exact ⟨n % 16, Nat.mod_lt _ (by decide), h⟩

/-- What holds of the sixteen digits holds of the digits of a number. -/
theorem forall_mem_hexDigits {P : Char → Prop} (h : ∀ d < 16, P d.digitChar) (n : Nat) :
    ∀ c ∈ hexDigits n, P c := by
  intro c hc
  obtain ⟨d, hd, rfl⟩ := mem_hexDigits hc
  exact h d hd

theorem hexValue?_digitChar : ∀ d < 16, hexValue? d.digitChar = some d := by decide

theorem hexNumber?_hexDigits (n : Nat) : hexNumber? (hexDigits n) = some n := by
  induction n using Nat.strongRecOn with
  | ind n ih =>
    rw [hexDigits]
    rcases Nat.lt_or_ge n 16 with hn | hn
    · rw [Nat.toDigits_of_lt_base hn]
      simp [hexNumber?, hexValue?_digitChar n hn]
    · have hfront := ih (n / 16) (by omega)
      have hlast := hexValue?_digitChar (n % 16) (Nat.mod_lt _ (by decide))
      rw [hexNumber?, hexDigits] at hfront
      rw [Nat.toDigits_of_base_le (by decide) hn, hexNumber?, List.foldlM_append, hfront]
      simp only [Option.bind_eq_bind, Option.bind_some, List.foldlM_cons, hlast, Option.map_some,
        List.foldlM_nil]
      exact congrArg some (Nat.div_add_mod n 16)

theorem braced?_hexDigits (c : Char) : braced? (hexDigits c.toNat) = some c := by
  have hbar : (hexDigits c.toNat).filter (· ≠ '_') = hexDigits c.toNat :=
    List.filter_eq_self.2 (forall_mem_hexDigits (by decide) _)
  have hhead : (hexDigits c.toNat).head? ≠ some '_' := fun h =>
    forall_mem_hexDigits (P := (· ≠ '_')) (by decide) _ _ (List.mem_of_head? h) rfl
  have hne : hexDigits c.toNat ≠ [] := List.length_pos_iff.1 Nat.length_toDigits_pos
  have hvalid : c.toNat.isValidChar := c.valid
  have hlen : (hexDigits c.toNat).length ≤ 6 := by
    refine (Nat.length_toDigits_le_iff (by decide) (by decide)).2 ?_
    rcases hvalid with h | h <;> omega
  rw [braced?, hbar, if_neg, hexNumber?_hexDigits, Option.bind_some, numbered?, if_pos hvalid,
    Char.ofNat_toNat]
  rintro (h | h | h)
  · exact hhead h
  · exact hne h
  · omega

/-! ## How characters are written -/

/-- Characters that are written by a letter behind a backslash. -/
def escapes : List (Char × Char) :=
  [('\x00', '0'), ('\t', 't'), ('\r', 'r'), ('\n', 'n'), ('\\', '\\'), ('"', '"')]

/-- The ways a character is written inside a quoted text. -/
inductive Written (c : Char) : List Char → Prop
  | marked {m : Char} : (c, m) ∈ escapes → Written c ['\\', m]
  | plain : (∀ x ∈ escapes, c ≠ x.1) → Written c [c]
  | numbered : Written c ('\\' :: 'u' :: '{' :: (hexDigits c.toNat ++ ['}']))

theorem written_escapeChar (c : Char) : Written c (escapeChar c) := by
  by_cases hm : ∃ x ∈ escapes, c = x.1
  · obtain ⟨⟨c, m⟩, hx, rfl⟩ := hm
    have hall : ∀ x ∈ escapes, escapeChar x.1 = ['\\', x.2] := by decide
    rw [hall _ hx]
    exact .marked hx
  · push Not at hm
    have hplain := hm
    simp only [escapes, List.forall_mem_cons] at hm
    obtain ⟨h₁, h₂, h₃, h₄, h₅, h₆, -⟩ := hm
    rw [escapeChar, if_neg h₁, if_neg h₂, if_neg h₃, if_neg h₄, if_neg h₅, if_neg h₆]
    split
    · exact .plain hplain
    · exact .numbered

/-- An escaped character stands for itself. -/
theorem literalBody?_escapeChar (c : Char) (cs : List Char) :
    literalBody? (escapeChar c ++ cs) = (literalBody? cs).map (c :: ·) := by
  have h := written_escapeChar c
  generalize escapeChar c = us at h ⊢
  cases h with
  | @marked m h =>
    refine @literalBody?_escape (m :: cs) [c] cs ?_
    simp only [escapes, List.mem_cons, Prod.mk.injEq, List.not_mem_nil, or_false] at h
    rcases h with h | h | h | h | h | h <;> obtain ⟨rfl, rfl⟩ := h <;> rfl
  | plain h =>
    rw [List.singleton_append, literalBody?, if_neg (h ('"', '"') (by decide)),
      if_neg (h ('\r', 'r') (by decide)), if_neg (h ('\\', '\\') (by decide))]
  | numbered =>
    have hdigits : ∀ d ∈ hexDigits c.toNat, decide (d ≠ '}') = true :=
      forall_mem_hexDigits (by decide) _
    have hescape : escape? ('u' :: '{' :: (hexDigits c.toNat ++ '}' :: cs)) = some ([c], cs) := by
      rw [escape?, List.takeWhile_append_of_pos hdigits, List.dropWhile_append_of_pos hdigits]
      simp [braced?_hexDigits]
    have h := literalBody?_escape hescape
    simpa using h

theorem literalBody?_flatMap (us : List Char) :
    literalBody? (us.flatMap escapeChar ++ ['"']) = some us := by
  induction us with
  | nil => rw [List.flatMap_nil, List.nil_append, literalBody?, if_pos rfl, if_pos rfl]
  | cons c us ih =>
    rw [List.flatMap_cons, List.append_assoc, literalBody?_escapeChar, ih, Option.map_some]

/-- A quoted text stands for what was quoted. -/
theorem literalValue?_quote (s : String) : literalValue? (quote s) = some s := by
  rw [literalValue?, quote, String.toList_ofList]
  change (literalBody? (s.toList.flatMap escapeChar ++ ['"'])).map String.ofList = some s
  rw [literalBody?_flatMap, Option.map_some, String.ofList_toList]

theorem no_break_escapeChar (c : Char) : ∀ d ∈ escapeChar c, d ≠ '\n' ∧ d ≠ '\r' := by
  have h := written_escapeChar c
  generalize escapeChar c = us at h ⊢
  cases h with
  | @marked m h =>
    have hall : ∀ x ∈ escapes, x.2 ≠ '\n' ∧ x.2 ≠ '\r' := by decide
    simpa using hall _ h
  | plain h =>
    rw [List.forall_mem_singleton]
    exact ⟨h ('\n', 'n') (by decide), h ('\r', 'r') (by decide)⟩
  | numbered =>
    simp only [List.forall_mem_cons, List.forall_mem_append]
    exact ⟨by decide, by decide, by decide, forall_mem_hexDigits (by decide) _, by simp⟩

/-- A quoted text is on one line. -/
theorem no_break_quote (s : String) : ∀ c ∈ (quote s).toList, c ≠ '\n' ∧ c ≠ '\r' := by
  rw [quote, String.toList_ofList, List.forall_mem_append, List.forall_mem_cons]
  refine ⟨⟨by decide, fun d hd => ?_⟩, by simp⟩
  obtain ⟨c, -, hd⟩ := List.mem_flatMap.1 hd
  exact no_break_escapeChar c d hd

/-! ## Quotes inside -/

/-- How many backslashes a text ends with. -/
def backslashes (cs : List Char) : Nat := (cs.reverse.takeWhile (· = '\\')).length

/-- Every quote of a text is escaped: it stands behind an odd number of backslashes. -/
def QuotesEscaped (cs : List Char) : Prop :=
  ∀ front back, cs = front ++ '"' :: back → backslashes front % 2 = 1

/-- Pairs of backslashes in front of a text escape nothing in it. -/
theorem backslashes_append {us : List Char} (h : backslashes us % 2 = 0) (vs : List Char) :
    backslashes (us ++ vs) % 2 = backslashes vs % 2 := by
  rw [backslashes] at h
  rw [backslashes, backslashes, List.reverse_append, List.takeWhile_append]
  split
  · rename_i hall
    rw [List.length_append, hall]
    omega
  · rfl

theorem backslashes_escapeChar (c : Char) : backslashes (escapeChar c) % 2 = 0 := by
  have h := written_escapeChar c
  generalize escapeChar c = us at h ⊢
  cases h with
  | @marked m h =>
    have hall : ∀ x ∈ escapes, backslashes ['\\', x.2] % 2 = 0 := by decide
    exact hall _ h
  | plain h =>
    have hback : ¬c = '\\' := h ('\\', '\\') (by decide)
    simp [backslashes, hback]
  | numbered => simp [backslashes]

/-- A quote is written behind one backslash. -/
theorem eq_of_escapeChar {front back : List Char} (h : escapeChar c = front ++ '"' :: back) :
    front = ['\\'] := by
  have hw := written_escapeChar c
  rw [h] at hw
  generalize hus : front ++ '"' :: back = us at hw
  cases hw with
  | @marked m hm =>
    rcases front with _ | ⟨a, _ | ⟨b, front⟩⟩
    · cases hus
    · rw [(List.cons.inj hus).1]
    · have hlen := congrArg List.length hus
      simp at hlen
  | plain hc =>
    have hmem : '"' ∈ [c] := hus ▸ List.mem_append_right _ (List.mem_cons_self ..)
    exact absurd (List.mem_singleton.1 hmem).symm (hc ('"', '"') (by decide))
  | numbered =>
    have hmem : '"' ∈ '\\' :: 'u' :: '{' :: (hexDigits c.toNat ++ ['}']) :=
      hus ▸ List.mem_append_right _ (List.mem_cons_self ..)
    have hdigits := forall_mem_hexDigits (P := (· ≠ '"')) (by decide) c.toNat
    simp only [List.mem_cons, List.mem_append, List.not_mem_nil, or_false] at hmem
    rcases hmem with h | h | h | h | h
    · cases h
    · cases h
    · cases h
    · exact absurd rfl (hdigits _ h)
    · cases h

/-- The quotes inside a quoted text are escaped. -/
theorem quotesEscaped_flatMap (us : List Char) : QuotesEscaped (us.flatMap escapeChar) := by
  induction us with
  | nil =>
    rintro front back h
    simp at h
  | cons c us ih =>
    rintro front back h
    rw [List.flatMap_cons, List.append_eq_append_iff] at h
    rcases h with ⟨more, rfl, h⟩ | ⟨more, hc, h⟩
    · -- the quote is in the rest, where it is escaped
      rw [backslashes_append (backslashes_escapeChar c)]
      exact ih more back h
    · cases more with
      | nil => cases ih [] back h.symm
      | cons d more =>
        obtain ⟨rfl, -⟩ := List.cons.inj h
        rw [eq_of_escapeChar hc]
        rfl

end Docsmith.Text
