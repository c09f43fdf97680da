import Docsmith.Source.Preamble
import Mathlib.Data.List.TakeWhile

/-!
# What tokens are

Facts about single tokens that do not depend on where they stand.

* `scan_of_blank`, `scan_ne_whitespace`: a token of white space is a run of blanks;
* `eq_closer_of_mem_lex`: a closing brace or bracket and a semicolon are one character each;
* `fits_of_mem_ofSource`: every token of a source has a text, that of white space is blank, and that
  of a comment starts with a slash;
* `lex_eq_lexUpTo`: reading with a bound on the number of tokens, which makes the tokens of a
  given text computable by reduction.
-/

namespace Docsmith.Source

/-! ## The kind of a token -/

namespace TokenKind

/-- Kinds that no word and no literal has: blanks, comments, the marks a file may start with, closing
braces and brackets, semicolons. -/
def isMark : TokenKind → Bool
  | whitespace | comment | shebang | frontmatter | rCurly | rBrack | semi => true
  | _ => false

theorem isMark_of_isTrivia {k : TokenKind} (h : k.isTrivia = true) : k.isMark = true := by
  unfold isTrivia at h
  split at h <;> first | rfl | cases h

/-- Closing braces and brackets, and the semicolon that closes an item. -/
def closers : List (TokenKind × Char) := [(rCurly, '\x7d'), (rBrack, ']'), (semi, ';')]

theorem isMark_ofKeyword? (s : String) : (ofKeyword? s).all (!·.isMark) = true := by
  unfold ofKeyword?
  split <;> rfl

theorem isMark_ofChar? (c : Char) :
    (ofChar? c).all (fun k => !k.isMark || (k, c) ∈ closers) = true := by
  unfold ofChar?
  split <;> rfl

theorem mem_closers {k : TokenKind} {c : Char} (h : (k, c) ∈ closers) :
    k = rCurly ∧ c = '\x7d' ∨ k = rBrack ∧ c = ']' ∨ k = semi ∧ c = ';' := by
  simpa [closers] using h

end TokenKind

namespace Lexer

theorem isMark_word (c : Char) (cs : List Char) : (word c cs).1.isMark = false := by
  have hk (n : Nat) : (word.kindOf c cs n).isMark = false := by
    rw [word.kindOf]
    split
    · rfl
    · generalize String.ofList (c :: cs.take n) = s
      have h := TokenKind.isMark_ofKeyword? s
      cases hs : TokenKind.ofKeyword? s with
      | none => rfl
      | some k => simpa [hs] using h
  unfold word
  dsimp only
  split
  · split
    · rfl
    · split
      · rfl
      · exact hk _
  · exact hk _

theorem fraction_kind (cs : List Char) : (fraction cs).1 = .int ∨ (fraction cs).1 = .float := by
  unfold fraction
  split
  · split
    · simp
    · split
      · simp
      · split
        · dsimp only
          split <;> simp
        · simp
  · simp
  · simp
  · simp

theorem based_kind (p : Char → Bool) (cs : List Char) :
    (based p cs).1 = .int ∨ (based p cs).1 = .float := by
  have h : (digitsThenFraction p cs).1 = .int ∨ (digitsThenFraction p cs).1 = .float :=
    fraction_kind _
  unfold based
  dsimp only
  cases hd : (basedDigits p cs).sound with
  | true => simpa only [hd, if_true] using h
  | false => simp

theorem number_kind (c : Char) (cs : List Char) :
    (number c cs).1 = .int ∨ (number c cs).1 = .float := by
  unfold number
  dsimp only
  split
  · exact based_kind _ _
  · exact based_kind _ _
  · exact based_kind _ _
  · exact fraction_kind _

theorem tick_kind (cs : List Char) : (tick cs).1 = .char ∨ (tick cs).1 = .lifetimeIdent := by
  unfold tick
  dsimp only
  split
  · simp
  · split <;> simp
  · split
    · split <;> simp
    · simp
  · simp

theorem isMark_lettered (c : Char) (bytes : Bool) (cs : List Char) :
    (lettered c bytes cs).1.isMark = false := by
  have hw := isMark_word c cs
  unfold lettered
  dsimp only
  split
  · cases bytes <;> rfl
  · split
    · cases bytes <;> rfl
    · exact hw
  · split
    · rfl
    · exact hw
  · exact hw

/-- A blank starts a token of white space, which takes all blanks behind it. -/
theorem scan_of_blank {c : Char} (h : isBlank c = true) (cs : List Char) :
    scan c cs = (.whitespace, ⟨run isBlank cs, true⟩) := by
  have hc : c ≠ '/' := by
    rintro rfl
    revert h
    decide
  unfold scan
  rw [if_neg (by simp [hc]), if_neg (by simp [hc]), if_pos h]

/-- A slash starts a comment, or is one. -/
theorem kind_scan_slash (cs : List Char) :
    (scan '/' cs).1 = .comment ∨ (scan '/' cs).1 = .slash := by
  unfold scan
  split
  · exact .inl rfl
  · split
    · exact .inl rfl
    · exact .inr rfl

/-- Nothing else than a blank, a slash, a closing brace or bracket or a semicolon starts a token of
such a kind. -/
theorem scan_mark {c : Char} (hc : c ≠ '/') (h : isBlank c = false) {cs : List Char}
    (hk : (scan c cs).1.isMark = true) :
    ((scan c cs).1, c) ∈ TokenKind.closers ∧ (scan c cs).2 = ⟨0, true⟩ := by
  have hword {k : TokenKind} {p : Prop} (hk : k.isMark = true) (hno : k.isMark = false) : p := by
    rw [hno] at hk
    cases hk
  have hliteral {k k₁ k₂ : TokenKind} {p : Prop} (hk : k.isMark = true) (h : k = k₁ ∨ k = k₂)
      (h₁ : k₁.isMark = false) (h₂ : k₂.isMark = false) : p := by
    rcases h with rfl | rfl
    · exact hword hk h₁
    · exact hword hk h₂
  unfold scan at hk
  rw [if_neg (by simp [hc]), if_neg (by simp [hc]), h, if_neg Bool.false_ne_true] at hk
  split at hk
  · split at hk
    · cases hk
    · split at hk <;> cases hk
    · cases hk
    · exact hword hk (isMark_word _ _)
  split at hk
  · exact hword hk (isMark_lettered _ _ _)
  split at hk
  · exact hword hk (isMark_lettered _ _ _)
  split at hk
  · exact hword hk (isMark_word _ _)
  split at hk
  · exact hliteral hk (number_kind _ _) rfl rfl
  split at hk
  · exact hliteral hk (tick_kind _) rfl rfl
  split at hk
  · cases hk
  split at hk
  · rename_i k hchar
    have h := TokenKind.isMark_ofChar? c
    rw [hchar, Option.all_some, hk, Bool.not_true, Bool.false_or] at h
    rcases TokenKind.mem_closers (of_decide_eq_true h) with ⟨rfl, rfl⟩ | ⟨rfl, rfl⟩ | ⟨rfl, rfl⟩
    · exact ⟨List.mem_cons_self, rfl⟩
    · exact ⟨List.mem_cons_of_mem _ List.mem_cons_self, rfl⟩
    · exact ⟨List.mem_cons_of_mem _ (List.mem_cons_of_mem _ List.mem_cons_self), rfl⟩
  · split at hk <;> cases hk

/-- Blanks and comments start with a blank or a slash. -/
theorem isTrivia_scan {c : Char} (hc : c ≠ '/') (h : isBlank c = false) (cs : List Char) :
    (scan c cs).1.isTrivia = false := by
  by_contra hk
  rw [Bool.not_eq_false] at hk
  obtain ⟨hcloser, -⟩ := scan_mark hc h (TokenKind.isMark_of_isTrivia hk)
  rcases TokenKind.mem_closers hcloser with ⟨h, -⟩ | ⟨h, -⟩ | ⟨h, -⟩ <;> rw [h] at hk <;> cases hk

theorem scan_ne_whitespace {c : Char} (h : isBlank c = false) (cs : List Char) :
    (scan c cs).1 ≠ .whitespace := by
  intro hk
  by_cases hc : c = '/'
  · subst hc
    rcases kind_scan_slash cs with h | h <;> rw [h] at hk <;> cases hk
  · have h := isTrivia_scan hc h cs
    rw [hk] at h
    cases h

theorem eq_slash_of_comment {c : Char} {cs : List Char} (hk : (scan c cs).1 = .comment) :
    c = '/' := by
  by_contra hc
  cases hb : isBlank c with
  | true =>
    rw [scan_of_blank hb] at hk
    cases hk
  | false =>
    have h := isTrivia_scan hc hb cs
    rw [hk] at h
    cases h

end Lexer

/-! ## The text of a token -/

/-- A token has a text. That of white space is blank, and that of a comment starts with a slash. -/
structure TokenKind.Fits (kind : TokenKind) (text : String) : Prop where
  nonempty : text.toList ≠ []
  blank : kind = .whitespace → ∀ c ∈ text.toList, Lexer.isBlank c = true
  slash : kind = .comment → text.toList.head? = some '/'

namespace Token

open Lexer

theorem fits_of_mem_lex {t : Token} {cs : List Char} (h : t ∈ lex cs) : t.kind.Fits t.text := by
  fun_induction lex cs with
  | case1 => simp at h
  | case2 c cs kind e hs ih =>
    rcases List.mem_cons.1 h with rfl | h
    · have hslash (hk : kind = .comment) : c = '/' :=
        eq_slash_of_comment ((congrArg Prod.fst hs).trans hk)
      refine ⟨by simp, fun hk d hd => ?_, fun hk => by simp [hslash hk]⟩
      cases hb : isBlank c with
      | false => exact absurd (congrArg Prod.fst hs |>.trans hk) (scan_ne_whitespace hb cs)
      | true =>
        rw [scan_of_blank hb, Prod.mk.injEq] at hs
        obtain ⟨-, rfl⟩ := hs
        rw [String.toList_ofList, List.mem_cons] at hd
        rcases hd with rfl | hd
        · exact hb
        · rw [run, ← List.prefix_iff_eq_take.1 (List.takeWhile_prefix _)] at hd
          exact List.mem_takeWhile_imp hd
    · exact ih h

/-- A closing brace or bracket is one character, and so is a semicolon. -/
theorem eq_closer_of_mem_lex {t : Token} {cs : List Char} {closer : Char} (h : t ∈ lex cs)
    (hk : (t.kind, closer) ∈ TokenKind.closers) :
    t = ⟨t.kind, String.ofList [closer], true⟩ := by
  fun_induction lex cs with
  | case1 => cases h
  | case2 c cs kind e hs ih =>
    rcases List.mem_cons.1 h with rfl | h
    · dsimp only at hk ⊢
      cases hb : isBlank c with
      | true =>
        rw [scan_of_blank hb, Prod.mk.injEq] at hs
        rw [← hs.1] at hk
        rcases TokenKind.mem_closers hk with ⟨h, -⟩ | ⟨h, -⟩ | ⟨h, -⟩ <;> cases h
      | false =>
        have hmark : (scan c cs).1.isMark = true := by
          rw [hs]
          rcases TokenKind.mem_closers hk with ⟨rfl, -⟩ | ⟨rfl, -⟩ | ⟨rfl, -⟩ <;> rfl
        have hc : c ≠ '/' := by
          rintro rfl
          rcases kind_scan_slash cs with h | h <;> rw [hs] at h <;> cases h <;>
            rcases TokenKind.mem_closers hk with ⟨h, -⟩ | ⟨h, -⟩ | ⟨h, -⟩ <;> cases h
        have hscan := scan_mark hc hb hmark
        rw [hs] at hscan
        obtain ⟨hc, rfl⟩ := hscan
        rcases TokenKind.mem_closers hc with ⟨rfl, rfl⟩ | ⟨rfl, rfl⟩ | ⟨rfl, rfl⟩ <;>
          rcases TokenKind.mem_closers hk with ⟨h, rfl⟩ | ⟨h, rfl⟩ | ⟨h, rfl⟩ <;> cases h <;> rfl
    · exact ih h

theorem fits_of_mem_block {t : Token} {kind : TokenKind} {n : Nat} {cs : List Char}
    (hk : kind.isTrivia = false) (hcs : n ≠ 0 → cs ≠ []) (h : t ∈ block kind n cs) :
    t.kind.Fits t.text := by
  rw [block] at h
  split at h
  · simp at h
  · rename_i hn
    obtain rfl := List.mem_singleton.1 h
    refine ⟨?_, fun hw => ?_, fun hw => ?_⟩
    · rw [String.toList_ofList, Ne, List.take_eq_nil_iff]
      exact fun ho => ho.elim hn (hcs hn)
    all_goals
      obtain rfl : kind = _ := hw
      cases hk

end Token

theorem Preamble.metadata_le (cs : List Char) :
    (ofChars cs).metadata ≤ (cs.drop (ofChars cs).interpreter).length := by
  rw [ofChars]
  cases h : ofChars? cs with
  | none => simp
  | some p =>
    rw [Option.getD_some]
    unfold ofChars? at h
    dsimp only at h
    split at h
    · obtain rfl := Option.some.inj h
      simp
    · split at h
      · simp at h
      · simp only [Option.bind_eq_bind, Option.bind_eq_some_iff] at h
        obtain ⟨behind, -, h⟩ := h
        split at h
        · simp at h
        · split at h
          · simp at h
          · obtain rfl := Option.some.inj h
            exact Nat.sub_le _ _

namespace Token

/-- Every token of a source fits its kind. -/
theorem fits_of_mem_ofSource {t : Token} {source : String} (h : t ∈ ofSource source) :
    t.kind.Fits t.text := by
  simp only [ofSource, List.mem_append] at h
  rcases h with (h | h) | h
  · refine fits_of_mem_block (by decide) (fun hn hcs => hn ?_) h
    rw [hcs]
    decide
  · refine fits_of_mem_block (by decide) (fun hn hcs => hn ?_) h
    have hm := Preamble.metadata_le source.toList
    rw [hcs, List.length_nil] at hm
    exact Nat.le_zero.1 hm
  · exact fits_of_mem_lex h

/-! ## Reading by a bound -/

open Lexer in
/-- At most `n` tokens of a text. -/
def lexUpTo : Nat → List Char → List Token
  | 0, _ => []
  | _ + 1, [] => []
  | n + 1, c :: cs =>
    let (kind, e) := scan c cs
    ⟨kind, String.ofList (c :: cs.take e.size), e.sound⟩ :: lexUpTo n (cs.drop e.size)

/-- A text has no more tokens than characters, so this bound leaves none out. -/
theorem lex_eq_lexUpTo (n : Nat) (cs : List Char) (h : cs.length ≤ n) :
    lex cs = lexUpTo n cs := by
  induction n generalizing cs with
  | zero =>
    obtain rfl := List.eq_nil_of_length_eq_zero (Nat.le_zero.1 h)
    rw [lex, lexUpTo]
  | succ n ih =>
    cases cs with
    | nil => rw [lex, lexUpTo]
    | cons c cs =>
      rw [lex, lexUpTo]
      simp only
      rw [ih]
      simp only [List.length_drop, List.length_cons] at h ⊢
      omega

end Token

end Docsmith.Source
