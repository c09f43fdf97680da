import Docsmith.Proofs.Source.Cuts

/-!
# Identifiers

A name is read as one token. It is spelled as a word that is no keyword, or as a word behind the mark
of raw identifiers.

* `ident_cases`, `scan_of_spells`: what is read as a name is spelled like one, and is read so;
* `isIdentifier_iff`: names are told by their spelling;
* `isIdentifier_of_mem_ofSource`: so the names in a file are names by themselves;
* `lex_identifier`: a name is read wherever it is followed by what ends it.
-/

namespace Docsmith.Source

open Docsmith.Text

namespace TokenKind

theorem ofKeyword?_ne_ident (s : String) : ofKeyword? s ≠ some ident := by
  unfold ofKeyword?
  split <;> simp

theorem ofChar?_ne_ident (c : Char) : ofChar? c ≠ some ident := by
  unfold ofChar?
  split <;> simp

end TokenKind

namespace Lexer

variable {c first : Char} {cs us es : List Char}

/-! ## Spelling -/

/-- The start of an identifier, and what continues it. -/
def isWord : List Char → Bool
  | [] => false
  | c :: cs => isIdentStart c && cs.all isIdentContinue

/-- A word behind the mark of raw identifiers. -/
def isRawName : List Char → Bool
  | 'r' :: '#' :: cs => isWord cs
  | _ => false

/-- A word that is no keyword. -/
def isPlainName (cs : List Char) : Bool :=
  isWord cs && String.ofList cs ≠ "_" && (TokenKind.ofKeyword? (String.ofList cs)).isNone

/-- The characters are those of an identifier. -/
def spellsIdentifier (cs : List Char) : Bool := isRawName cs || isPlainName cs

theorem exists_of_isRawName (h : isRawName cs = true) :
    ∃ d us, cs = 'r' :: '#' :: d :: us ∧ isIdentStart d = true ∧
      ∀ c ∈ us, isIdentContinue c = true := by
  unfold isRawName at h
  split at h
  · rename_i us
    cases us with
    | nil => cases h
    | cons d us =>
      rw [isWord, Bool.and_eq_true, List.all_eq_true] at h
      exact ⟨d, us, rfl, h⟩
  · cases h

theorem isWord_cons : isWord (c :: cs) = true ↔
    isIdentStart c = true ∧ ∀ d ∈ cs, isIdentContinue d = true := by
  rw [isWord, Bool.and_eq_true, List.all_eq_true]

theorem isWord_of_isPlainName (h : isPlainName cs = true) : isWord cs = true := by
  rw [isPlainName, Bool.and_eq_true, Bool.and_eq_true] at h
  exact h.1.1

/-- A name holds nothing that ends a name. -/
theorem not_stop_of_spells (h : spellsIdentifier cs = true) : ∀ c ∈ cs, c ∉ stops := by
  have hstart {c : Char} (hc : isIdentStart c = true) : c ∉ stops := fun hs => by
    rw [isIdentStart_of_stops c hs] at hc
    cases hc
  have hcontinue {c : Char} (hc : isIdentContinue c = true) : c ∉ stops := fun hs => by
    rw [isIdentContinue_of_stops c hs] at hc
    cases hc
  rcases Bool.or_eq_true _ _ ▸ h with h | h
  · obtain ⟨d, us, rfl, hd, hus⟩ := exists_of_isRawName h
    simp only [List.forall_mem_cons]
    exact ⟨by decide, by decide, hstart hd, fun c hc => hcontinue (hus c hc)⟩
  · cases cs with
    | nil => simp
    | cons c cs =>
      obtain ⟨hc, hcs⟩ := isWord_cons.1 (isWord_of_isPlainName h)
      exact List.forall_mem_cons.2 ⟨hstart hc, fun d hd => hcontinue (hcs d hd)⟩

/-! ## Reading names -/

theorem take_run (p : Char → Bool) (cs : List Char) : cs.take (run p cs) = cs.takeWhile p :=
  (List.prefix_iff_eq_take.1 (List.takeWhile_prefix p)).symm

theorem run_of_all {p : Char → Bool} (h : ∀ c ∈ us, p c = true) : run p us = us.length := by
  rw [run, List.takeWhile_eq_self_iff.2 h]

theorem kindOf_eq_ident {n : Nat} : word.kindOf first cs n = .ident ↔
    String.ofList (first :: cs.take n) ≠ "_" ∧
      TokenKind.ofKeyword? (String.ofList (first :: cs.take n)) = none := by
  rw [word.kindOf]
  generalize String.ofList (first :: cs.take n) = text
  split
  · rename_i h
    simp [h]
  · rename_i h
    cases hk : TokenKind.ofKeyword? text with
    | none => simp [h]
    | some kind =>
      have hne : kind ≠ .ident := fun he => TokenKind.ofKeyword?_ne_ident text (he ▸ hk)
      simpa using hne

/-- A whole word is as long as it goes on. -/
theorem word_of_sound (hs : (word first cs).2.sound = true) : word first cs =
    (word.kindOf first cs (run isIdentContinue cs), ⟨run isIdentContinue cs, true⟩) := by
  rw [word_eq] at hs ⊢
  unfold wordEnd at hs ⊢
  split
  · split
    · simp_all
    · split <;> simp_all
  · rfl

theorem spells_of_word (hstart : isIdentStart first = true) (hk : (word first cs).1 = .ident)
    (hs : (word first cs).2.sound = true) : ∃ us vs, cs = us ++ vs ∧
      (word first cs).2.size = us.length ∧ spellsIdentifier (first :: us) = true := by
  rw [word_of_sound hs] at hk ⊢
  refine ⟨cs.takeWhile isIdentContinue, cs.dropWhile isIdentContinue,
    List.takeWhile_append_dropWhile.symm, rfl, ?_⟩
  obtain ⟨hbar, hkeyword⟩ := kindOf_eq_ident.1 hk
  rw [take_run] at hbar hkeyword
  have hword : isWord (first :: cs.takeWhile isIdentContinue) = true :=
    isWord_cons.2 ⟨hstart, fun d hd => List.mem_takeWhile_imp hd⟩
  rw [spellsIdentifier, isPlainName, hword, hkeyword, decide_eq_true hbar]
  exact Bool.or_true _

theorem lettered_of_ident {bytes : Bool} (hk : (lettered first bytes cs).1 = .ident) :
    lettered first bytes cs = word first cs := by
  have hkind : (if bytes then TokenKind.byteString else .cString) ≠ .ident := by
    split <;> simp
  revert hk
  fun_cases lettered first bytes cs <;> intro hk
  case case1 | case2 => exact absurd hk hkind
  case case4 => cases hk
  all_goals rfl

/-- What is read as a whole name is spelled like one. -/
theorem ident_cases (hk : (scan c cs).1 = .ident) (hs : (scan c cs).2.sound = true) :
    ∃ us vs, cs = us ++ vs ∧ (scan c cs).2.size = us.length ∧
      spellsIdentifier (c :: us) = true := by
  by_cases hblank : isBlank c = true
  · rw [scan_of_blank hblank] at hk
    cases hk
  by_cases hletter : startsLiteral c
  · obtain rfl | rfl | rfl := hletter
    · by_cases hquote : ∃ us, cs = '"' :: us
      · obtain ⟨us, rfl⟩ := hquote
        cases hk
      by_cases hhash : ∃ us, cs = '#' :: us
      · obtain ⟨us, rfl⟩ := hhash
        rw [scan_r_hash] at hk ⊢
        split
        · rename_i hstart
          rcases us with _ | ⟨d, us⟩
          · cases hstart
          · refine ⟨'#' :: d :: us.takeWhile isIdentContinue, us.dropWhile isIdentContinue, ?_, ?_, ?_⟩
            · rw [List.cons_append, List.cons_append, List.takeWhile_append_dropWhile]
            · simp only [List.tail_cons, run, List.length_cons]
              omega
            · have hword : isWord (d :: us.takeWhile isIdentContinue) = true :=
                isWord_cons.2 ⟨hstart, fun c hc => List.mem_takeWhile_imp hc⟩
              rw [spellsIdentifier, isRawName, hword]
              rfl
        · rename_i hstart
          rw [if_neg hstart] at hk
          cases hk
      · rw [scan_r_word (fun us hc => hquote ⟨us, hc⟩) fun us hc => hhash ⟨us, hc⟩] at hk hs ⊢
        exact spells_of_word (isIdentStart_of_letter (by decide)) hk hs
    · rw [scan_b] at hk hs ⊢
      have hword := lettered_of_ident hk
      rw [hword] at hk hs ⊢
      exact spells_of_word (isIdentStart_of_letter (by decide)) hk hs
    · rw [scan_c] at hk hs ⊢
      have hword := lettered_of_ident hk
      rw [hword] at hk hs ⊢
      exact spells_of_word (isIdentStart_of_letter (by decide)) hk hs
  by_cases hstart : isIdentStart c = true
  · rw [scan_word hstart hletter] at hk hs ⊢
    exact spells_of_word hstart hk hs
  by_cases hdigit : c.isDigit = true
  · rw [scan_digit (Bool.not_eq_true _ ▸ hstart) hdigit] at hk
    rcases number_kind c cs with h | h <;> rw [h] at hk <;> cases hk
  by_cases htick : c = '\''
  · subst htick
    rw [scan_tick] at hk
    rcases tick_kind cs with h | h <;> rw [h] at hk <;> cases hk
  by_cases hquote : c = '"'
  · subst hquote
    rw [scan_quote] at hk
    cases hk
  by_cases hcomment : c = '/'
  · subst hcomment
    rcases kind_scan_slash cs with h | h <;> rw [h] at hk <;> cases hk
  · rw [scan_sign hcomment (Bool.not_eq_true _ ▸ hblank) (Bool.not_eq_true _ ▸ hstart)
      (Bool.not_eq_true _ ▸ hdigit) htick hquote] at hk hs
    split at hk
    · rename_i kind hkind
      obtain rfl : kind = .ident := hk
      exact absurd hkind (TokenKind.ofChar?_ne_ident c)
    · rename_i hnone
      rw [hnone] at hs
      dsimp only at hs
      split at hs <;> cases hs

/-- What continues an identifier starts no literal. -/
theorem not_isIdentContinue_ascii : ['\'', '"', '#'].all (!isIdentContinue ·) = true := by
  decide +kernel

theorem ne_of_isIdentContinue {d : Char} (hc : isIdentContinue c = true) (hd : d ∈ ['\'', '"', '#']) :
    c ≠ d := by
  rintro rfl
  have h := List.all_eq_true.1 not_isIdentContinue_ascii c hd
  rw [hc] at h
  cases h

theorem lettered_of_word {bytes : Bool} (hus : ∀ c ∈ us, isIdentContinue c = true) (hes : Halts es) :
    lettered first bytes (us ++ es) = word first (us ++ es) := by
  have hne {d : Char} (hd : d ∈ ['\'', '"', '#']) (vs : List Char) : us ++ es ≠ d :: vs := by
    have hstop : d ∉ stops := by
      simp only [List.mem_cons, List.not_mem_nil, or_false] at hd
      rcases hd with rfl | rfl | rfl <;> decide
    refine ne_append_cons hes hstop (fun vs hvs => ?_) vs
    exact ne_of_isIdentContinue (hus d (hvs ▸ List.mem_cons_self ..)) hd rfl
  generalize hcs : us ++ es = cs at hne ⊢
  fun_cases lettered first bytes cs
  case case1 => exact absurd rfl (hne (by decide) _)
  case case2 d rest hd =>
    exfalso
    rw [Bool.or_eq_true, decide_eq_true_eq, decide_eq_true_eq] at hd
    have hmem : d ∈ ['\'', '"', '#'] := by
      rcases hd with rfl | rfl <;> decide
    rcases us with _ | ⟨u, us⟩
    · obtain rfl : es = 'r' :: d :: rest := hcs
      exact absurd (hes 'r' rfl) (by decide)
    · obtain ⟨rfl, htail⟩ := List.cons.inj hcs
      rcases us with _ | ⟨u, us⟩
      · obtain rfl : es = d :: rest := htail
        rcases hd with rfl | rfl <;> exact absurd (hes _ rfl) (by decide)
      · obtain ⟨rfl, -⟩ := List.cons.inj htail
        exact ne_of_isIdentContinue (hus u (by simp)) hmem rfl
  case case4 => exact absurd rfl (hne (by decide) _)
  all_goals rfl

/-- What is spelled like a name is read as one, if what ends names follows. -/
theorem scan_of_spells (h : spellsIdentifier (c :: us) = true) (hes : Halts es) :
    scan c (us ++ es) = (.ident, ⟨us.length, true⟩) := by
  rcases Bool.or_eq_true _ _ ▸ h with h | h
  · obtain ⟨d, vs, hcons, hd, hvs⟩ := exists_of_isRawName h
    obtain ⟨rfl, rfl⟩ := List.cons.inj hcons
    rw [List.cons_append, scan_r_hash, List.cons_append, List.head?_cons, Option.any_some,
      if_pos hd, List.tail_cons, run_append isIdentContinue_of_stops hes, run_of_all hvs,
      List.length_cons, List.length_cons, Nat.add_comm]
  · obtain ⟨hc, hus⟩ := isWord_cons.1 (isWord_of_isPlainName h)
    have hword : word c (us ++ es) = (.ident, ⟨us.length, true⟩) := by
      rw [isPlainName, Bool.and_eq_true, Bool.and_eq_true, decide_eq_true_eq,
        Option.isNone_iff_eq_none] at h
      have hkind : word.kindOf c us us.length = .ident :=
        kindOf_eq_ident.2 (by rw [List.take_length]; exact ⟨h.1.2, h.2⟩)
      rw [word_append hes, word_eq, run_of_all hus, List.drop_length, hkind]
      rfl
    have hne {d : Char} (hd : d ∉ stops) (hd' : d ∈ ['\'', '"', '#']) (vs : List Char) :
        us ++ es ≠ d :: vs :=
      ne_append_cons hes hd (fun vs hvs =>
        ne_of_isIdentContinue (hus d (by rw [hvs]; exact List.mem_cons_self ..)) hd' rfl) vs
    by_cases hletter : startsLiteral c
    · obtain rfl | rfl | rfl := hletter
      · rw [scan_r_word (hne (by decide) (by decide)) (hne (by decide) (by decide)), hword]
      · rw [scan_b, lettered_of_word hus hes, hword]
      · rw [scan_c, lettered_of_word hus hes, hword]
    · rw [scan_word hc hletter, hword]

end Lexer

namespace Token

open Lexer

variable {name : String} {es : List Char}

/-! ## Names -/

/-- A name is read as one token that is no keyword. -/
def IsIdentifier (name : String) : Prop := lex name.toList = [⟨.ident, name, true⟩]

instance (name : String) : Decidable (IsIdentifier name) :=
  inferInstanceAs (Decidable (lex name.toList = _))

/-- Names are told by their spelling. -/
theorem isIdentifier_iff : IsIdentifier name ↔ spellsIdentifier name.toList = true := by
  rw [IsIdentifier]
  have hofList : String.ofList name.toList = name := String.ofList_toList
  generalize name.toList = cs at hofList ⊢
  cases cs with
  | nil =>
    rw [lex]
    constructor <;> intro h <;> cases h
  | cons c cs =>
    rw [lex_cons, List.cons.injEq, Token.mk.injEq, ← hofList]
    constructor
    · rintro ⟨⟨hk, htext, hs⟩, -⟩
      obtain ⟨us, vs, rfl, hsize, hspells⟩ := ident_cases hk hs
      rw [hsize, List.take_left] at htext
      rwa [← String.ofList_injective htext]
    · intro h
      have hnil : Halts [] := fun _ hd => by cases hd
      have hscan := scan_of_spells h hnil
      rw [List.append_nil] at hscan
      rw [hscan, List.take_length, List.drop_length, lex]
      exact ⟨⟨rfl, rfl, rfl⟩, rfl⟩

theorem lex_identifier (h : IsIdentifier name) (hes : Halts es) :
    lex (name.toList ++ es) = ⟨.ident, name, true⟩ :: lex es := by
  have hofList : String.ofList name.toList = name := String.ofList_toList
  rw [isIdentifier_iff] at h
  generalize name.toList = cs at hofList h ⊢
  cases cs with
  | nil => cases h
  | cons c cs => rw [List.cons_append, ← hofList, ← lex_of_scan cs (scan_of_spells h hes), List.cons_append]

/-- A name holds nothing that ends a name. -/
theorem IsIdentifier.not_stop (h : IsIdentifier name) : ∀ c ∈ name.toList, c ∉ stops :=
  not_stop_of_spells (isIdentifier_iff.1 h)

/-! ## The names in a text -/

theorem isIdentifier_of_mem_lex {t : Token} {cs : List Char} (h : t ∈ lex cs) (hk : t.kind = .ident)
    (hs : t.sound = true) : IsIdentifier t.text := by
  fun_induction lex cs with
  | case1 => cases h
  | case2 c cs kind e hscan ih =>
    rcases List.mem_cons.1 h with rfl | h
    · have hkind : (scan c cs).1 = .ident := (congrArg Prod.fst hscan).trans hk
      have hsound : (scan c cs).2.sound = true := by
        rw [hscan]
        exact hs
      obtain ⟨us, vs, rfl, hsize, hspells⟩ := ident_cases hkind hsound
      rw [hscan] at hsize
      rw [isIdentifier_iff, String.toList_ofList, hsize, List.take_left]
      exact hspells
    · exact ih h

/-- A whole name in a file is a name by itself. -/
theorem isIdentifier_of_mem_ofSource {t : Token} {source : String} (h : t ∈ ofSource source)
    (hk : t.kind = .ident) (hs : t.sound = true) : IsIdentifier t.text := by
  have hblock {kind : TokenKind} {n : Nat} {cs : List Char} (h : t ∈ block kind n cs) :
      t.kind = kind := by
    rw [block] at h
    split at h
    · cases h
    · rw [List.mem_singleton.1 h]
  rw [ofSource, List.mem_append, List.mem_append] at h
  rcases h with (h | h) | h
  · cases hk.symm.trans (hblock h)
  · cases hk.symm.trans (hblock h)
  · exact isIdentifier_of_mem_lex h hk hs

end Token

end Docsmith.Source
