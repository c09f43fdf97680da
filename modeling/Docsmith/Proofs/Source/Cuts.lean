import Docsmith.Proofs.Source.Readers

/-!
# Tokens in front of a cut

The tokens in front of a cut stay the same whatever follows it, unless the last of them is white
space or a comment that reads on.

* `scan_append`: one token, by the character it starts with;
* `lex_append`: all of them, by induction on the tokens in front.
-/

namespace Docsmith.Source

/-- A comment that ends with its line. -/
def Token.IsLineComment (t : Token) : Prop := t.kind = .comment ∧ ['/', '/'] <+: t.text.toList

instance (t : Token) : Decidable t.IsLineComment := inferInstanceAs (Decidable (_ ∧ _))

namespace Lexer

open Docsmith.Text

variable {cs ds es : List Char}

theorem halts_cons {c : Char} (hc : c ∈ stops) (us : List Char) : Halts (c :: us) := by
  rintro d ⟨⟩
  exact hc

theorem halts_blanks {w : List Char} {c : Char} (hw : ∀ b ∈ w, isBlank b = true) (hc : c ∈ stops)
    (us : List Char) : Halts (w ++ c :: us) := by
  cases w with
  | nil => exact halts_cons hc us
  | cons b w =>
    rintro d ⟨⟩
    exact List.mem_append_left _ (isBlank_iff.1 (hw _ (List.mem_cons_self ..)))

/-! ## Tokens -/

theorem Steady.after {f : List Char → Extent} (hf : Steady f) (hds : Halts ds) (hes : Halts es)
    (cs : List Char) {n m : Nat} (hm : m ≤ cs.length + n)
    (hs : ((f (cs ++ ds)).after n).sound = true) (hle : ((f (cs ++ ds)).after n).size ≤ m) :
    (f (cs ++ es)).after n = (f (cs ++ ds)).after n := by
  simp only [Extent.after] at hs hle ⊢
  rw [hf cs ds es hds hes hs (by omega)]

theorem lettered_append (hds : Halts ds) (hes : Halts es) (first : Char) (bytes : Bool)
    (hs : (lettered first bytes (cs ++ ds)).2.sound = true)
    (hle : (lettered first bytes (cs ++ ds)).2.size ≤ cs.length) :
    lettered first bytes (cs ++ es) = lettered first bytes (cs ++ ds) := by
  have hword : word first (cs ++ es) = word first (cs ++ ds) :=
    (word_append hes first).trans (word_append hds first).symm
  rcases cs with _ | ⟨c, cs⟩
  · have hother {us : List Char} (h : Halts us) : lettered first bytes us = word first us :=
      lettered.eq_4 _ _ _ (ne_cons h (by decide)) (fun _ us => ne_cons h (by decide) _)
        (ne_cons h (by decide))
    rwa [List.nil_append, List.nil_append, hother hds, hother hes]
  by_cases hquote : c = '"'
  · subst hquote
    simp only [List.cons_append, lettered, List.length_cons] at hs hle ⊢
    rw [steady_quoted.withSuffix.after hds hes cs (by omega) hs hle]
  by_cases htick : c = '\''
  · subst htick
    simp only [List.cons_append, lettered, List.length_cons] at hs hle hword ⊢
    cases bytes with
    | false => exact hword
    | true =>
      simp only [if_true] at hs hle ⊢
      rw [steady_charLiteral.withSuffix.after hds hes cs (by omega) hs hle]
  by_cases hraw : c = 'r'
  · subst hraw
    rcases cs with _ | ⟨d, cs⟩
    · have hother {us : List Char} (h : Halts us) :
          lettered first bytes ('r' :: us) = word first ('r' :: us) := by
        rcases h.eq_nil_or_cons with rfl | ⟨d, us, rfl, hd⟩
        · rfl
        · have hne {c : Char} (hc : c ∉ stops) : d ≠ c := fun h => hc (h ▸ hd)
          rw [lettered, if_neg (by simp [hne (c := '#') (by decide), hne (c := '"') (by decide)])]
      rw [List.cons_append, List.cons_append, List.nil_append, List.nil_append] at hword ⊢
      rwa [hother hds, hother hes]
    · simp only [List.cons_append, lettered, List.length_cons] at hs hle hword ⊢
      split
      · rename_i hc
        simp only [hc, if_true] at hs hle
        exact congrArg (Prod.mk _)
          (steady_rawQuoted.withSuffix.after hds hes (d :: cs) (Nat.le_refl _) hs hle)
      · exact hword
  · have hother (us : List Char) : lettered first bytes (c :: us) = word first (c :: us) :=
      lettered.eq_4 _ _ _ (by simp [hquote]) (by simp [hraw]) (by simp [htick])
    rw [List.cons_append, List.cons_append] at hword ⊢
    rwa [hother, hother]

/-- What follows a name behind a tick. -/
def tickEnd (size : Nat) (digit : Bool) : List Char → TokenKind × Extent
  | '\'' :: _ => (.char, ⟨size + 1, true⟩)
  | '#' :: _ => (.lifetimeIdent, ⟨size, false⟩)
  | _ => (.lifetimeIdent, ⟨size, !digit⟩)

theorem tickEnd_append (h : Halts ds) (size : Nat) (digit : Bool) :
    tickEnd size digit (cs ++ ds) = tickEnd size digit cs := by
  fun_cases tickEnd size digit cs with
  | case1 | case2 => rfl
  | case3 _ htick hhash =>
    exact tickEnd.eq_3 _ _ _ (ne_append_cons h (by decide) htick)
      (ne_append_cons h (by decide) hhash)

theorem tick_name {c : Char} {rest : List Char} (hquote : ∀ us, rest ≠ '\'' :: us)
    (hraw : ∀ d us, c = 'r' → rest ≠ '#' :: d :: us) : tick (c :: rest) =
      if isIdentStart c || c.isDigit then
        tickEnd (1 + run isIdentContinue rest) c.isDigit (rest.drop (run isIdentContinue rest))
      else (.char, withSuffix (charLiteral (c :: rest)) (c :: rest)) := by
  rw [tick.eq_3 c rest hquote hraw, Nat.add_comm 1]
  rfl

theorem pos_charLiteral (h : (charLiteral cs).sound = true) : 0 < (charLiteral cs).size := by
  rw [charLiteral_eq] at h ⊢
  split
  · exact Nat.two_pos
  · rename_i hc
    rw [if_neg hc] at h
    exact pos_longChar h

/-- A lone tick is a fault. -/
theorem pos_tick (h : Halts ds) (hs : (tick ds).2.sound = true) : 0 < (tick ds).2.size := by
  have hliteral : (tick ds).2 = withSuffix (charLiteral ds) ds := by
    rcases h.eq_nil_or_cons with rfl | ⟨d, us, rfl, hd⟩
    · rfl
    by_cases hquote : ∃ ws, us = '\'' :: ws
    · obtain ⟨ws, rfl⟩ := hquote
      rfl
    · have hr : d ≠ 'r' := by
        rintro rfl
        exact absurd hd (by decide)
      rw [tick_name (fun ws h => hquote ⟨ws, h⟩) fun _ _ h => absurd h hr, if_neg]
      simp [isIdentStart_of_stops d hd, isDigit_of_stops d hd]
  rw [hliteral, withSuffix] at hs ⊢
  split at hs
  · rename_i hc
    rw [if_pos hc]
    exact Nat.add_pos_left (pos_charLiteral hc) _
  · rename_i hc
    exact absurd hs hc

theorem tick_append (hds : Halts ds) (hes : Halts es)
    (hs : (tick (cs ++ ds)).2.sound = true) (hle : (tick (cs ++ ds)).2.size ≤ cs.length) :
    tick (cs ++ es) = tick (cs ++ ds) := by
  have hliteral := steady_charLiteral.withSuffix cs ds es hds hes
  rcases cs with _ | ⟨c, rest⟩
  · exact absurd (pos_tick hds hs) (Nat.not_lt.2 hle)
  by_cases hquote : ∃ us, rest = '\'' :: us
  · obtain ⟨us, rfl⟩ := hquote
    exact congrArg (Prod.mk TokenKind.char) (hliteral hs hle)
  by_cases hraw : c = 'r' ∧ ∃ us, rest = '#' :: us
  · obtain ⟨rfl, us, rfl⟩ := hraw
    rcases us with _ | ⟨d, us⟩
    · rcases hds.eq_nil_or_cons with rfl | ⟨d, us, rfl, hd⟩
      · exact absurd hs (by decide +kernel)
      · simp [tick, isIdentStart_of_stops d hd] at hs
    · simp only [List.cons_append, tick, run_append isIdentContinue_of_stops hds,
        run_append isIdentContinue_of_stops hes]
  · have hquote (us : List Char) : rest ≠ '\'' :: us := fun h => hquote ⟨us, h⟩
    have hraw (hc : c = 'r') (us : List Char) : rest ≠ '#' :: us := fun h => hraw ⟨hc, us, h⟩
    have hname {us : List Char} (h : Halts us) :
        tick (c :: rest ++ us) = if isIdentStart c || c.isDigit then
          tickEnd (1 + run isIdentContinue rest) c.isDigit (rest.drop (run isIdentContinue rest))
        else (.char, withSuffix (charLiteral (c :: rest ++ us)) (c :: rest ++ us)) := by
      rw [List.cons_append, tick_name (ne_append_cons h (by decide) hquote)
        (fun d ws hc => ne_append_cons h (by decide) (hraw hc) (d :: ws)),
        run_append isIdentContinue_of_stops h, List.drop_append_of_le_length (run_le ..),
        tickEnd_append h]
    rw [hname hds] at hs hle ⊢
    rw [hname hes]
    split
    · rfl
    · rename_i hc
      rw [if_neg hc] at hs hle
      exact congrArg (Prod.mk TokenKind.char) (hliteral hs hle)

/-! ### The reader of a first character -/

theorem scan_r (cs : List Char) : scan 'r' cs =
    match cs with
    | '"' :: _ => (.string, withSuffix (rawQuoted cs) cs)
    | '#' :: c :: rest =>
      if isIdentStart c then (.ident, ⟨2 + run isIdentContinue rest, true⟩)
      else (.string, withSuffix (rawQuoted cs) cs)
    | '#' :: [] => (.string, withSuffix (rawQuoted cs) cs)
    | _ => word 'r' cs := rfl

theorem scan_b (cs : List Char) : scan 'b' cs = lettered 'b' true cs := rfl

theorem scan_c (cs : List Char) : scan 'c' cs = lettered 'c' false cs := rfl

theorem scan_tick (cs : List Char) : scan '\'' cs = tick cs := by
  have hs : isIdentStart '\'' = false := isIdentStart_of_mark (by decide)
  unfold scan
  rw [hs]
  rfl

theorem scan_quote (cs : List Char) : scan '"' cs = (.string, withSuffix (quoted cs) cs) := by
  have hs : isIdentStart '"' = false := isIdentStart_of_mark (by decide)
  unfold scan
  rw [hs]
  rfl

/-- Letters that a literal may start with. -/
def startsLiteral (c : Char) : Prop := c = 'r' ∨ c = 'b' ∨ c = 'c'

theorem scan_word {c : Char} (hs : isIdentStart c = true) (hc : ¬ startsLiteral c)
    (cs : List Char) : scan c cs = word c cs := by
  have hslash : c ≠ '/' := by
    rintro rfl
    rw [isIdentStart_of_mark (by decide)] at hs
    cases hs
  have hblank : isBlank c ≠ true := fun hb => by
    have := isIdentStart_of_stops c (List.mem_append_left _ (isBlank_iff.1 hb))
    rw [hs] at this
    cases this
  simp only [startsLiteral, not_or] at hc
  unfold scan
  rw [if_neg (by simp [hslash]), if_neg (by simp [hslash]), if_neg hblank, if_neg hc.1,
    if_neg hc.2.1, if_neg hc.2.2, if_pos hs]

theorem ne_of_isDigit {c d : Char} (hd : c.isDigit = true) (h : d.isDigit = false) : c ≠ d := by
  rintro rfl
  rw [hd] at h
  cases h

theorem scan_digit {c : Char} (hs : isIdentStart c = false) (hd : c.isDigit = true)
    (cs : List Char) : scan c cs = number c cs := by
  have hslash : c ≠ '/' := ne_of_isDigit hd rfl
  have hblank : isBlank c ≠ true := fun hb => by
    have := isDigit_of_stops c (List.mem_append_left _ (isBlank_iff.1 hb))
    rw [hd] at this
    cases this
  unfold scan
  rw [if_neg (by simp [hslash]), if_neg (by simp [hslash]), if_neg hblank,
    if_neg (ne_of_isDigit hd rfl), if_neg (ne_of_isDigit hd rfl), if_neg (ne_of_isDigit hd rfl), hs,
    if_neg Bool.false_ne_true, if_pos hd]

/-- What starts with no letter, no digit, no quote and no blank. -/
theorem scan_sign {c : Char} (hslash : c ≠ '/') (hb : isBlank c = false) (hs : isIdentStart c = false)
    (hd : c.isDigit = false) (htick : c ≠ '\'') (hquote : c ≠ '"') (cs : List Char) :
    scan c cs =
      match TokenKind.ofChar? c with
      | some kind => (kind, ⟨0, true⟩)
      | none =>
        if isPictograph c then (.ident, ⟨run word.isMisspelt cs, false⟩)
        else (.unknown, ⟨0, false⟩) := by
  have hletter {d : Char} (h : d ∈ ['r', 'b', 'c']) : c ≠ d := by
    rintro rfl
    rw [isIdentStart_of_letter h] at hs
    cases hs
  unfold scan
  rw [if_neg (by simp [hslash]), if_neg (by simp [hslash]), hb, if_neg Bool.false_ne_true,
    if_neg (hletter (by decide)), if_neg (hletter (by decide)), if_neg (hletter (by decide)), hs,
    if_neg Bool.false_ne_true, hd, if_neg Bool.false_ne_true, if_neg htick]
  exact if_neg hquote

/-! ### Tokens in front of a cut -/

theorem run_append_of_head {p : Char → Bool}
    (h : run p cs = cs.length → ∀ e ∈ es.head?, p e = false) :
    run p (cs ++ es) = run p cs := by
  rw [run, List.takeWhile_append]
  split
  · rename_i hall
    have he : es.takeWhile p = [] := by
      cases es with
      | nil => rfl
      | cons e es => rw [List.takeWhile_cons_of_neg (by simp [h hall e rfl])]
    rw [he, List.append_nil]
    exact hall.symm
  · rfl

theorem head_of_run_le {p : Char → Bool} (hle : run p (cs ++ ds) ≤ cs.length)
    (h : run p cs = cs.length) : ∀ d ∈ ds.head?, p d = false := by
  rintro d hd
  obtain ⟨us, rfl⟩ := List.head?_eq_some_iff.1 hd
  by_contra hp
  rw [run] at h
  rw [run, List.takeWhile_append, if_pos h, List.takeWhile_cons_of_pos (by simpa using hp),
    List.length_append, List.length_cons] at hle
  omega

/-- Tokens that are not to be read on over what comes next. -/
structure Parts (t : Token) (ds es : List Char) : Prop where
  /-- A line comment reads on up to a line break. -/
  comment : t.IsLineComment → es.head? = some '\n' ∨ es.head? = ds.head?
  /-- White space reads on up to what is no blank. -/
  white : t.kind = .whitespace → ∀ e ∈ es.head?, isBlank e = false

theorem Parts.of_solid {t : Token} (hk : t.kind.isTrivia = false) : Parts t ds es where
  comment h := by
    rw [h.1] at hk
    cases hk
  white h := by
    rw [h] at hk
    cases hk

theorem scan_r_word (hquote : ∀ us, cs ≠ '"' :: us) (hhash : ∀ us, cs ≠ '#' :: us) :
    scan 'r' cs = word 'r' cs := by
  rw [scan_r]
  split
  · exact absurd rfl (hquote _)
  · exact absurd rfl (hhash _)
  · exact absurd rfl (hhash _)
  · rfl

theorem scan_r_hash (cs : List Char) : scan 'r' ('#' :: cs) =
    if cs.head?.any isIdentStart then (.ident, ⟨2 + run isIdentContinue cs.tail, true⟩)
    else (.string, withSuffix (rawQuoted ('#' :: cs)) ('#' :: cs)) := by
  cases cs <;> rfl

theorem any_head?_append (h : Halts ds) :
    (cs ++ ds).head?.any isIdentStart = cs.head?.any isIdentStart := by
  rcases cs with _ | ⟨c, cs⟩
  · rcases h.eq_nil_or_cons with rfl | ⟨d, us, rfl, hd⟩
    · rfl
    · exact isIdentStart_of_stops d hd
  · rfl

theorem scan_r_append (hds : Halts ds) (hes : Halts es)
    (hs : (scan 'r' (cs ++ ds)).2.sound = true) (hle : (scan 'r' (cs ++ ds)).2.size ≤ cs.length) :
    scan 'r' (cs ++ es) = scan 'r' (cs ++ ds) := by
  have hliteral := steady_rawQuoted.withSuffix cs ds es hds hes
  by_cases hquote : ∃ us, cs = '"' :: us
  · obtain ⟨us, rfl⟩ := hquote
    exact congrArg (Prod.mk TokenKind.string) (hliteral hs hle)
  by_cases hhash : ∃ us, cs = '#' :: us
  · obtain ⟨us, rfl⟩ := hhash
    simp only [List.cons_append, scan_r_hash, any_head?_append hds, any_head?_append hes]
      at hs hle ⊢
    split
    · rename_i hstart
      rcases us with _ | ⟨c, us⟩
      · cases hstart
      · simp only [List.cons_append, List.tail_cons, run_append isIdentContinue_of_stops hds,
          run_append isIdentContinue_of_stops hes]
    · rename_i hstart
      rw [if_neg hstart] at hs hle
      exact congrArg (Prod.mk TokenKind.string) (hliteral hs hle)
  · have hword {us : List Char} (h : Halts us) : scan 'r' (cs ++ us) = word 'r' cs := by
      rw [scan_r_word (ne_append_cons h (by decide) fun us hc => hquote ⟨us, hc⟩)
        (ne_append_cons h (by decide) fun us hc => hhash ⟨us, hc⟩), word_append h]
    rw [hword hds, hword hes]

theorem scan_slash (cs : List Char) : scan '/' cs =
    if cs.head? = some '/' then (.comment, ⟨run (· ≠ '\n') cs, true⟩)
    else if cs.head? = some '*' then (.comment, (blockComment 1 (cs.drop 1)).after 1)
    else (.slash, ⟨0, true⟩) := by
  have hs : isIdentStart '/' = false := isIdentStart_of_mark (by decide)
  unfold scan
  rw [hs]
  simp only [decide_true, Bool.true_and, decide_eq_true_eq]
  rfl

theorem scan_slash_append (hds : Halts ds) (hes : Halts es)
    (hs : (scan '/' (cs ++ ds)).2.sound = true) (hle : (scan '/' (cs ++ ds)).2.size ≤ cs.length)
    (h : (scan '/' (cs ++ ds)).2.size = cs.length → cs.head? = some '/' →
      es.head? = some '\n' ∨ es.head? = ds.head?) :
    scan '/' (cs ++ es) = scan '/' (cs ++ ds) := by
  have hslash {us : List Char} (h : Halts us) :
      (cs ++ us).head? = some '/' ↔ cs.head? = some '/' :=
    head?_append_eq_some (c := '/') h (by decide)
  have hstar {us : List Char} (h : Halts us) :
      (cs ++ us).head? = some '*' ↔ cs.head? = some '*' :=
    head?_append_eq_some (c := '*') h (by decide)
  simp only [scan_slash, hslash hds, hslash hes, hstar hds, hstar hes] at hs hle h ⊢
  split
  · rename_i hc
    simp only [if_pos hc] at hle h
    have hd : run _ cs = cs.length → _ := head_of_run_le hle
    rw [run_append_of_head hd] at h ⊢
    rw [run_append_of_head]
    intro hall e he
    rcases h hall hc with hes | hes
    · rw [hes] at he
      obtain rfl := Option.some.inj he
      rfl
    · exact hd hall e (hes ▸ he)
  split
  · rename_i hc' hc
    rcases cs with _ | ⟨c, cs⟩
    · cases hc
    simp only [if_neg hc', if_pos hc] at hs hle
    exact congrArg (Prod.mk _)
      ((steady_blockComment 1).after hds hes cs (Nat.le_refl _) hs hle)
  · rfl

theorem scan_append (hds : Halts ds) (hes : Halts es) (first : Char) (cs : List Char)
    (hs : (scan first (cs ++ ds)).2.sound = true) (hle : (scan first (cs ++ ds)).2.size ≤ cs.length)
    (hparts : (scan first (cs ++ ds)).2.size = cs.length → Parts ⟨(scan first (cs ++ ds)).1,
      String.ofList (first :: cs), (scan first (cs ++ ds)).2.sound⟩ ds es) :
    scan first (cs ++ es) = scan first (cs ++ ds) := by
  by_cases hblank : isBlank first = true
  · rw [scan_of_blank hblank] at hle hparts ⊢
    rw [scan_of_blank hblank]
    have hblanks : run isBlank (cs ++ es) = run isBlank (cs ++ ds) := by
      have hcut : run isBlank cs = cs.length → _ := head_of_run_le hle
      rw [run_append_of_head hcut] at hparts ⊢
      exact run_append_of_head fun h => (hparts h).white rfl
    rw [hblanks]
  by_cases hletter : startsLiteral first
  · obtain rfl | rfl | rfl := hletter
    · exact scan_r_append hds hes hs hle
    · exact lettered_append hds hes 'b' true hs hle
    · exact lettered_append hds hes 'c' false hs hle
  by_cases hstart : isIdentStart first = true
  · rw [scan_word hstart hletter, scan_word hstart hletter, word_append hes, word_append hds]
  by_cases hdigit : first.isDigit = true
  · rw [scan_digit (Bool.not_eq_true _ ▸ hstart) hdigit] at hle ⊢
    rw [scan_digit (Bool.not_eq_true _ ▸ hstart) hdigit, number_append hds hes first hle]
  by_cases htick : first = '\''
  · subst htick
    rw [scan_tick] at hs hle ⊢
    rw [scan_tick, tick_append hds hes hs hle]
  by_cases hquote : first = '"'
  · subst hquote
    rw [scan_quote] at hs hle ⊢
    rw [scan_quote]
    exact congrArg (Prod.mk TokenKind.string) (steady_quoted.withSuffix cs ds es hds hes hs hle)
  by_cases hcomment : first = '/'
  · subst hcomment
    refine scan_slash_append hds hes hs hle fun h hslash => (hparts h).comment ⟨?_, ?_⟩
    · obtain ⟨us, rfl⟩ := List.head?_eq_some_iff.1 hslash
      rfl
    · obtain ⟨us, rfl⟩ := List.head?_eq_some_iff.1 hslash
      exact ⟨us, by simp⟩
  · have hsign := scan_sign hcomment (Bool.not_eq_true _ ▸ hblank) (Bool.not_eq_true _ ▸ hstart)
      (Bool.not_eq_true _ ▸ hdigit) htick hquote
    rw [hsign] at hs ⊢
    rw [hsign]
    split at hs
    · rfl
    · split at hs <;> cases hs

end Lexer

namespace Token

open Lexer

variable {pre ds es : List Char}

theorem lex_cons (c : Char) (cs : List Char) : lex (c :: cs) =
    ⟨(scan c cs).1, String.ofList (c :: cs.take (scan c cs).2.size), (scan c cs).2.sound⟩ ::
      lex (cs.drop (scan c cs).2.size) := by
  rw [lex]

theorem lex_of_scan {c : Char} {kind : TokenKind} {cs : List Char} (us : List Char)
    (h : scan c (us ++ cs) = (kind, ⟨us.length, true⟩)) :
    lex (c :: us ++ cs) = ⟨kind, String.ofList (c :: us), true⟩ :: lex cs := by
  rw [List.cons_append, lex_cons, h, List.take_left, List.drop_left]

/-- A character that is a token by itself. -/
theorem lex_sign (c : Char) (kind : TokenKind) (hk : TokenKind.ofChar? c = some kind)
    (hc : c ∉ blanks ++ ['/', '\'', '"']) (hs : Text.isIdentStart c = false) (hd : c.isDigit = false)
    (cs : List Char) : lex (c :: cs) = ⟨kind, String.ofList [c], true⟩ :: lex cs := by
  simp only [List.mem_append, List.mem_cons, List.not_mem_nil, not_or, or_false] at hc
  obtain ⟨hblank, hslash, htick, hquote⟩ := hc
  refine lex_of_scan [] ?_
  rw [scan_sign hslash (Bool.not_eq_true _ ▸ fun h => hblank (isBlank_iff.1 h)) hs hd htick hquote,
    hk]
  rfl

/-- The tokens in front of a cut stay the same whatever follows it, as long as the last of them does
not read on. -/
theorem lex_append {A B : List Token} (hds : Halts ds) (hes : Halts es) (hne : ds ≠ [])
    (h : lex (pre ++ ds) = A ++ B) (hpre : concat A = pre) (hs : ∀ t ∈ A, t.sound = true)
    (hlast : ∀ t ∈ A.getLast?, Parts t ds es) :
    lex (pre ++ es) = A ++ lex es ∧ B = lex ds := by
  induction A generalizing pre with
  | nil =>
    obtain rfl : [] = pre := hpre
    exact ⟨rfl, h.symm⟩
  | cons t A ih =>
    obtain ⟨ht, hrest⟩ := List.forall_mem_cons.1 hs
    have hfits (a : Token) (ha : a ∈ t :: A) : a.text.toList ≠ [] :=
      (fits_of_mem_lex (h ▸ List.mem_append_left B ha)).nonempty
    rw [concat_cons] at hpre
    rcases pre with _ | ⟨c, cs⟩
    · exact absurd (List.append_eq_nil_iff.1 hpre).1 (hfits t (List.mem_cons_self ..))
    rw [List.cons_append, lex_cons, List.cons_append, List.cons.injEq] at h
    obtain ⟨rfl, h⟩ := h
    -- the token ends in front of the cut
    rw [String.toList_ofList, List.cons_append, List.cons.injEq] at hpre
    obtain ⟨-, hpre⟩ := hpre
    have hds' := List.length_pos_iff.2 hne
    have hlen := congrArg List.length hpre
    rw [List.length_append, List.length_take, List.length_append] at hlen
    have hle : (scan c (cs ++ ds)).2.size ≤ cs.length := by omega
    rw [List.take_append_of_le_length hle] at hpre
    have hA : concat A = cs.drop (scan c (cs ++ ds)).2.size :=
      List.append_cancel_left (hpre.trans (List.take_append_drop _ cs).symm)
    have hscan : scan c (cs ++ es) = scan c (cs ++ ds) := by
      refine scan_append hds hes c cs ht hle fun hall => ?_
      obtain rfl : A = [] := by
        rcases A with _ | ⟨a, A⟩
        · rfl
        · rw [hall, List.drop_length, concat_cons] at hA
          exact absurd (List.append_eq_nil_iff.1 hA).1 (hfits a (by simp))
      have ht := hlast _ rfl
      rwa [List.take_append_of_le_length hle, hall, List.take_length] at ht
    rw [List.drop_append_of_le_length hle] at h
    obtain ⟨hlex, hB⟩ := ih h hA hrest fun a ha => hlast a (by
      rw [List.getLast?_cons, Option.mem_def.1 ha]
      rfl)
    refine ⟨?_, hB⟩
    rw [List.cons_append, lex_cons, hscan, List.take_append_of_le_length hle,
      List.take_append_of_le_length hle, List.drop_append_of_le_length hle, hlex,
      List.cons_append]

/-! ## What is read behind tokens -/

/-- What is read behind some tokens is read from what stands behind them. -/
theorem lex_concat {cs : List Char} {A B : List Token} (h : lex cs = A ++ B) :
    lex (concat B) = B := by
  induction A generalizing cs with
  | nil => rw [← show lex cs = B from h, concat_lex]
  | cons t A ih =>
    cases cs with
    | nil =>
      rw [lex] at h
      cases h
    | cons c cs =>
      rw [lex_cons, List.cons_append] at h
      exact ih (List.cons.inj h).2

/-- A token that is read is what is scanned where it stands. -/
theorem exists_scan {cs : List Char} {A B : List Token} {t : Token} (h : lex cs = A ++ t :: B) :
    ∃ c us, t.kind = (scan c us).1 ∧
      t.text.toList = c :: us.take (scan c us).2.size ∧ concat B = us.drop (scan c us).2.size := by
  have hlex := lex_concat h
  cases hcs : concat (t :: B) with
  | nil =>
    rw [hcs, lex] at hlex
    cases hlex
  | cons c us =>
    rw [hcs, lex_cons, List.cons.injEq] at hlex
    obtain ⟨rfl, rfl⟩ := hlex
    exact ⟨c, us, rfl, String.toList_ofList, concat_lex _⟩

/-- A run stops at what is not of its class. -/
theorem head?_drop_run {p : Char → Bool} {us : List Char} :
    ∀ c ∈ (us.drop (run p us)).head?, p c = false := by
  have hdrop : us.drop (run p us) = us.dropWhile p := by
    have hleft : (us.takeWhile p ++ us.dropWhile p).drop (us.takeWhile p).length =
        us.dropWhile p := List.drop_left
    rwa [List.takeWhile_append_dropWhile] at hleft
  rw [hdrop]
  intro c hc
  have hnot := List.head?_dropWhile_not p us
  rwa [Option.mem_def.1 hc] at hnot

/-- White space goes on up to what is no blank. -/
theorem head?_behind_whitespace {cs : List Char} {A B : List Token} {t : Token}
    (h : lex cs = A ++ t :: B) (hk : t.kind = .whitespace) :
    ∀ c ∈ (concat B).head?, isBlank c = false := by
  obtain ⟨c, us, hkind, -, hB⟩ := exists_scan h
  have hc : isBlank c = true := by
    by_contra hc
    exact scan_ne_whitespace (Bool.not_eq_true _ ▸ hc) us (hkind.symm.trans hk)
  rw [hB, scan_of_blank hc]
  exact head?_drop_run

/-- A line comment goes on up to a line break. -/
theorem head?_behind_lineComment {cs : List Char} {A B : List Token} {t : Token}
    (h : lex cs = A ++ t :: B) (ht : t.IsLineComment) : ∀ c ∈ (concat B).head?, c = '\n' := by
  obtain ⟨c, us, -, htext, hB⟩ := exists_scan h
  have hpre := ht.2
  rw [htext, List.cons_prefix_cons] at hpre
  obtain ⟨rfl, hpre⟩ := hpre
  have hslash : us.head? = some '/' := by
    cases us with
    | nil =>
      rw [List.take_nil] at hpre
      exact absurd (List.prefix_nil.1 hpre) (List.cons_ne_nil _ _)
    | cons d us =>
      cases hn : (scan '/' (d :: us)).2.size with
      | zero =>
        rw [hn, List.take_zero] at hpre
        exact absurd (List.prefix_nil.1 hpre) (List.cons_ne_nil _ _)
      | succ n =>
        rw [hn, List.take_succ_cons, List.cons_prefix_cons] at hpre
        rw [List.head?_cons, ← hpre.1]
  rw [hB, scan_slash, if_pos hslash]
  intro c hc
  simpa using head?_drop_run c hc

/-- Blanks up to what is none are one token. -/
theorem lex_blanks {bs : List Char} (hne : bs ≠ []) (hbs : ∀ b ∈ bs, isBlank b = true)
    (hcs : ∀ c ∈ cs.head?, isBlank c = false) :
    lex (bs ++ cs) = ⟨.whitespace, String.ofList bs, true⟩ :: lex cs := by
  obtain ⟨b, bs, rfl⟩ := List.exists_cons_of_ne_nil hne
  obtain ⟨hb, hbs⟩ := List.forall_mem_cons.1 hbs
  refine lex_of_scan bs ?_
  rw [scan_of_blank hb, run_append_of_head fun _ => hcs, run, List.takeWhile_eq_self_iff.2 hbs]

/-- A closed text whose tokens are known without what follows it. -/
theorem lex_word (word : String) (kind : TokenKind) (d : Char)
    (h : lex (word.toList ++ [d]) = ⟨kind, word, true⟩ :: lex [d]) (hd : d ∈ stops)
    (hcs : Halts cs) (hk : kind.isTrivia = false) :
    lex (word.toList ++ cs) = ⟨kind, word, true⟩ :: lex cs := by
  refine (lex_append (A := [⟨kind, word, true⟩]) (B := lex [d]) ?_ hcs (List.cons_ne_nil d []) h
    ?_ ?_ ?_).1
  · rintro c ⟨⟩
    exact hd
  · simp [concat]
  · simp
  · rintro t ⟨⟩
    exact .of_solid hk

end Token

end Docsmith.Source
