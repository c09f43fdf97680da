import Docsmith.Proofs.Source.Lexer

/-!
# Readers in front of a cut

A text is cut in two where a character stands that ends every token in front of it. What a reader
takes in front of the cut, as a whole, does not depend on what stands behind.

* `Steady`, `steady_quoted` to `steady_charLiteral`: comments and literals;
* `number_append`, `word_append`: numbers and words.
-/

namespace Docsmith.Source.Lexer

open Docsmith.Text

/-- The blanks between tokens. -/
def blanks : List Char :=
  [' ', '\n', '\t', '\r', '\x0b', '\x0c', '\u0085', '\u200e', '\u200f', '\u2028', '\u2029']

theorem isBlank_iff {c : Char} : isBlank c = true ↔ c ∈ blanks := by
  have h (n : Nat) (d : Char) (hd : d.toNat = n) : c.toNat = n ↔ c = d := by
    rw [← hd, Char.toNat_inj]
  simp only [isBlank, blanks, Bool.or_eq_true, decide_eq_true_eq, List.mem_cons, List.not_mem_nil,
    or_false, or_assoc, h 0x0B '\x0b' rfl, h 0x0C '\x0c' rfl, h 0x85 '\u0085' rfl,
    h 0x200E '\u200e' rfl, h 0x200F '\u200f' rfl, h 0x2028 '\u2028' rfl, h 0x2029 '\u2029' rfl]

/-- Characters that end what stands in front of them: no token goes on with one of these, but for
white space, comments and literals that are not closed. -/
def stops : List Char := blanks ++ ['}', ']', ':', ';', ',']

/-- What may follow a cut: nothing, or a character that ends what stands in front of the cut. -/
def Halts (ds : List Char) : Prop := ∀ d ∈ ds.head?, d ∈ stops

variable {cs ds es : List Char}

theorem Halts.eq_nil_or_cons (h : Halts ds) : ds = [] ∨ ∃ d us, ds = d :: us ∧ d ∈ stops := by
  cases ds with
  | nil => exact .inl rfl
  | cons d us => exact .inr ⟨d, us, rfl, h d rfl⟩

theorem not_of_stops {p : Char → Bool} (h : stops.any p = false) (c : Char) (hc : c ∈ stops) :
    p c = false := by
  simpa using List.any_eq_false.1 h c hc

/-- The classes of characters that no stop belongs to. -/
theorem classes_of_stops (c : Char) (h : c ∈ stops) : isIdentStart c = false ∧
    isIdentContinue c = false ∧ isPictograph c = false ∧ word.isMisspelt c = false := by
  have hnone : stops.any (fun c => isIdentStart c || isIdentContinue c || isPictograph c ||
    word.isMisspelt c) = false := by decide +kernel
  simpa [and_assoc] using not_of_stops hnone c h

theorem isIdentStart_of_stops (c : Char) (h : c ∈ stops) : isIdentStart c = false :=
  (classes_of_stops c h).1

theorem isIdentContinue_of_stops (c : Char) (h : c ∈ stops) : isIdentContinue c = false :=
  (classes_of_stops c h).2.1

theorem isPictograph_of_stops (c : Char) (h : c ∈ stops) : isPictograph c = false :=
  (classes_of_stops c h).2.2.1

theorem isMisspelt_of_stops (c : Char) (h : c ∈ stops) : word.isMisspelt c = false :=
  (classes_of_stops c h).2.2.2

theorem isDigit_of_stops : ∀ c ∈ stops, c.isDigit = false := not_of_stops rfl

/-- Of the characters that literals and comments start with, the letters start names too. -/
theorem isIdentStart_ascii : ['\'', '"', '/'].all (!isIdentStart ·) = true ∧
    ['r', 'b', 'c'].all isIdentStart = true := by decide +kernel

theorem isIdentStart_of_mark {c : Char} (h : c ∈ ['\'', '"', '/']) : isIdentStart c = false := by
  simpa using List.all_eq_true.1 isIdentStart_ascii.1 c h

theorem isIdentStart_of_letter {c : Char} (h : c ∈ ['r', 'b', 'c']) : isIdentStart c = true :=
  List.all_eq_true.1 isIdentStart_ascii.2 c h

/-! ## Runs -/

theorem run_append {p : Char → Bool} (hp : ∀ c ∈ stops, p c = false) (h : Halts ds)
    (cs : List Char) : run p (cs ++ ds) = run p cs := by
  have hds : ds.takeWhile p = [] := by
    rcases h.eq_nil_or_cons with rfl | ⟨d, us, rfl, hd⟩
    · rfl
    · rw [List.takeWhile_cons_of_neg (by simp [hp d hd])]
  rw [run, run, List.takeWhile_append]
  split
  · rw [hds, List.append_nil]
    rename_i h'
    exact h'.symm
  · rfl

theorem run_le (p : Char → Bool) (cs : List Char) : run p cs ≤ cs.length :=
  (List.takeWhile_prefix p).length_le

theorem suffix_append (h : Halts ds) : suffix (cs ++ ds) = suffix cs := by
  cases cs with
  | nil =>
    rcases h.eq_nil_or_cons with rfl | ⟨d, us, rfl, hd⟩
    · rfl
    · rw [List.nil_append, suffix, suffix, isIdentStart_of_stops d hd, if_neg Bool.false_ne_true]
  | cons c cs => rw [List.cons_append, suffix, suffix, run_append isIdentContinue_of_stops h]

/-! ## Readers -/

/-- What a reader takes in front of a cut, as a whole, is told by what stands there. -/
def Steady (f : List Char → Extent) : Prop :=
  ∀ cs ds es, Halts ds → Halts es → (f (cs ++ ds)).sound = true →
    (f (cs ++ ds)).size ≤ cs.length → f (cs ++ es) = f (cs ++ ds)

theorem Steady.withSuffix {f : List Char → Extent} (hf : Steady f) :
    Steady fun cs => withSuffix (f cs) cs := by
  intro cs ds es hds hes hsound hsize
  have hs : (f (cs ++ ds)).sound = true := by
    by_contra hs
    simp [Lexer.withSuffix, hs] at hsound
  simp only [Lexer.withSuffix, hs, if_true] at hsize
  have hle : (f (cs ++ ds)).size ≤ cs.length := by omega
  have hsame := hf cs ds es hds hes hs hle
  simp only [Lexer.withSuffix, hsame, hs, if_true, List.drop_append_of_le_length hle,
    suffix_append hds, suffix_append hes]

/-- A row of characters that goes on behind a cut does so with one that stops. -/
theorem ne_append_cons {c : Char} (h : Halts ds) (hc : c ∉ stops) (hne : ∀ us, cs ≠ c :: us)
    (us : List Char) : cs ++ ds ≠ c :: us := by
  cases cs with
  | nil =>
    rintro rfl
    exact hc (h c rfl)
  | cons x cs =>
    intro h
    rw [List.cons_append, List.cons.injEq] at h
    exact hne cs (by rw [h.1])

theorem pos_quoted (h : (quoted cs).sound = true) : 0 < (quoted cs).size := by
  fun_cases quoted cs with
  | case1 => cases h
  | case2 => exact Nat.one_pos
  | case3 | case4 | case5 => exact Nat.add_pos_left (by decide) _

theorem steady_quoted : Steady quoted := by
  intro cs ds es hds hes hs hle
  fun_induction quoted cs with
  | case1 => exact absurd (pos_quoted hs) (by simpa using hle)
  | case2 => rfl
  | case3 cs ih =>
    simp only [List.cons_append, quoted, Extent.after, List.length_cons] at hs hle ⊢
    rw [ih hs (by omega)]
  | case4 cs ih =>
    simp only [List.cons_append, quoted, Extent.after, List.length_cons] at hs hle ⊢
    rw [ih hs (by omega)]
  | case5 c cs hquote hback hescaped ih =>
    have hstep {xs : List Char} (hxs : Halts xs) :
        quoted (c :: cs ++ xs) = (quoted (cs ++ xs)).after 1 := by
      refine quoted.eq_5 _ _ hquote ?_ ?_
      · intro us hc
        exact ne_append_cons hxs (by decide) (fun us h => hback us hc h) us
      · intro us hc
        exact ne_append_cons hxs (by decide) (fun us h => hescaped us hc h) us
    rw [hstep hds] at hs hle ⊢
    rw [hstep hes, ih hs (by simp only [Extent.after, List.length_cons] at hle; omega)]

theorem pos_blockComment {depth : Nat} (h : (blockComment depth cs).sound = true) :
    0 < (blockComment depth cs).size := by
  fun_cases blockComment depth cs with
  | case1 => cases h
  | case2 | case4 | case5 => exact Nat.add_pos_left (by decide) _
  | case3 => exact Nat.two_pos

theorem steady_blockComment (depth : Nat) : Steady (blockComment depth) := by
  intro cs ds es hds hes hs hle
  fun_induction blockComment depth cs with
  | case1 => exact absurd (pos_blockComment hs) (by simpa using hle)
  | case2 depth cs ih =>
    simp only [List.cons_append, blockComment, Extent.after, List.length_cons] at hs hle ⊢
    rw [ih hs (by omega)]
  | case3 depth cs hd =>
    simp only [List.cons_append, blockComment, if_pos hd]
  | case4 depth cs hd ih =>
    simp only [List.cons_append, blockComment, if_neg hd, Extent.after, List.length_cons]
      at hs hle ⊢
    rw [ih hs (by omega)]
  | case5 depth c cs hopen hclose ih =>
    have hstep {xs : List Char} (hxs : Halts xs) :
        blockComment depth (c :: cs ++ xs) = (blockComment depth (cs ++ xs)).after 1 := by
      refine blockComment.eq_4 _ _ _ ?_ ?_
      · intro us hc
        exact ne_append_cons hxs (by decide) (fun us h => hopen us hc h) us
      · intro us hc
        exact ne_append_cons hxs (by decide) (fun us h => hclose us hc h) us
    rw [hstep hds] at hs hle ⊢
    rw [hstep hes, ih hs (by simp only [Extent.after, List.length_cons] at hle; omega)]

theorem pos_rawBody {hashes : Nat} (h : (rawBody hashes cs).sound = true) :
    0 < (rawBody hashes cs).size := by
  fun_cases rawBody hashes cs with
  | case1 => cases h
  | case2 | case3 | case4 => exact Nat.add_pos_left (by decide) _

/-- The closing hashes of a raw literal. -/
def closesRaw (hashes : Nat) (cs : List Char) : Bool :=
  (cs.take hashes).length = hashes && (cs.take hashes).all (· = '#')

theorem closesRaw_append {hashes : Nat} (h : Halts ds) :
    closesRaw hashes (cs ++ ds) = closesRaw hashes cs := by
  rcases Nat.lt_or_ge cs.length hashes with hlt | hle
  rotate_left
  · simp only [closesRaw, List.take_append_of_le_length hle]
  · have hcs : closesRaw hashes cs = false := by
      simp only [closesRaw, Bool.and_eq_false_iff, decide_eq_false_iff_not]
      exact .inl (by rw [List.length_take]; omega)
    rw [hcs]
    rcases h.eq_nil_or_cons with rfl | ⟨d, us, rfl, hd⟩
    · rwa [List.append_nil]
    · simp only [closesRaw, Bool.and_eq_false_iff]
      refine .inr ?_
      rw [List.all_eq_false]
      refine ⟨d, ?_, ?_⟩
      · rw [List.take_append]
        obtain ⟨k, hk⟩ : ∃ k, hashes - cs.length = k + 1 := ⟨hashes - cs.length - 1, by omega⟩
        simp [hk]
      · rw [decide_eq_true_eq]
        rintro rfl
        exact absurd hd (by decide)

theorem steady_rawBody (hashes : Nat) : Steady (rawBody hashes) := by
  intro cs ds es hds hes hs hle
  fun_induction rawBody hashes cs with
  | case1 => exact absurd (pos_rawBody hs) (by simpa using hle)
  | case2 cs hc =>
    have hd := (closesRaw_append hds).trans hc
    have he := (closesRaw_append hes).trans hc
    simp only [closesRaw] at hd he
    simp only [List.cons_append, rawBody, if_pos hd, if_pos he]
  | case3 cs hc ih =>
    have hd : ¬ closesRaw hashes (cs ++ ds) = true := by rwa [closesRaw_append hds]
    have he : ¬ closesRaw hashes (cs ++ es) = true := by rwa [closesRaw_append hes]
    simp only [closesRaw] at hd he
    simp only [List.cons_append, rawBody, if_neg hd, if_neg he, Extent.after, List.length_cons]
      at hs hle ⊢
    rw [ih hs (by omega)]
  | case4 c cs hquote ih =>
    have hstep {xs : List Char} :
        rawBody hashes (c :: cs ++ xs) = (rawBody hashes (cs ++ xs)).after 1 :=
      rawBody.eq_3 _ _ _ hquote
    rw [hstep] at hs hle ⊢
    rw [hstep, ih hs (by simp only [Extent.after, List.length_cons] at hle; omega)]

theorem steady_rawQuoted : Steady rawQuoted := by
  intro cs ds es hds hes hs hle
  have hp : ∀ c ∈ stops, decide (c = '#') = false := not_of_stops rfl
  have hdrop (xs : List Char) :
      (cs ++ xs).drop (run (· = '#') cs) = cs.drop (run (· = '#') cs) ++ xs :=
    List.drop_append_of_le_length (run_le ..)
  unfold rawQuoted at hs hle ⊢
  simp only [run_append hp hds, run_append hp hes, hdrop] at hs hle ⊢
  generalize hk : cs.drop (run (· = '#') cs) = tail at hs hle ⊢
  have hlen := congrArg List.length hk
  rw [List.length_drop] at hlen
  cases tail with
  | nil =>
    rcases hds.eq_nil_or_cons with rfl | ⟨d, us, rfl, hd⟩
    · simp at hs
    · have : d ≠ '"' := by rintro rfl; exact absurd hd (by decide)
      simp only [List.nil_append] at hs
      cases hs
  | cons c tail =>
    by_cases hc : c = '"'
    · subst hc
      simp only [List.cons_append, Extent.after, Bool.and_eq_true, List.length_cons]
        at hs hle hlen ⊢
      rw [steady_rawBody _ tail ds es hds hes hs.1 (by omega)]
    · simp only [List.cons_append] at hs
      cases hs

theorem pos_longChar (h : (longChar cs).sound = true) : 0 < (longChar cs).size := by
  fun_cases longChar cs with
  | case1 | case3 => cases h
  | case2 => exact Nat.one_pos
  | case4 => exact Nat.add_pos_left (by decide) _
  | case5 c cs hquote hslash hescaped hbreak =>
    rw [longChar.eq_5 _ _ hquote hslash hescaped, if_pos hbreak] at h
    cases h
  | case6 => exact Nat.add_pos_left (by decide) _

theorem longChar_step {c : Char} {cs : List Char} (hc : c ≠ '\'') (hslash : c ≠ '/')
    (hback : c ≠ '\\') :
    longChar (c :: cs) =
      if c = '\n' && cs.head? ≠ some '\'' then ⟨0, false⟩ else (longChar cs).after 1 :=
  longChar.eq_5 _ _ hc hslash fun _ _ h => absurd h hback

theorem head?_append_eq_some {c : Char} (h : Halts ds) (hc : c ∉ stops) :
    (cs ++ ds).head? = some c ↔ cs.head? = some c := by
  cases cs with
  | nil => exact ⟨fun hd => absurd (h c hd) hc, fun hn => by cases hn⟩
  | cons x cs => rfl

theorem steady_longChar : Steady longChar := by
  intro cs ds es hds hes hs hle
  fun_induction longChar cs with
  | case1 => exact absurd (pos_longChar hs) (by simpa using hle)
  | case2 => rfl
  | case3 => cases hs
  | case4 c cs ih =>
    simp only [List.cons_append, longChar, Extent.after, List.length_cons] at hs hle ⊢
    rw [ih hs (by omega)]
  | case5 c cs hquote hslash hescaped hbreak =>
    simp only [Bool.and_eq_true, decide_eq_true_eq] at hbreak
    obtain ⟨rfl, hhead⟩ := hbreak
    rw [List.cons_append, longChar_step (by decide) (by decide) (by decide), if_pos] at hs
    · cases hs
    · simp only [ne_eq, head?_append_eq_some hds (c := '\'') (by decide)]
      simpa using hhead
  | case6 c cs hquote hslash hescaped hbreak ih =>
    by_cases hback : c = '\\'
    · subst hback
      obtain rfl : cs = [] := by
        cases cs with
        | nil => rfl
        | cons x cs => exact absurd rfl (hescaped x cs rfl)
      rcases hds.eq_nil_or_cons with rfl | ⟨d, us, rfl, -⟩
      · cases hs
      · simp [longChar, Extent.after] at hle
        omega
    · have hstep {xs : List Char} (hxs : Halts xs) :
          longChar (c :: cs ++ xs) = (longChar (cs ++ xs)).after 1 := by
        rw [List.cons_append, longChar_step hquote hslash hback, if_neg]
        simpa only [ne_eq, head?_append_eq_some hxs (c := '\'') (by decide)] using hbreak
      rw [hstep hds] at hs hle ⊢
      rw [hstep hes, ih hs (by simp only [Extent.after, List.length_cons] at hle; omega)]

theorem charLiteral_eq (cs : List Char) : charLiteral cs =
    if cs.head? ≠ some '\\' && (cs.drop 1).head? = some '\'' then ⟨2, true⟩ else longChar cs := by
  unfold charLiteral
  split
  · rename_i c us
    by_cases hc : c = '\\' <;> simp [hc]
  · rename_i h
    rw [if_neg]
    intro hn
    rw [Bool.and_eq_true, decide_eq_true_eq, decide_eq_true_eq] at hn
    cases cs with
    | nil => simp at hn
    | cons c cs =>
      cases cs with
      | nil => simp at hn
      | cons d cs =>
        obtain ⟨-, hn⟩ := hn
        obtain rfl : d = '\'' := by simpa using hn
        exact h c cs rfl

theorem steady_charLiteral : Steady charLiteral := by
  intro cs ds es hds hes hs hle
  rcases cs with _ | ⟨c, cs⟩
  · -- nothing that is whole has been read up to the cut
    rw [List.nil_append, charLiteral_eq] at hs hle
    split at hs
    · rename_i hc
      rw [if_pos hc] at hle
      exact absurd hle (by decide)
    · rename_i hc
      rw [if_neg hc] at hle
      exact absurd (pos_longChar hs) (Nat.not_lt.2 hle)
  · have hsecond {xs : List Char} (hxs : Halts xs) :
        ((c :: cs ++ xs).head? ≠ some '\\' && ((c :: cs ++ xs).drop 1).head? = some '\'') =
          (c ≠ '\\' && cs.head? = some '\'' : Bool) := by
      simp only [List.cons_append, List.head?_cons, List.drop_one, List.tail_cons, ne_eq,
        head?_append_eq_some hxs (c := '\'') (by decide), Option.some_inj]
    simp only [charLiteral_eq, hsecond hds, hsecond hes] at hs hle ⊢
    split
    · rfl
    · rename_i hc
      rw [if_neg hc] at hs hle
      exact steady_longChar _ _ _ hds hes hs hle

/-! ## Numbers and words -/

theorem takeWhile_append {p : Char → Bool} (hp : ∀ c ∈ stops, p c = false) (h : Halts ds) :
    (cs ++ ds).takeWhile p = cs.takeWhile p := by
  have hrun := run_append hp h cs
  have hpre := List.takeWhile_prefix (l := cs ++ ds) p
  have hpre' := (List.takeWhile_prefix (l := cs) p).trans (List.prefix_append cs ds)
  exact (List.prefix_of_prefix_length_le hpre hpre' (Nat.le_of_eq hrun)).eq_of_length hrun

theorem isDecimalOrBar_of_stops : ∀ c ∈ stops, isDecimalOrBar c = false := not_of_stops rfl
theorem isHexOrBar_of_stops : ∀ c ∈ stops, isHexOrBar c = false := not_of_stops rfl

theorem basedDigits_append {p : Char → Bool} (hp : ∀ c ∈ stops, p c = false) (h : Halts ds)
    (cs : List Char) : basedDigits p (cs ++ ds) = basedDigits p cs := by
  simp only [basedDigits, takeWhile_append hp h]

theorem ne_cons {c : Char} (h : Halts ds) (hc : c ∉ stops) (us : List Char) : ds ≠ c :: us := by
  rintro rfl
  exact hc (h c rfl)

theorem exponent_append (h : Halts ds) : exponent (cs ++ ds) = exponent cs := by
  have hd := basedDigits_append isDecimalOrBar_of_stops h
  fun_cases exponent cs with
  | case1 cs | case2 cs => rw [List.cons_append, exponent, hd]
  | case3 _ hminus hplus =>
    rw [exponent.eq_3 _ (ne_append_cons h (by decide) hminus) (ne_append_cons h (by decide) hplus),
      hd]

/-- What follows the digits behind a point. -/
def decimals (whole : Nat) : List Char → TokenKind × Extent
  | 'e' :: cs => (.float, (exponent cs).after (whole + 2))
  | 'E' :: cs => (.float, (exponent cs).after (whole + 2))
  | _ => (.float, ⟨1 + whole, true⟩)

theorem decimals_append (h : Halts ds) (whole : Nat) :
    decimals whole (cs ++ ds) = decimals whole cs := by
  fun_cases decimals whole cs with
  | case1 cs | case2 cs => rw [List.cons_append, decimals, exponent_append h]
  | case3 _ he hE =>
    exact decimals.eq_3 _ _ (ne_append_cons h (by decide) he) (ne_append_cons h (by decide) hE)

theorem fraction_point (c : Char) (cs : List Char) : fraction ('.' :: c :: cs) =
    if c = '.' || isIdentStart c then (.int, ⟨0, true⟩)
    else if c.isDigit then
      decimals (run isDecimalOrBar (c :: cs)) ((c :: cs).drop (run isDecimalOrBar (c :: cs)))
    else (.float, ⟨1, true⟩) := by
  rw [fraction]
  rfl

theorem fraction_append (h : Halts ds) : fraction (cs ++ ds) = fraction cs := by
  rcases cs with _ | ⟨c, cs⟩
  · exact fraction.eq_5 _ (ne_cons h (by decide)) (ne_cons h (by decide)) (ne_cons h (by decide))
  by_cases hdot : c = '.'
  · subst hdot
    rcases cs with _ | ⟨d, cs⟩
    · rcases h.eq_nil_or_cons with rfl | ⟨d, us, rfl, hd⟩
      · rfl
      · have hne : d ≠ '.' := fun hc => absurd hd (hc ▸ by decide)
        simp [hne, isIdentStart_of_stops d hd, isDigit_of_stops d hd, fraction]
    · have hrun := run_append isDecimalOrBar_of_stops h (d :: cs)
      have hdrop : _ = _ ++ ds := List.drop_append_of_le_length (run_le isDecimalOrBar (d :: cs))
      rw [List.cons_append] at hrun hdrop
      rw [List.cons_append, List.cons_append, fraction_point, fraction_point, hrun, hdrop,
        decimals_append h]
  by_cases he : c = 'e'
  · subst he
    rw [List.cons_append, fraction, fraction, exponent_append h]
  by_cases hE : c = 'E'
  · subst hE
    rw [List.cons_append, fraction, fraction, exponent_append h]
  · have hother (us : List Char) : fraction (c :: us) = (.int, ⟨0, true⟩) :=
      fraction.eq_5 _ (by simp [hdot]) (by simp [he]) (by simp [hE])
    rw [List.cons_append, hother, hother]

theorem digitsThenFraction_append {p : Char → Bool} (hp : ∀ c ∈ stops, p c = false) (h : Halts ds) :
    digitsThenFraction p (cs ++ ds) = digitsThenFraction p cs := by
  simp only [digitsThenFraction, run_append hp h, List.drop_append_of_le_length (run_le p _),
    fraction_append h]

theorem based_append {p : Char → Bool} (hp : ∀ c ∈ stops, p c = false) (h : Halts ds) :
    based p (cs ++ ds) = based p cs := by
  simp only [based, basedDigits_append hp h, digitsThenFraction_append hp h]

/-- A number without its suffix. -/
def digits : Char → List Char → TokenKind × Extent
  | '0', 'b' :: cs => based isDecimalOrBar cs
  | '0', 'o' :: cs => based isDecimalOrBar cs
  | '0', 'x' :: cs => based isHexOrBar cs
  | _, cs => digitsThenFraction isDecimalOrBar cs

theorem number_eq (first : Char) (cs : List Char) : number first cs =
    ((digits first cs).1, ⟨(digits first cs).2.size + suffix (cs.drop (digits first cs).2.size),
      (digits first cs).2.sound⟩) := rfl

theorem digits_append (h : Halts ds) (first : Char) : digits first (cs ++ ds) = digits first cs := by
  fun_cases digits first cs with
  | case1 cs | case2 cs => rw [List.cons_append, digits, based_append isDecimalOrBar_of_stops h]
  | case3 cs => rw [List.cons_append, digits, based_append isHexOrBar_of_stops h]
  | case4 first cs hb ho hx =>
    rw [digits.eq_4 _ _ (fun us hf => ne_append_cons h (by decide) (hb · hf) us)
      (fun us hf => ne_append_cons h (by decide) (ho · hf) us)
      (fun us hf => ne_append_cons h (by decide) (hx · hf) us),
      digitsThenFraction_append isDecimalOrBar_of_stops h]

theorem number_append (hds : Halts ds) (hes : Halts es) (first : Char)
    (hle : (number first (cs ++ ds)).2.size ≤ cs.length) :
    number first (cs ++ es) = number first (cs ++ ds) := by
  simp only [number_eq, digits_append hds, digits_append hes] at hle ⊢
  have hle' : (digits first cs).2.size ≤ cs.length := by omega
  have hdrop (us : List Char) : _ = _ ++ us := List.drop_append_of_le_length hle'
  rw [hdrop, hdrop, suffix_append hds, suffix_append hes]

/-- What kind of word ends in front of the rest, and where. -/
def wordEnd (kind : TokenKind) (size : Nat) : List Char → TokenKind × Extent
  | c :: rest =>
    if c = '#' || c = '"' || c = '\'' then (.ident, ⟨size, false⟩)
    else if isPictograph c then (.ident, ⟨size + run word.isMisspelt (c :: rest), false⟩)
    else (kind, ⟨size, true⟩)
  | [] => (kind, ⟨size, true⟩)

theorem word_eq (first : Char) (cs : List Char) : word first cs =
    wordEnd (word.kindOf first cs (run isIdentContinue cs)) (run isIdentContinue cs)
      (cs.drop (run isIdentContinue cs)) := by
  rw [word]
  rfl

theorem wordEnd_append (h : Halts ds) (kind : TokenKind) (size : Nat) :
    wordEnd kind size (cs ++ ds) = wordEnd kind size cs := by
  rcases cs with _ | ⟨c, cs⟩
  · rcases h.eq_nil_or_cons with rfl | ⟨d, us, rfl, hd⟩
    · rfl
    · have hne {c : Char} (hc : c ∉ stops) : d ≠ c := fun h => hc (h ▸ hd)
      simp [wordEnd, isPictograph_of_stops d hd, hne (c := '#') (by decide),
        hne (c := '"') (by decide), hne (c := '\'') (by decide)]
  · have hrun := run_append isMisspelt_of_stops h (c :: cs)
    rw [List.cons_append] at hrun
    rw [List.cons_append, wordEnd, wordEnd, hrun]

theorem word_append (h : Halts ds) (first : Char) : word first (cs ++ ds) = word first cs := by
  have hle := run_le isIdentContinue cs
  simp only [word_eq, word.kindOf, run_append isIdentContinue_of_stops h,
    List.take_append_of_le_length hle, List.drop_append_of_le_length hle, wordEnd_append h]

end Docsmith.Source.Lexer
