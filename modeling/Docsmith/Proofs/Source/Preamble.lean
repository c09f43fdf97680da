import Docsmith.Proofs.Source.Cuts

/-!
# Preambles in front of a cut

What a file starts with, a line for an interpreter and a fenced block, is looked for in its text
before there are tokens.

* `Preamble.metadata?_append`: a block that ends in front of a cut is found whatever follows;
* `ofSource_append`: so are all tokens of the file in front of the cut.
-/

namespace Docsmith.Source

open Docsmith.Text Lexer

namespace Preamble

variable {p : Char → Bool} {cs ds es fence behind rest : List Char}

theorem takeWhile_append_of_exists (h : ∃ c ∈ cs, p c = false) (ds : List Char) :
    (cs ++ ds).takeWhile p = cs.takeWhile p := by
  induction cs with
  | nil => simp at h
  | cons c cs ih =>
    rw [List.cons_append, List.takeWhile_cons, List.takeWhile_cons]
    split
    · rename_i hc
      rw [ih (by simpa [hc] using h)]
    · rfl

theorem dropWhile_append_of_exists (h : ∃ c ∈ cs, p c = false) (ds : List Char) :
    (cs ++ ds).dropWhile p = cs.dropWhile p ++ ds := by
  induction cs with
  | nil => simp at h
  | cons c cs ih =>
    rw [List.cons_append, List.dropWhile_cons, List.dropWhile_cons]
    split
    · rename_i hc
      rw [ih (by simpa [hc] using h)]
    · rfl

/-- A line that ends in front of a cut ends there whatever follows. -/
theorem lineSize_append (h : lineSize (cs ++ ds) < cs.length) (es : List Char) :
    lineSize (cs ++ es) = lineSize (cs ++ ds) := by
  have hbreak : ∃ c ∈ cs, decide (c ≠ '\n') = false := by
    by_contra hno
    have hall : ∀ c ∈ cs, decide (c ≠ '\n') = true :=
      fun c hc => decide_eq_true fun h => hno ⟨c, hc, by simp [h]⟩
    rw [lineSize, List.takeWhile_append_of_pos hall, List.length_append, List.length_append] at h
    omega
  rw [lineSize, takeWhile_append_of_exists hbreak, List.length_append] at h
  rw [lineSize, lineSize, takeWhile_append_of_exists hbreak, takeWhile_append_of_exists hbreak,
    List.length_append, List.length_append]
  omega

/-! ## Blank lines -/

section

variable (h : ∃ c ∈ cs, isBlank c = false)
include h

theorem blankLinesSize_append (ds : List Char) : blankLinesSize (cs ++ ds) = blankLinesSize cs := by
  rw [blankLinesSize, blankLinesSize, takeWhile_append_of_exists h]

theorem blankLinesSize_lt : blankLinesSize cs < cs.length := by
  obtain ⟨c, hc, hb⟩ := h
  have hle : blankLinesSize cs ≤ (cs.takeWhile isBlank).length := by
    rw [blankLinesSize, ← @List.length_reverse _ (cs.takeWhile isBlank)]
    exact (List.dropWhile_suffix _).length_le
  have hlt : (cs.takeWhile isBlank).length < cs.length := by
    by_contra hge
    have hall := (List.takeWhile_prefix (l := cs) isBlank).eq_of_length_le (by omega)
    rw [← hall] at hc
    rw [List.mem_takeWhile_imp hc] at hb
    cases hb
  omega

/-- What a text holds behind its blank lines. -/
theorem drop_blankLinesSize_append (ds : List Char) :
    ∃ c us, (cs ++ ds).drop (blankLinesSize (cs ++ ds)) = c :: us ++ ds ∧
      cs.drop (blankLinesSize cs) = c :: us := by
  have hlt := blankLinesSize_lt h
  rw [blankLinesSize_append h, List.drop_append_of_le_length (Nat.le_of_lt hlt)]
  obtain ⟨c, us, hcs⟩ := List.exists_cons_of_length_pos (l := cs.drop (blankLinesSize cs))
    (by rw [List.length_drop]; omega)
  exact ⟨c, us, by rw [hcs], hcs⟩

end

/-! ## Fences -/

theorem eq_append_of_afterFence? (h : afterFence? fence cs = some behind) :
    ∃ us, cs = us ++ '\n' :: fence ++ behind := by
  induction cs with
  | nil => cases h
  | cons c cs ih =>
    rw [afterFence?] at h
    cases hs : afterStart? ('\n' :: fence) (c :: cs) with
    | some rest =>
      rw [hs] at h
      obtain rfl := Option.some.inj h
      exact ⟨[], eq_append_of_afterStart? hs⟩
    | none =>
      rw [hs] at h
      obtain ⟨us, rfl⟩ := ih h
      exact ⟨c :: us, rfl⟩

/-- A fence in front of a cut is found whatever follows. -/
theorem afterFence?_append (h : afterFence? fence (cs ++ ds) = some (rest ++ ds)) (es : List Char) :
    afterFence? fence (cs ++ es) = some (rest ++ es) := by
  induction cs with
  | nil =>
    obtain ⟨us, hus⟩ := eq_append_of_afterFence? h
    have := congrArg List.length hus
    simp only [List.nil_append, List.length_append, List.length_cons] at this
    omega
  | cons c cs ih =>
    rw [List.cons_append, afterFence?] at h ⊢
    cases hs : afterStart? ('\n' :: fence) (c :: (cs ++ ds)) with
    | some rest' =>
      rw [hs] at h
      obtain rfl : rest' = rest ++ ds := Option.some.inj h
      have hall := eq_append_of_afterStart? hs
      rw [← List.cons_append, ← List.append_assoc] at hall
      rw [← List.cons_append, List.append_cancel_right hall, List.append_assoc, afterStart?_append]
      rfl
    | none =>
      rw [hs] at h
      have hrest : afterFence? fence (cs ++ ds) = some (rest ++ ds) := h
      have hnone : afterStart? ('\n' :: fence) (c :: (cs ++ es)) = none := by
        by_contra hsome
        obtain ⟨rest', hs'⟩ := Option.ne_none_iff_exists'.1 hsome
        have hall := eq_append_of_afterStart? hs'
        -- the fence that is found stands behind, so there is room for one here
        obtain ⟨us, hus⟩ := eq_append_of_afterFence? hrest
        rw [← List.append_assoc] at hus
        have hcs := congrArg List.length (List.append_cancel_right hus)
        simp only [List.length_append, List.length_cons] at hcs
        rw [← List.cons_append, List.append_eq_append_iff] at hall
        rcases hall with ⟨vs, hvs, -⟩ | ⟨vs, hvs, -⟩
        · have := congrArg List.length hvs
          simp only [List.length_append, List.length_cons] at this
          omega
        · rw [← List.cons_append, hvs, List.append_assoc, afterStart?_append] at hs
          cases hs
      rw [hnone]
      exact ih hrest

/-! ## Preambles in front of a cut -/

/-- What follows the mark of an interpreter's line opens no attribute. -/
def OpensNone (cs : List Char) : Prop := (cs.dropWhile isWhite).head? ≠ some '['

theorem opensNone_blanks {w : List Char} {c : Char} (hw : ∀ b ∈ w, Lexer.isBlank b = true)
    (hc : c ≠ '[') (hwhite : Text.isWhite c = false) (us : List Char) :
    OpensNone (w ++ c :: us) := by
  induction w with
  | nil =>
    rw [List.nil_append, OpensNone, List.dropWhile_cons_of_neg (by simp [hwhite])]
    simpa using hc
  | cons b w ih =>
    obtain ⟨hb, hw⟩ := List.forall_mem_cons.1 hw
    rw [List.cons_append, OpensNone, List.dropWhile_cons]
    split
    · exact ih hw
    · rintro ⟨⟩
      revert hb
      decide

theorem interpreterSize_append (hds : Halts ds) (hes : Halts es) (hdn : OpensNone ds)
    (hen : OpensNone es) (h : interpreterSize (cs ++ ds) < cs.length) :
    interpreterSize (cs ++ es) = interpreterSize (cs ++ ds) := by
  have hbang {us : List Char} (hus : Halts us) (vs : List Char) : us ≠ '!' :: vs := by
    rintro rfl
    exact absurd (hus '!' rfl) (by decide)
  match cs with
  | [] => simp at h
  | [c] =>
    have hone {us : List Char} (hus : Halts us) : interpreterSize ([c] ++ us) = 0 := by
      rw [interpreterSize.eq_def]
      split
      · rename_i rest heq
        exact absurd (List.cons.inj heq).2 (hbang hus rest)
      · rfl
    rw [hone hds, hone hes]
  | c :: d :: cs =>
    by_cases hmark : c = '#' ∧ d = '!'
    · obtain ⟨rfl, rfl⟩ := hmark
      have hopen : ((cs ++ es).dropWhile isWhite).head? = some '[' ↔
          ((cs ++ ds).dropWhile isWhite).head? = some '[' := by
        by_cases hwhite : ∃ c ∈ cs, isWhite c = false
        · obtain ⟨c, us, hcs⟩ : ∃ c us, cs.dropWhile isWhite = c :: us := by
            refine List.exists_cons_of_ne_nil fun hnil => ?_
            obtain ⟨c, hc, hw⟩ := hwhite
            rw [List.dropWhile_eq_nil_iff.1 hnil c hc] at hw
            cases hw
          rw [dropWhile_append_of_exists hwhite, dropWhile_append_of_exists hwhite, hcs]
          rfl
        · have hall : ∀ c ∈ cs, isWhite c = true :=
            fun c hc => by_contra fun hw => hwhite ⟨c, hc, by simpa using hw⟩
          rw [List.dropWhile_append_of_pos hall, List.dropWhile_append_of_pos hall]
          exact iff_of_false hen hdn
      simp only [List.cons_append, interpreterSize] at h ⊢
      by_cases hb : ((cs ++ ds).dropWhile isWhite).head? = some '['
      · rw [if_pos hb, if_pos (hopen.2 hb)]
      · rw [if_neg hb] at h ⊢
        rw [if_neg (mt hopen.1 hb)]
        have hline : lineSize ('#' :: '!' :: cs ++ ds) < ('#' :: '!' :: cs).length := h
        exact lineSize_append hline es
    · have hnone (us : List Char) : interpreterSize (c :: d :: us) = 0 := by
        rw [interpreterSize.eq_def]
        split
        · rename_i rest heq
          obtain ⟨hc, htail⟩ := List.cons.inj heq
          exact absurd ⟨hc, (List.cons.inj htail).1⟩ hmark
        · rfl
      exact (hnone _).trans (hnone _).symm

/-- The metadata of a file, and nothing if there is none. -/
def metadata? (body : List Char) : Option Nat := do
  let opening := body.drop (blankLinesSize body)
  let fence := opening.takeWhile (· = '-')
  if fence.isEmpty then return 0
  if fence.length < 3 then none
  else
    let behind ← afterFence? fence (opening.dropWhile (· ≠ '\n'))
    let size := lineSize behind
    let rest := behind.drop size
    if !closesBlock (behind.take size) then none
    else if (rest.drop (blankLinesSize rest)).head? = some '-' then none
    else return body.length - rest.length

theorem ofChars?_eq (cs : List Char) : ofChars? cs =
    (metadata? (cs.drop (interpreterSize cs))).map fun n => ⟨interpreterSize cs, n⟩ := by
  rw [ofChars?, metadata?]
  dsimp only
  split
  · rfl
  split
  · rfl
  · simp only [Option.bind_eq_bind, Option.map_bind]
    congr 1
    funext behind
    dsimp only [Function.comp_apply]
    split
    · rfl
    split
    · rfl
    · rfl

/-- What is found behind a fence. -/
theorem of_metadata? {body opening : List Char} {n : Nat} (h : metadata? body = some n)
    (hopening : body.drop (blankLinesSize body) = opening) (hdash : opening.head? = some '-') :
    3 ≤ (opening.takeWhile (· = '-')).length ∧ ∃ line rest,
      afterFence? (opening.takeWhile (· = '-')) (opening.dropWhile (· ≠ '\n')) = some (line ++ rest) ∧
      lineSize (line ++ rest) = line.length ∧ closesBlock line = true ∧
      (rest.drop (blankLinesSize rest)).head? ≠ some '-' ∧ n = body.length - rest.length := by
  rw [metadata?, hopening] at h
  dsimp only at h
  have hne : (opening.takeWhile (· = '-')).isEmpty = false := by
    obtain ⟨us, rfl⟩ := List.head?_eq_some_iff.1 hdash
    rfl
  rw [hne, if_neg Bool.false_ne_true] at h
  split at h
  · cases h
  · rename_i hlength
    simp only [Option.bind_eq_bind, Option.bind_eq_some_iff] at h
    obtain ⟨behind, hbehind, h⟩ := h
    split at h
    · cases h
    · rename_i hcloses
      split at h
      · cases h
      · rename_i hhead
        refine ⟨by omega, behind.take (lineSize behind), behind.drop (lineSize behind), ?_, ?_,
          by simpa using hcloses, hhead, (Option.some.inj h).symm⟩
        · rw [List.take_append_drop]
          exact hbehind
        · rw [List.take_append_drop, List.length_take, Nat.min_eq_left]
          exact Nat.min_le_left ..

theorem metadata?_append {n : Nat} (h : metadata? (cs ++ ds) = some n)
    (hsolid : ∃ c ∈ cs.drop n, isBlank c = false) (es : List Char) :
    metadata? (cs ++ es) = some n := by
  have hcs : ∃ c ∈ cs, isBlank c = false := by
    obtain ⟨c, hc, hb⟩ := hsolid
    exact ⟨c, List.mem_of_mem_drop hc, hb⟩
  obtain ⟨c, us, hold, hhead⟩ := drop_blankLinesSize_append hcs ds
  obtain ⟨c', us', hnew, hhead'⟩ := drop_blankLinesSize_append hcs es
  obtain ⟨rfl, rfl⟩ := List.cons.inj (hhead.symm.trans hhead')
  by_cases hdash : c = '-'
  · subst hdash
    obtain ⟨hthree, line, rest, hfence, hsize, hcloses, hno, hn⟩ := of_metadata? h hold rfl
    obtain ⟨xs, hxs⟩ := eq_append_of_afterFence? hfence
    -- the block ends in front of the cut
    let block := ('-' :: us ++ ds).takeWhile (· ≠ '\n') ++
      (xs ++ '\n' :: ('-' :: us ++ ds).takeWhile (· = '-') ++ line)
    have hall : cs ++ ds = cs.take (blankLinesSize cs) ++ block ++ rest := by
      rw [List.append_assoc, List.append_assoc, List.append_assoc _ line rest, ← hxs,
        List.takeWhile_append_dropWhile, ← List.append_assoc, ← hhead, List.take_append_drop]
    have hlength := congrArg List.length hall
    rw [@List.length_append _ _ rest] at hlength
    have hlt : n < cs.length := by
      obtain ⟨c, hc, -⟩ := hsolid
      have := List.length_pos_of_mem hc
      rw [List.length_drop] at this
      omega
    have hcut : cs = cs.take (blankLinesSize cs) ++ block ++ cs.drop n ∧ rest = cs.drop n ++ ds := by
      have hn' : n = (cs.take (blankLinesSize cs) ++ block).length := by omega
      have htake := congrArg (List.take n) hall
      have hdrop := congrArg (List.drop n) hall
      rw [hn', List.take_left, ← hn', List.take_append_of_le_length (Nat.le_of_lt hlt)] at htake
      rw [hn', List.drop_left, ← hn', List.drop_append_of_le_length (Nat.le_of_lt hlt)] at hdrop
      exact ⟨by rw [← htake, List.take_append_drop], hdrop.symm⟩
    obtain ⟨hblock, rfl⟩ := hcut
    have hbreak : '\n' ∈ '-' :: us := by
      have hopening : '-' :: us = block ++ cs.drop n := by
        rw [List.append_assoc] at hblock
        rw [← hhead]
        exact List.append_cancel_left ((List.take_append_drop ..).trans hblock)
      rw [hopening]
      simp [block]
    have htake (vs : List Char) : ('-' :: us ++ vs).takeWhile (· = '-') =
        ('-' :: us).takeWhile (· = '-') := takeWhile_append_of_exists ⟨_, hbreak, rfl⟩ vs
    have hskip (vs : List Char) : ('-' :: us ++ vs).dropWhile (· ≠ '\n') =
        ('-' :: us).dropWhile (· ≠ '\n') ++ vs := dropWhile_append_of_exists ⟨_, hbreak, rfl⟩ vs
    rw [htake, hskip, ← List.append_assoc] at hfence
    rw [htake] at hthree
    have hfence' := afterFence?_append hfence es
    have hsize' : lineSize (line ++ cs.drop n ++ es) = line.length := by
      rw [← hsize, ← List.append_assoc]
      refine lineSize_append ?_ es
      rw [List.append_assoc, hsize, List.length_append, List.length_drop]
      omega
    obtain ⟨d, ws, hrest, hd⟩ := drop_blankLinesSize_append hsolid ds
    obtain ⟨d', ws', hrest', hd'⟩ := drop_blankLinesSize_append hsolid es
    obtain ⟨rfl, rfl⟩ := List.cons.inj (hd.symm.trans hd')
    rw [hrest] at hno
    replace hno : (d :: ws ++ es).head? ≠ some '-' := hno
    have hne : (('-' :: us).takeWhile (· = '-')).isEmpty = false := rfl
    rw [metadata?, hnew]
    dsimp only
    rw [htake, hskip, hne, if_neg Bool.false_ne_true, if_neg (by omega), hfence', Option.bind_eq_bind,
      Option.bind_some, hsize', List.append_assoc, List.take_left, List.drop_left, hcloses, hrest',
      if_neg (by simp), if_neg hno]
    simp only [List.length_append, List.length_drop] at hn ⊢
    exact congrArg some (by omega)
  · have hnone (vs : List Char) : ((c :: us ++ vs).takeWhile (· = '-')) = [] := by
      rw [List.cons_append, List.takeWhile_cons_of_neg (by simpa using hdash)]
    rw [metadata?, hold] at h
    rw [metadata?, hnew]
    dsimp only at h ⊢
    rw [hnone] at h ⊢
    exact h

/-- What a file starts with does not depend on what follows a cut behind it. -/
theorem ofChars?_append {p : Preamble} (hds : Halts ds) (hes : Halts es) (hdn : OpensNone ds)
    (hen : OpensNone es) (h : ofChars? (cs ++ ds) = some p)
    (hsolid : ∃ c ∈ cs.drop (p.interpreter + p.metadata), isBlank c = false) :
    ofChars? (cs ++ es) = some p := by
  rw [ofChars?_eq, Option.map_eq_some_iff] at h
  obtain ⟨n, hn, rfl⟩ := h
  dsimp only at hsolid
  have hlt : interpreterSize (cs ++ ds) < cs.length := by
    obtain ⟨c, hc, -⟩ := hsolid
    have := List.length_pos_of_mem hc
    rw [List.length_drop] at this
    omega
  rw [List.drop_append_of_le_length (Nat.le_of_lt hlt)] at hn
  rw [← List.drop_drop] at hsolid
  rw [ofChars?_eq, interpreterSize_append hds hes hdn hen hlt,
    List.drop_append_of_le_length (Nat.le_of_lt hlt), metadata?_append hn hsolid es]
  rfl

theorem interpreterSize_le (cs : List Char) : interpreterSize cs ≤ cs.length := by
  rw [interpreterSize.eq_def]
  split
  · split
    · exact Nat.zero_le _
    · exact Nat.min_le_left ..
  · exact Nat.zero_le _

theorem interpreter_le {cs : List Char} {p : Preamble} (h : ofChars? cs = some p) :
    p.interpreter ≤ cs.length := by
  rw [ofChars?_eq, Option.map_eq_some_iff] at h
  obtain ⟨n, -, rfl⟩ := h
  exact interpreterSize_le cs

end Preamble

/-- A list is cut at an element that its beginning does not hold. -/
theorem exists_append_of_notMem {α : Type} {us vs as bs : List α} {x : α}
    (h : us ++ vs = as ++ x :: bs) (hx : x ∉ us) : ∃ as', as = us ++ as' ∧ vs = as' ++ x :: bs := by
  rcases List.append_eq_append_iff.1 h with ⟨as', rfl, hvs⟩ | ⟨rest, rfl, hrest⟩
  · exact ⟨as', rfl, hvs⟩
  · cases rest with
    | nil => exact ⟨[], by simp, hrest.symm⟩
    | cons y rest =>
      obtain ⟨rfl, -⟩ := List.cons.inj hrest
      exact absurd (by simp) hx

namespace Token

variable {cs pre ds es : List Char} {p : Preamble}

/-- The preamble of a file as tokens. -/
def preamble (p : Preamble) (cs : List Char) : List Token :=
  block .shebang p.interpreter cs ++ block .frontmatter p.metadata (cs.drop p.interpreter)

theorem ofSource_eq {source : String} (h : Preamble.ofChars? source.toList = some p) :
    ofSource source = preamble p source.toList ++
      lex (source.toList.drop (p.interpreter + p.metadata)) := by
  rw [ofSource, Preamble.ofChars, h, ← List.drop_drop]
  rfl

theorem kind_of_mem_preamble {t : Token} (h : t ∈ preamble p cs) :
    t.kind = .shebang ∨ t.kind = .frontmatter := by
  have hblock {kind : TokenKind} {n : Nat} {us : List Char} (h : t ∈ block kind n us) :
      t.kind = kind := by
    rw [block] at h
    split at h
    · cases h
    · rw [List.mem_singleton.1 h]
  exact (List.mem_append.1 h).imp hblock hblock

/-- Other tokens stand behind the preamble. -/
theorem exists_behind_preamble {source : String} {front behind : List Token} {t : Token}
    (hp : Preamble.ofChars? source.toList = some p) (h : ofSource source = front ++ behind)
    (ht : t ∈ front) (hk : t.kind ≠ .shebang ∧ t.kind ≠ .frontmatter) :
    ∃ A, front = preamble p source.toList ++ A ∧ t ∈ A := by
  have hnot : t ∉ preamble p source.toList := fun ht => (kind_of_mem_preamble ht).elim hk.1 hk.2
  obtain ⟨before, rest, rfl⟩ := List.append_of_mem ht
  rw [ofSource_eq hp, List.append_assoc, List.cons_append] at h
  obtain ⟨A, rfl, -⟩ := exists_append_of_notMem h hnot
  exact ⟨A ++ t :: rest, by simp, by simp⟩

/-- A closing brace or bracket in a file is one character, and so is a semicolon. -/
theorem eq_closer_of_mem_ofSource {t : Token} {source : String} {closer : Char}
    (h : t ∈ ofSource source) (hk : (t.kind, closer) ∈ TokenKind.closers) :
    t = ⟨t.kind, String.ofList [closer], true⟩ := by
  rcases List.mem_append.1 h with h | h
  · rcases kind_of_mem_preamble (p := Preamble.ofChars source.toList) h with h | h <;>
      simp [h, TokenKind.closers] at hk
  · exact eq_closer_of_mem_lex h hk

theorem concat_preamble (p : Preamble) (cs : List Char) :
    concat (preamble p cs) = cs.take (p.interpreter + p.metadata) := by
  rw [preamble, concat_append, concat_block, concat_block, List.take_add]

theorem preamble_append (h : p.interpreter + p.metadata ≤ pre.length) (ds : List Char) :
    preamble p (pre ++ ds) = preamble p pre := by
  have hblock {kind : TokenKind} {n : Nat} {us : List Char} (hn : n ≤ us.length) :
      block kind n (us ++ ds) = block kind n us := by
    rw [block, block, List.take_append_of_le_length hn]
  rw [preamble, preamble, List.drop_append_of_le_length (by omega), hblock (by omega),
    hblock (by rw [List.length_drop]; omega)]

/-- A token that is not white space does not start with a blank. -/
theorem exists_solid_of_mem_lex {t : Token} (h : t ∈ lex cs) (hk : t.kind ≠ .whitespace) :
    ∃ c ∈ t.text.toList, Lexer.isBlank c = false := by
  fun_induction lex cs with
  | case1 => cases h
  | case2 c cs kind e hs ih =>
    rcases List.mem_cons.1 h with rfl | h
    · refine ⟨c, by simp, ?_⟩
      by_contra hb
      rw [scan_of_blank (by simpa using hb), Prod.mk.injEq] at hs
      exact hk hs.1.symm
    · exact ih h

/-- The tokens of a file in front of a cut stay the same whatever follows the cut, if there is one
of them behind the preamble that is no white space. -/
theorem ofSource_append {source new : String} {A B : List Token}
    (hold : source.toList = pre ++ ds) (hnew : new.toList = pre ++ es)
    (hds : Halts ds) (hes : Halts es) (hdn : Preamble.OpensNone ds) (hen : Preamble.OpensNone es)
    (hne : ds ≠ []) (hp : Preamble.ofChars? source.toList = some p)
    (h : ofSource source = preamble p source.toList ++ A ++ B)
    (hpre : concat (preamble p source.toList ++ A) = pre) (hs : ∀ t ∈ A, t.sound = true)
    (hsolid : ∃ t ∈ A, t.kind ≠ .whitespace) (hlast : ∀ t ∈ A.getLast?, Parts t ds es) :
    Preamble.ofChars? new.toList = some p ∧
      ofSource new = preamble p source.toList ++ A ++ lex es ∧ B = lex ds := by
  obtain ⟨t, ht, hk⟩ := hsolid
  rw [ofSource_eq hp, List.append_assoc, List.append_cancel_left_eq] at h
  -- the text in front of the cut is the preamble and those tokens
  have hle : p.interpreter + p.metadata ≤ source.toList.length := by
    have h₁ := Preamble.interpreter_le hp
    have h₂ := Preamble.metadata_le source.toList
    rw [Preamble.ofChars, hp, List.length_drop] at h₂
    simp only [Option.getD_some] at h₂
    omega
  rw [concat_append, concat_preamble] at hpre
  have hlen := congrArg List.length hpre
  rw [List.length_append, List.length_take, Nat.min_eq_left hle] at hlen
  have hdrop : pre.drop (p.interpreter + p.metadata) = concat A := by
    rw [← hpre, List.drop_left' (by rw [List.length_take, Nat.min_eq_left hle])]
  have hblank : ∃ c ∈ pre.drop (p.interpreter + p.metadata), isBlank c = false := by
    obtain ⟨c, hc, hb⟩ := exists_solid_of_mem_lex (h ▸ List.mem_append_left B ht) hk
    exact ⟨c, by rw [hdrop]; exact List.mem_flatMap.2 ⟨t, ht, hc⟩, hb⟩
  rw [hold] at hp h
  have hp' := Preamble.ofChars?_append hds hes hdn hen hp hblank
  rw [← hnew] at hp'
  rw [List.drop_append_of_le_length (by omega), hdrop] at h
  obtain ⟨hlex, hB⟩ := lex_append hds hes hne h rfl hs hlast
  refine ⟨hp', ?_, hB⟩
  rw [ofSource_eq hp', hnew, hold, preamble_append (by omega), preamble_append (by omega),
    List.drop_append_of_le_length (by omega), hdrop, hlex, List.append_assoc]

end Token

end Docsmith.Source
