import Docsmith.Proofs.Description.Filled
import Docsmith.Proofs.Source.Identifiers
import Docsmith.Proofs.Text.Quoted

/-!
# The lines that declare constants

A region of constants is read as comments and declarations, whatever stands in front and behind, as
long as blanks are in front of it and a line ends behind it.

* `quoted_escaped`, `lex_quote`: a quoted text is one string;
* `lex_constant`: one line;
* `lex_regionBlock`: the region, by induction on its constants;
* `Spread.woven`: the trees of its constants.
-/

namespace Docsmith.Source

open Docsmith.Text

namespace Lexer

theorem quoted_plain {c : Char} (hquote : c ≠ '"') (hback : c ≠ '\\') (cs : List Char) :
    quoted (c :: cs) = (quoted cs).after 1 :=
  quoted.eq_5 _ _ hquote (fun _ h => absurd h hback) fun _ h => absurd h hback

theorem after_after (n m : Nat) (e : Extent) : (e.after n).after m = e.after (m + n) := by
  simp [Extent.after, Nat.add_assoc]

theorem quoted_append {us : List Char} (h : ∀ c ∈ us, c ≠ '"' ∧ c ≠ '\\') (cs : List Char) :
    quoted (us ++ cs) = (quoted cs).after us.length := by
  induction us with
  | nil => simp [Extent.after]
  | cons c us ih =>
    obtain ⟨hc, h⟩ := List.forall_mem_cons.1 h
    rw [List.cons_append, quoted_plain hc.1 hc.2, ih h, after_after, List.length_cons,
      Nat.add_comm]

theorem hexDigits_plain : ∀ n, ∀ c ∈ hexDigits n, c ≠ '"' ∧ c ≠ '\\' :=
  forall_mem_hexDigits (by decide)

/-- An escaped character is no end of a string. -/
theorem quoted_escapeChar (c : Char) (cs : List Char) :
    quoted (escapeChar c ++ cs) = (quoted cs).after (escapeChar c).length := by
  have hpair {d : Char} (hquote : d ≠ '"') (hback : d ≠ '\\') (us : List Char) :
      quoted ('\\' :: d :: us) = (quoted us).after 2 := by
    rw [quoted.eq_5 _ _ (by decide) (by simp [hback]) (by simp [hquote]),
      quoted_plain hquote hback, after_after]
  have h := written_escapeChar c
  generalize escapeChar c = us at h ⊢
  cases h with
  | @marked m h =>
    simp only [escapes, List.mem_cons, Prod.mk.injEq, List.not_mem_nil, or_false] at h
    rcases h with ⟨rfl, rfl⟩ | ⟨rfl, rfl⟩ | ⟨rfl, rfl⟩ | ⟨rfl, rfl⟩ | ⟨rfl, rfl⟩ | ⟨rfl, rfl⟩
    · exact hpair (by decide) (by decide) cs
    · exact hpair (by decide) (by decide) cs
    · exact hpair (by decide) (by decide) cs
    · exact hpair (by decide) (by decide) cs
    · rfl
    · rfl
  | plain h => exact quoted_plain (h ('"', '"') (by decide)) (h ('\\', '\\') (by decide)) cs
  | numbered =>
    have hall : '\\' :: 'u' :: '{' :: (hexDigits c.toNat ++ ['}']) ++ cs =
        '\\' :: 'u' :: '{' :: (hexDigits c.toNat ++ '}' :: cs) := by simp
    rw [hall, hpair (by decide) (by decide), quoted_plain (by decide) (by decide),
      quoted_append (hexDigits_plain _), quoted_plain (by decide) (by decide)]
    simp only [after_after, List.length_append, List.length_cons, List.length_nil]
    congr 1
    omega

theorem quoted_escaped (us cs : List Char) :
    quoted (us.flatMap escapeChar ++ '"' :: cs) = ⟨(us.flatMap escapeChar).length + 1, true⟩ := by
  induction us with
  | nil => rfl
  | cons c us ih =>
    rw [List.flatMap_cons, List.append_assoc, quoted_escapeChar, ih, List.length_append]
    simp [Extent.after, Nat.add_assoc]

end Lexer

namespace Token

open Lexer

variable {cs : List Char}

/-- A text in quotes is one string. -/
theorem lex_quote (s : String) (h : suffix cs = 0) :
    lex ((quote s).toList ++ cs) = ⟨.string, quote s, true⟩ :: lex cs := by
  rw [quote, String.toList_ofList]
  refine lex_of_scan (s.toList.flatMap escapeChar ++ ['"']) ?_
  rw [scan_quote, List.append_assoc, List.singleton_append, quoted_escaped, withSuffix, if_pos rfl]
  have hdrop : (s.toList.flatMap escapeChar ++ '"' :: cs).drop
      ((s.toList.flatMap escapeChar).length + 1) = cs := by
    rw [← List.drop_drop, List.drop_left]
    rfl
  rw [hdrop, h, List.length_append]
  rfl

/-- Two slashes start a comment that ends with its line. -/
theorem lex_lineComment {us : List Char} (hus : '\n' ∉ us) :
    lex ('/' :: '/' :: us ++ '\n' :: cs) =
      ⟨.comment, String.ofList ('/' :: '/' :: us), true⟩ :: lex ('\n' :: cs) := by
  have hall : ∀ u ∈ '/' :: us, decide (u ≠ '\n') = true := by
    rw [List.forall_mem_cons]
    exact ⟨by decide, fun u hu => decide_eq_true fun h => hus (h ▸ hu)⟩
  refine lex_of_scan ('/' :: us) ?_
  rw [scan_slash, if_pos (show ('/' :: us ++ _).head? = some '/' from rfl),
    run_append_of_head (by simp), run, List.takeWhile_eq_self_iff.2 hall]

end Token

end Docsmith.Source

namespace Docsmith.Description

open Docsmith.Source Docsmith.Text

/-- A single blank. -/
def space : Token := ⟨.whitespace, " ", true⟩

/-- The tokens of the declaration of a constant. -/
def constantTokens (c : String × String) : List Token :=
  [⟨.pubKw, "pub", true⟩, space, ⟨.constKw, "const", true⟩, space, ⟨.ident, c.1, true⟩,
    ⟨.colon, ":", true⟩, space, ⟨.amp, "&", true⟩, ⟨.ident, "str", true⟩, space, ⟨.eq, "=", true⟩,
    space, ⟨.string, quote c.2, true⟩, ⟨.semi, ";", true⟩]

open Lexer Token

variable {cs : List Char}

theorem isBlank_head_identifier {name : String} (h : IsIdentifier name) (us : List Char) :
    ∀ c ∈ (name.toList ++ us).head?, isBlank c = false := by
  rw [IsIdentifier] at h
  generalize hcs : name.toList = cs at h ⊢
  rcases cs with _ | ⟨c, cs⟩
  · rw [lex] at h
    cases h
  rintro d ⟨⟩
  by_contra hb
  rw [lex_cons, scan_of_blank (by simpa using hb)] at h
  cases h

theorem lex_constant {c : String × String} (h : IsIdentifier c.1) :
    lex (s!"pub const {c.1}: &str = {quote c.2};".toList ++ cs) = constantTokens c ++ lex cs := by
  have hall : s!"pub const {c.1}: &str = {quote c.2};".toList ++ cs =
      "pub".toList ++ ([' '] ++ ("const".toList ++ ([' '] ++ (c.1.toList ++ (':' :: ([' '] ++
        ('&' :: ("str".toList ++ ([' '] ++ ('=' :: ([' '] ++
          ((quote c.2).toList ++ (';' :: cs))))))))))))) := by
    simp [String.toList_append, ToString.toString]
  have hsep {us : List Char} (hus : ∀ u ∈ us.head?, isBlank u = false) :
      lex ([' '] ++ us) = space :: lex us :=
    lex_blanks (List.cons_ne_nil _ _) (List.all_eq_true.1 rfl) hus
  have hspace (us : List Char) : Halts ([' '] ++ us) := halts_cons (by decide) us
  have hpub (us : List Char) :=
    lex_word "pub" .pubKw ' ' (by decide +kernel) (by decide) (hspace us) rfl
  have hconst (us : List Char) :=
    lex_word "const" .constKw ' ' (by decide +kernel) (by decide) (hspace us) rfl
  have hstr (us : List Char) :=
    lex_word "str" .ident ' ' (by decide +kernel) (by decide) (hspace us) rfl
  have hcolon := lex_sign ':' .colon rfl (by decide) (by decide +kernel) rfl
  have hamp := lex_sign '&' .amp rfl (by decide) (by decide +kernel) rfl
  have heq := lex_sign '=' .eq rfl (by decide) (by decide +kernel) rfl
  have hsemi := lex_sign ';' .semi rfl (by decide) (by decide +kernel) rfl
  have hquote : ∀ u ∈ ((quote c.2).toList ++ ';' :: cs).head?, isBlank u = false := by
    rw [quote, String.toList_ofList]
    rintro u ⟨⟩
    rfl
  rw [hall, hpub, hsep (by rintro u ⟨⟩; rfl), hconst, hsep (isBlank_head_identifier h _),
    lex_identifier h (halts_cons (by decide) _), hcolon, hsep (by rintro u ⟨⟩; rfl), hamp, hstr,
    hsep (by rintro u ⟨⟩; rfl), heq, hsep hquote, lex_quote c.2 rfl, hsemi]
  rfl

/-- Declarations of constants, with blanks and comments in front of each and behind the last. All
tokens are whole. -/
inductive Spread : List (String × String) → List Token → Prop
  | nil {gap : List Token} : Trivial gap → (∀ t ∈ gap, t.sound = true) → Spread [] gap
  | cons {gap ts : List Token} {cs : List (String × String)} (c : String × String) :
      Trivial gap → (∀ t ∈ gap, t.sound = true) → gap ≠ [] → Spread cs ts →
      Spread (c :: cs) (gap ++ constantTokens c ++ ts)

namespace Spread

variable {constants : List (String × String)} {ts : List Token}

theorem before {gap : List Token} (h : Spread constants ts) (hgap : Trivial gap)
    (hs : ∀ t ∈ gap, t.sound = true) : Spread constants (gap ++ ts) := by
  cases h with
  | nil h hs' =>
    exact .nil (List.forall_mem_append.2 ⟨hgap, h⟩) (List.forall_mem_append.2 ⟨hs, hs'⟩)
  | cons c h hs' hne hts =>
    rw [← List.append_assoc, ← List.append_assoc]
    exact .cons c (List.forall_mem_append.2 ⟨hgap, h⟩) (List.forall_mem_append.2 ⟨hs, hs'⟩)
      (List.append_ne_nil_of_right_ne_nil _ hne) hts

theorem sound (h : Spread constants ts) : ∀ t ∈ ts, t.sound = true := by
  induction h with
  | nil _ hs => exact hs
  | cons c _ hs _ _ ih =>
    rw [List.forall_mem_append, List.forall_mem_append]
    exact ⟨⟨hs, by simp [constantTokens, space]⟩, ih⟩

end Spread

variable {indent : List Char} (hindent : ∀ b ∈ indent, isBlank b = true)
include hindent

theorem lex_break (hcs : ∀ c ∈ cs.head?, isBlank c = false) :
    lex ('\n' :: indent ++ cs) = ⟨.whitespace, String.ofList ('\n' :: indent), true⟩ :: lex cs :=
  lex_blanks (List.cons_ne_nil _ _) (List.forall_mem_cons.2 ⟨rfl, hindent⟩) hcs

/-- Lines of constants, and what comes behind a line. -/
theorem lex_constantLines {constants : List (String × String)} {rest : List Token}
    (hnames : ∀ c ∈ constants, IsIdentifier c.1) (hrest : Spread [] rest) {us : List Char}
    (hlex : lex cs = rest ++ lex us) :
    ∃ ts, Spread constants ts ∧
      lex (constants.flatMap (constantLine indent) ++ cs) = ts ++ lex us := by
  induction constants with
  | nil => exact ⟨rest, hrest, hlex⟩
  | cons c constants ih =>
    obtain ⟨hc, hnames⟩ := List.forall_mem_cons.1 hnames
    obtain ⟨ts, hts, hlex'⟩ := ih hnames
    have hline (vs : List Char) :
        ∀ d ∈ (s!"pub const {c.1}: &str = {quote c.2};".toList ++ vs).head?, isBlank d = false := by
      simp only [String.toList_append, ToString.toString, List.append_assoc]
      rintro d ⟨⟩
      rfl
    have hgap : Trivial [⟨.whitespace, String.ofList ('\n' :: indent), true⟩] := by
      simp [Trivial, TokenKind.isTrivia]
    refine ⟨_, .cons c hgap (by simp) (List.cons_ne_nil _ _) hts, ?_⟩
    rw [List.flatMap_cons, constantLine, List.append_assoc, List.append_assoc,
      lex_break hindent (hline _), lex_constant hc, hlex']
    simp

/-- A region's comments and constants, with blanks in front and up to a line break behind. -/
theorem lex_regionBlock {region : String} (hregion : '\n' ∉ region.toList)
    {constants : List (String × String)} (hnames : ∀ c ∈ constants, IsIdentifier c.1)
    {ws gap post : List Char} (hws : ∀ b ∈ ws, isBlank b = true)
    (hgap : ∀ b ∈ gap, isBlank b = true) (hbreak : '\n' ∈ gap)
    (hpost : ∀ c ∈ post.head?, isBlank c = false) :
    ∃ ts, Spread constants ts ∧
      lex (ws ++ regionBlock indent region constants ++ gap ++ post) = ts ++ lex post := by
  obtain ⟨gap₁, gap₂, rfl, hgap₁⟩ := List.eq_append_cons_of_mem hbreak
  rw [List.forall_mem_append, List.forall_mem_cons] at hgap
  -- the last line takes the blanks of the gap up to its line break
  let opening := " region: ".toList ++ region.toList
  let closing := " endregion: ".toList ++ region.toList ++ gap₁
  let last := '\n' :: indent ++ ('/' :: '/' :: closing ++ '\n' :: (gap₂ ++ post))
  have hlast : lex last = [⟨.whitespace, String.ofList ('\n' :: indent), true⟩,
      ⟨.comment, String.ofList ('/' :: '/' :: closing), true⟩,
      ⟨.whitespace, String.ofList ('\n' :: gap₂), true⟩] ++ lex post := by
    have hblank := lex_blanks (List.cons_ne_nil '\n' gap₂)
      (List.forall_mem_cons.2 ⟨rfl, hgap.2.2⟩) hpost
    rw [List.cons_append] at hblank
    rw [lex_break hindent (by rintro c ⟨⟩; rfl),
      lex_lineComment (by simp [closing, hregion, hgap₁]), hblank]
    rfl
  obtain ⟨ts, hts, hlex⟩ := lex_constantLines hindent hnames
    (.nil (by simp [Trivial, TokenKind.isTrivia]) (by simp)) hlast
  refine ⟨[⟨.whitespace, String.ofList (ws ++ '\n' :: indent), true⟩,
    ⟨.comment, String.ofList ('/' :: '/' :: opening), true⟩] ++ ts,
    hts.before (by simp [Trivial, TokenKind.isTrivia]) (by simp), ?_⟩
  obtain ⟨us, hus⟩ : ∃ us, constants.flatMap (constantLine indent) ++ last = '\n' :: us := by
    cases constants with
    | nil => exact ⟨_, rfl⟩
    | cons c constants => exact ⟨_, rfl⟩
  have hall : ws ++ regionBlock indent region constants ++ (gap₁ ++ '\n' :: gap₂) ++ post =
      ws ++ '\n' :: indent ++ ('/' :: '/' :: opening ++ '\n' :: us) := by
    rw [← hus, regionBlock]
    simp [opening, last, closing, String.toList_append, ToString.toString]
  have hblank : ∀ b ∈ ws ++ '\n' :: indent, isBlank b = true :=
    List.forall_mem_append.2 ⟨hws, List.forall_mem_cons.2 ⟨rfl, hindent⟩⟩
  rw [hall, lex_blanks (by simp) hblank (by rintro c ⟨⟩; rfl),
    lex_lineComment (by simp [opening, hregion]), ← hus, hlex]
  rfl

omit hindent

/-! ## Reading constants -/

open Grammar Outline Input

/-- The input a constant's declaration is read from. -/
def inputOf (c : String × String) : List Input := constantInput (c.1, quote c.2)

theorem ofTokens_constantTokens (c : String × String) (ts : List Token) :
    Input.ofTokens false (constantTokens c ++ ts) = inputOf c ++ Input.ofTokens true ts := rfl

/-- The input of declarations up to a brace. -/
theorem Spread.ofTokens {constants : List (String × String)} {ts : List Token}
    (h : Spread constants ts) (brace : Token) (hb : brace.kind = .rCurly) (glued : Bool)
    (behind : List Token) : ∃ glued', Input.ofTokens glued (ts ++ brace :: behind) =
      constants.flatMap inputOf ++ ⟨.rCurly, brace.text, glued'⟩ :: Input.ofTokens true behind := by
  have hbrace (glued : Bool) : Input.ofTokens glued (brace :: behind) =
      ⟨.rCurly, brace.text, glued⟩ :: Input.ofTokens true behind := by
    rw [Input.ofTokens, hb]
    rfl
  induction h generalizing glued with
  | @nil gap h _ =>
    by_cases hne : gap = []
    · exact ⟨glued, by rw [hne]; exact hbrace glued⟩
    · exact ⟨false, by rw [ofTokens_append_gap h hne]; exact hbrace false⟩
  | cons c h _ hne _ ih =>
    obtain ⟨glued', hts⟩ := ih true
    refine ⟨glued', ?_⟩
    rw [List.append_assoc, List.append_assoc, ofTokens_append_gap h hne, ofTokens_constantTokens,
      hts, List.flatMap_cons, List.append_assoc]

/-- What a constant's declaration holds in the tree. -/
def constantTrees (c : String × String) : List Tree :=
  let gap := Tree.token .whitespace " "
  [.node .visibility [.token .pubKw "pub"], gap, .token .constKw "const", gap,
    .node .name [.token .ident c.1], .token .colon ":", gap,
    .node .refType [.token .amp "&", .node .pathType [.node .path [.node .pathSegment [
      .node .nameRef [.token .ident "str"]]]]],
    gap, .token .eq "=", gap, .node .literal [.token .string (quote c.2)], .token .semi ";"]

theorem weave_constant (c : String × String) {gap : List Token} (hgap : Trivial gap)
    (ts : List Token) : ∃ before own : List Token,
      weave constantOutline (gap ++ constantTokens c ++ ts) = (before.map Tree.ofToken ++
        [.node .constItem (own.map Tree.ofToken ++ constantTrees c)], ts) := by
  obtain ⟨before, own, -, hnode⟩ := gapBefore_eq .constItem gap
  refine ⟨before, own, ?_⟩
  rw [constantOutline, constantTokens, List.append_assoc, List.cons_append,
    weave_node_of_solid _ _ hgap rfl, hnode]
  simp [weaveAll, weave, joined, Token.concat, constantTrees, space, TokenKind.isTrivia,
    NodeKind.keepsComments, Tree.ofToken]

open Tree in
/-- The name of a declared constant stands behind the comments that belong to it. -/
theorem constant?_constantTrees (c : String × String) (own : List Token) :
    (node .constItem (own.map ofToken ++ constantTrees c)).constant? = some c.1 := by
  have hown : (own.map ofToken).find? (·.kind? = some .name) = none := by
    rw [List.find?_eq_none, List.forall_mem_map]
    simp [ofToken, Tree.kind?]
  rw [constant?, child?, Tree.children, List.find?_append, hown, Option.none_or]
  simp [constantTrees, Tree.kind?, Tree.text, textAll]

open Tree in
/-- The trees of a constant declare it. -/
theorem declaring_constant (c : String × String) (before own : List Token) {names : List String}
    {added : List Tree} (h : Declaring names added) :
    Declaring (c.1 :: names) (before.map ofToken ++
      [.node .constItem (own.map ofToken ++ constantTrees c)] ++ added) where
  constants := by
    rw [List.filterMap_append, List.filterMap_append, filterMap_map_ofToken fun _ _ => rfl,
      h.constants]
    simp [constant?_constantTrees]
  named t ht hk := by
    simp only [List.mem_append, List.mem_map, List.mem_singleton] at ht
    rcases ht with (⟨u, -, rfl⟩ | rfl) | ht
    · cases hk
    · rw [constant?_constantTrees]
      rfl
    · exact h.named t ht hk
  no_impl := by
    rw [partsAll_append, partsAll_append, partsAll_map_ofToken, List.nil_append, partsAll, partsAll,
      List.append_nil, parts, partsAll_append, partsAll_map_ofToken]
    simp only [List.nil_append, List.cons_append, List.forall_mem_cons, List.forall_mem_append]
    refine ⟨by simp [Tree.kind?], ?_, h.no_impl⟩
    simp [constantTrees, partsAll, parts, Tree.kind?]

/-- Declarations of constants are read as constants. -/
theorem Spread.woven {constants : List (String × String)} {ts : List Token}
    (h : Spread constants ts) {brace : Token} (hb : brace.kind = .rCurly) (behind : List Token)
    {rest : List Token} (hrest : Trivial rest) :
    ∃ added, Tree.Declaring (constants.map (·.1)) added ∧
      weaveAll (List.replicate constants.length constantOutline ++ [.leaf .rCurly 1])
        (rest ++ ts ++ brace :: behind) = (added ++ [joined .rCurly [brace]], behind) := by
  induction h generalizing rest with
  | @nil gap hgap _ =>
    refine ⟨(rest ++ gap).map Tree.ofToken, ⟨Tree.filterMap_map_ofToken (fun _ _ => rfl) _, ?_, ?_⟩, ?_⟩
    · rw [List.forall_mem_map]
      exact fun _ _ hk => nomatch hk
    · rw [Tree.partsAll_map_ofToken]
      simp
    · have h := weave_leaf .rCurly (List.forall_mem_append.2 ⟨hrest, hgap⟩) rfl (by rw [hb]; rfl) []
        behind
      rw [List.append_assoc _ [brace]] at h
      exact (weaveAll_singleton _ _).trans h
  | @cons gap ts constants c hgap _ _ _ ih =>
    have hnil : Trivial [] := by simp [Trivial]
    obtain ⟨added, hadded, hw⟩ := ih hnil
    obtain ⟨before, own, hc⟩ := weave_constant c (List.forall_mem_append.2 ⟨hrest, hgap⟩)
      (ts ++ brace :: behind)
    refine ⟨_, declaring_constant c before own hadded, ?_⟩
    rw [List.length_cons, List.replicate_succ, List.cons_append, weaveAll]
    have hall : rest ++ (gap ++ constantTokens c ++ ts) ++ brace :: behind =
        rest ++ gap ++ constantTokens c ++ (ts ++ brace :: behind) := by simp
    rw [List.nil_append] at hw
    rw [hall, hc]
    simp [hw]

end Docsmith.Description
