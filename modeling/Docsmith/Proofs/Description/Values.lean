import Docsmith.Proofs.Description.Declaring
import Docsmith.Proofs.Text.Quoted

/-!
# The values of constants

A constant is declared with its value as a string literal. Whatever the value, the literal is whole,
stays on its line and stands for the value.

* `denotes_quote`: a quoted text is such a literal;
* `declareConstants_denotes`: it is what a constant that was missing is declared with.
-/

namespace Docsmith.Description

open Docsmith.Source Docsmith.Text Lexer

/-- A text is one string literal, on one line, that stands for a value. -/
structure Denotes (literal value : String) : Prop where
  /-- It is one token, which ends where it ends unless a suffix follows. -/
  whole : ∀ cs, suffix cs = 0 →
    Token.lex (literal.toList ++ cs) = ⟨.string, literal, true⟩ :: Token.lex cs
  line : ∀ c ∈ literal.toList, c ≠ '\n' ∧ c ≠ '\r'
  quotes : ∃ body, literal.toList = '"' :: body ++ ['"'] ∧ QuotesEscaped body
  value : literalValue? literal = some value

theorem denotes_quote (value : String) : Denotes (quote value) value where
  whole _ h := Token.lex_quote value h
  line := no_break_quote value
  quotes := ⟨_, String.toList_ofList, quotesEscaped_flatMap value.toList⟩
  value := literalValue?_quote value

theorem exists_constantLine {c : String × String} {constants : List (String × String)}
    (h : c ∈ constants) (indent : List Char) (region : String) :
    ∃ front back, regionBlock indent region constants =
      front ++ s!"pub const {c.1}: &str = {quote c.2};".toList ++ back := by
  obtain ⟨before, behind, rfl⟩ := List.append_of_mem h
  refine ⟨'\n' :: indent ++ s!"// region: {region}".toList ++
      before.flatMap (constantLine indent) ++ '\n' :: indent,
    behind.flatMap (constantLine indent) ++
      '\n' :: indent ++ s!"// endregion: {region}".toList, ?_⟩
  rw [regionBlock, List.flatMap_append, List.flatMap_cons, constantLine]
  simp only [List.append_assoc, List.cons_append]

/-- A block that is put into a text stands in it. -/
theorem exists_insertBlock (f : File) (cs : List Char) (closing : Nat) (outer block : List Char) :
    ∃ front back,
      Edit.applyAll cs [f.insertBlock closing outer block] = front ++ block ++ back := by
  rw [Edit.applyAll_singleton, Edit.apply]
  have htext : ∃ more, (f.insertBlock closing outer block).text = block ++ more := by
    rw [File.insertBlock]
    split
    · split
      · exact ⟨[], (List.append_nil _).symm⟩
      · exact ⟨_, rfl⟩
    · exact ⟨_, rfl⟩
  obtain ⟨more, hmore⟩ := htext
  rw [hmore]
  exact ⟨_, _, by rw [← List.append_assoc, List.append_assoc]⟩

/-- Every value has a literal that stands for it, and a constant that was missing is declared with
the one for its value. -/
theorem declareConstants_denotes :
    (∀ value, Denotes (quote value) value) ∧
    ∀ source typeName region (constants : Table String String) r,
      declareConstants source typeName region constants = .ok r →
        ∀ c ∈ missing source typeName constants, ∃ front back,
          r.after.toList = front ++ s!"pub const {c.1}: &str = {quote c.2};".toList ++ back := by
  refine ⟨denotes_quote, fun source typeName region constants r h c hc => ?_⟩
  rcases declareConstants_cases h with ⟨hnone, -⟩ | ⟨-, -, -, closing, indent, outer, ws, -, -, -,
    -, -, -, hnew⟩
  · rw [hnone] at hc
    cases hc
  · obtain ⟨us, vs, hblock⟩ := exists_insertBlock (File.read source) source.toList closing.start
      outer (ws ++ regionBlock indent region (missing source typeName constants))
    obtain ⟨front, back, hline⟩ := exists_constantLine hc indent region
    refine ⟨us ++ ws ++ front, back ++ vs, ?_⟩
    rw [hnew, hblock, hline]
    simp only [List.append_assoc]

/-- A quote, a backslash, a line break, an accent that stands alone and a text that looks like an
escape. -/
def oddValue : String := "say \"\\n\"\n\u0301\\u\x7b41\x7d"

def oddConstants : Table String String := ⟨[("A", oddValue)], by decide⟩

theorem declareConstants_denotes_odd :
    Denotes (quote oddValue) oddValue ∧
    ∃ r, declareConstants "impl D \x7b\x7d" "D" "R" oddConstants = .ok r ∧
      ∃ front back, r.after.toList =
        front ++ s!"pub const A: &str = {quote oddValue};".toList ++ back := by
  obtain ⟨hvalues, hlines⟩ := declareConstants_denotes
  refine ⟨hvalues oddValue, ?_⟩
  have hok : (declareConstants "impl D \x7b\x7d" "D" "R" oddConstants).isOk = true := by
    decide +kernel
  have hmissing : ("A", oddValue) ∈ missing "impl D \x7b\x7d" "D" oddConstants := by
    decide +kernel
  cases h : declareConstants "impl D \x7b\x7d" "D" "R" oddConstants with
  | error e =>
    rw [h] at hok
    cases hok
  | ok r => exact ⟨r, rfl, hlines _ _ _ _ r h ("A", oddValue) hmissing⟩

end Docsmith.Description
