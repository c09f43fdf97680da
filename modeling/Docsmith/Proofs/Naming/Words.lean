import Docsmith.Proofs.Naming

/-!
# Compact names, word by word

A compact name is that of the words between the underscores, one behind the other. It is one word in
upper case itself, so a second time there is nothing to do.

* `words_append`: the words of a text split at an underscore;
* `upperChar_of_compactName`: how a compact name starts;
* `compactName_laws`: names joined by an underscore, underscores, and compact names of compact names.
-/

namespace Docsmith.Naming

open Docsmith.Text

variable {cs : List Char} {name : String}

/-! ## The mark of raw identifiers -/

theorem withoutRawMark_of_unmarked (h : ¬['r', '#'] <+: cs) : withoutRawMark cs = cs := by
  rw [withoutRawMark]
  cases hrest : afterStart? ['r', '#'] cs with
  | none => rfl
  | some rest => exact absurd ⟨rest, (eq_append_of_afterStart? hrest).symm⟩ h

theorem withoutRawMark_marked (cs : List Char) : withoutRawMark (['r', '#'] ++ cs) = cs := by
  rw [withoutRawMark, afterStart?_append]
  rfl

/-- An underscore is no part of the mark, so the mark is taken from what stands in front of it. -/
theorem withoutRawMark_append (cs ds : List Char) :
    withoutRawMark (cs ++ '_' :: ds) = withoutRawMark cs ++ '_' :: ds := by
  by_cases h : ['r', '#'] <+: cs
  · obtain ⟨rest, rfl⟩ := h
    rw [List.append_assoc, withoutRawMark_marked, withoutRawMark_marked]
  · rw [withoutRawMark_of_unmarked h, withoutRawMark_of_unmarked]
    -- a mark that is too long for the first text would hold the underscore
    intro hmark
    rcases cs with _ | ⟨c, _ | ⟨d, cs⟩⟩
    · simp at hmark
    · simp at hmark
    · exact h (by simpa using hmark)

/-! ## Words -/

/-- What stands between the underscores of a text, where anything does. -/
def words (cs : List Char) : List (List Char) :=
  (piecesBy (· = '_') cs).filter (!·.isEmpty)

theorem words_append (cs ds : List Char) : words (cs ++ '_' :: ds) = words cs ++ words ds := by
  rw [words, piecesBy_append (by decide), List.filter_append]
  rfl

theorem words_singleton (hne : cs ≠ []) (h : '_' ∉ cs) : words cs = [cs] := by
  have hpieces : piecesBy (· = '_') cs = [cs] :=
    piecesBy_eq_singleton fun c hc => decide_eq_false fun heq => h (heq ▸ hc)
  rw [words, hpieces, List.filter_cons_of_pos (by simpa using hne), List.filter_nil]

theorem ne_nil_of_mem_words {w : List Char} (h : w ∈ words cs) : w ≠ [] := by
  simpa using (List.mem_filter.1 h).2

theorem underscore_notMem_words {w : List Char} (h : w ∈ words cs) : '_' ∉ w := fun hc => by
  simpa using (of_mem_piecesBy (List.mem_filter.1 h).1 hc).2

theorem toList_compactName (name : String) :
    (compactName name).toList = (words (withoutRawMark name.toList)).flatMap capitalize :=
  String.toList_ofList

theorem underscore_notMem_capitalize (h : '_' ∉ cs) : '_' ∉ capitalize cs := by
  cases cs with
  | nil => exact h
  | cons c cs =>
    rw [List.mem_cons, not_or] at h
    rw [capitalize, List.mem_append, not_or]
    exact ⟨underscore_notMem_upperChar (Ne.symm h.1), h.2⟩

theorem underscore_notMem_compactName (name : String) : '_' ∉ (compactName name).toList := by
  rw [toList_compactName, List.mem_flatMap]
  rintro ⟨w, hw, hc⟩
  exact underscore_notMem_capitalize (underscore_notMem_words hw) hc

/-! ## Compact names of compact names -/

/-- A compact name that is not empty starts with a character that is its own upper case. -/
theorem upperChar_of_compactName {d : Char} {ds : List Char}
    (h : (compactName name).toList = d :: ds) : upperChar d = [d] := by
  rw [toList_compactName] at h
  cases hwords : words (withoutRawMark name.toList) with
  | nil =>
    rw [hwords] at h
    cases h
  | cons w ws =>
    have hmem : w ∈ words (withoutRawMark name.toList) := by
      rw [hwords]
      exact List.mem_cons_self ..
    obtain ⟨c, cs, rfl⟩ := List.exists_cons_of_ne_nil (ne_nil_of_mem_words hmem)
    obtain ⟨u, us, hupper, -⟩ := exists_head_upperChar c
    rw [hwords, List.flatMap_cons, capitalize, hupper] at h
    obtain ⟨rfl, -⟩ := List.cons.inj h
    exact upperChar_head hupper

theorem unmarked_compactName (name : String) : ¬['r', '#'] <+: (compactName name).toList := by
  rintro ⟨rest, hrest⟩
  rcases compactName_cases name with h | ⟨d, ds, h, hd⟩
  · rw [h] at hrest
    cases hrest
  · rw [h] at hrest
    obtain ⟨rfl, -⟩ := List.cons.inj hrest
    cases hd

/-- The compact name of a single word is the word, capitalized. -/
theorem toList_compactName_word (hbar : '_' ∉ name.toList) (hmark : ¬['r', '#'] <+: name.toList) :
    (compactName name).toList = capitalize name.toList := by
  rw [toList_compactName, withoutRawMark_of_unmarked hmark]
  by_cases hne : name.toList = []
  · rw [hne]
    rfl
  · rw [words_singleton hne hbar, List.flatMap_singleton]

theorem compactName_compactName (name : String) :
    compactName (compactName name) = compactName name := by
  have hword := toList_compactName_word (underscore_notMem_compactName name)
    (unmarked_compactName name)
  refine String.toList_injective (hword.trans ?_)
  cases hname : (compactName name).toList with
  | nil => rfl
  | cons d ds =>
    rw [capitalize, upperChar_of_compactName hname]
    rfl

/-- Names joined by an underscore have their compact names joined, if the second one has no mark of
raw identifiers; a single word is capitalized. No compact name holds an underscore, and each is its
own compact name. -/
theorem compactName_laws :
    (∀ a b : String, ¬['r', '#'] <+: b.toList →
      compactName (a ++ "_" ++ b) = compactName a ++ compactName b) ∧
    (∀ name : String, '_' ∉ name.toList → ¬['r', '#'] <+: name.toList →
      (compactName name).toList = capitalize name.toList) ∧
    (∀ name, '_' ∉ (compactName name).toList) ∧
    ∀ name, compactName (compactName name) = compactName name := by
  refine ⟨fun a b hb => String.toList_injective ?_, fun _ => toList_compactName_word,
    underscore_notMem_compactName, compactName_compactName⟩
  have hjoin : (a ++ "_" ++ b).toList = a.toList ++ '_' :: b.toList := by simp
  rw [toList_compactName, hjoin, withoutRawMark_append, words_append, List.flatMap_append,
    ← toList_compactName, ← withoutRawMark_of_unmarked hb, ← toList_compactName,
    String.toList_append]

/-- The sharp s has two letters in upper case. -/
theorem compactName_laws_sharp :
    ¬['r', '#'] <+: "ßize".toList ∧ '_' ∉ "ßize".toList ∧
    compactName ("r#order_" ++ "_" ++ "ßize") = "Order" ++ compactName "ßize" ∧
    (compactName "ßize").toList = "SSize".toList := by
  have hmark : ¬['r', '#'] <+: "ßize".toList := by decide
  have hbar : '_' ∉ "ßize".toList := by decide
  obtain ⟨hjoin, hword, -⟩ := compactName_laws
  have horder : compactName "r#order_" = "Order" := by decide +kernel
  have hsize : capitalize "ßize".toList = "SSize".toList := by decide +kernel
  exact ⟨hmark, hbar, horder ▸ hjoin "r#order_" "ßize" hmark, (hword "ßize" hbar hmark).trans hsize⟩

/-- The mark of raw identifiers is taken from the front only. -/
example : compactName "a_r#b" = "AR#b" ∧ compactName "a" ++ compactName "r#b" = "AB" := by
  decide +kernel

end Docsmith.Naming
