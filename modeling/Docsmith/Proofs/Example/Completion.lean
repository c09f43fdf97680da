import Docsmith.Proofs.Example.Literal
import Docsmith.Proofs.Source.Site

/-!
# Completing literals again
-/

namespace Docsmith.Example

open Docsmith.Source

/-- A literal whose last value may take up what follows it. -/
def openEnded : String := "fn f() \x7b M \x7b a: return // c\n \x7d \x7d"

/-- The comma behind the value has become part of the comment, and the next field part of the value. -/
def swallowed : String :=
  "fn f() \x7b M \x7b a: return // c,\n     b: Default::default(),\n \x7d \x7d"

theorem eq_singleton_of_length {l : List Located} (h : l.length = 1) : l = [l.head!] := by
  obtain ⟨a, rfl⟩ := List.length_eq_one_iff.1 h
  rfl

/-- The field is missing still, so it is written once more. -/
theorem populate_repeats :
    let fields : List Field := [⟨"b", ⟨.other, false⟩⟩]
    let s := Synthesizer.ofSeed 1 "Descriptions" fun _ => 0
    File.WellFormed openEnded ∧ (populate openEnded "M" fields s).1.after = swallowed ∧
      (literalLists (File.read swallowed) "M").map presentFields = [["a", extensionData]] ∧
      (populate swallowed "M" fields s).1.after ≠ swallowed := by
  intro fields s
  have hfirst : Edit.applyAll openEnded.toList (completions (File.read openEnded) openEnded.toList
      "M" fields (literalLists (File.read openEnded) "M") s).1 = swallowed.toList := by
    rw [eq_singleton_of_length (l := literalLists (File.read openEnded) "M") (by decide +kernel)]
    unfold completions File.appendItems
    simp only [File.insertBlock_eq]
    decide +kernel
  have hsecond : Edit.applyAll swallowed.toList (completions (File.read swallowed)
      swallowed.toList "M" fields (literalLists (File.read swallowed) "M") s).1 ≠
        swallowed.toList := by
    rw [eq_singleton_of_length (l := literalLists (File.read swallowed) "M") (by decide +kernel)]
    unfold completions File.appendItems
    simp only [File.insertBlock_eq]
    decide +kernel
  refine ⟨by decide +kernel, String.toList_injective (String.toList_ofList.trans hfirst),
    by decide +kernel, fun h => hsecond ?_⟩
  exact String.toList_ofList.symm.trans (congrArg String.toList h)

end Docsmith.Example
