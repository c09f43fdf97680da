import Docsmith.Naming
import Docsmith.Proofs.Source.Identifiers
import Docsmith.Proofs.Text.LetterCase
import Docsmith.Proofs.Text.Pieces

/-!
# Names of constants

A constant is named by a text in front of the compact name of a member. Whether that is an identifier
is told by the text: a word can be continued, and so can a word behind the mark of raw identifiers.

* `isIdentContinue_of_mem_compactName`: the compact name of an identifier continues one;
* `isIdentifier_constantOf_iff`: the texts that make an identifier with it;
* `leads_of_isIdentifier`: identifiers are among them.
-/

namespace Docsmith.Naming

open Docsmith.Text Docsmith.Source Docsmith.Source.Lexer Docsmith.Source.Token

variable {owner more cs us : List Char} {name : String}

/-! ## Keywords -/

def isAsciiLower (c : Char) : Bool := 97 ≤ c.toNat && c.toNat ≤ 122

/-- Behind its first letter a keyword is in lower case. -/
theorem keyword_tail {s : String} (h : (TokenKind.ofKeyword? s).isSome) :
    s.toList.tail.all isAsciiLower = true := by
  unfold TokenKind.ofKeyword? at h
  split at h <;> first | rfl | cases h

/-- What goes on with another letter is no keyword. -/
theorem isPlainName_append (howner : owner ≠ []) (hword : isWord (owner ++ more) = true)
    (hmore : ∃ d ds, more = d :: ds ∧ isAsciiLower d = false) :
    isPlainName (owner ++ more) = true := by
  obtain ⟨d, ds, rfl, hd⟩ := hmore
  obtain ⟨c, cs, rfl⟩ := List.exists_cons_of_ne_nil howner
  have hbar : String.ofList (c :: cs ++ d :: ds) ≠ "_" := fun h => by
    have h := congrArg (fun s : String => s.toList.length) h
    simp at h
  have hkeyword : TokenKind.ofKeyword? (String.ofList (c :: cs ++ d :: ds)) = none := by
    rw [Option.eq_none_iff_forall_ne_some]
    intro kind hk
    have htail := keyword_tail (Option.isSome_iff_exists.2 ⟨kind, hk⟩)
    rw [String.toList_ofList, List.cons_append, List.tail_cons, List.all_append, List.all_cons, hd]
      at htail
    simp at htail
  rw [isPlainName, hword, hkeyword, decide_eq_true hbar]
  rfl

/-! ## Compact names -/

/-- All of an identifier behind its mark continues one. -/
theorem isIdentContinue_of_mem_withoutRawMark (h : IsIdentifier name) :
    ∀ c ∈ withoutRawMark name.toList, isIdentContinue c = true := by
  have hword {c : Char} {cs : List Char} (hc : isIdentStart c = true)
      (hcs : ∀ d ∈ cs, isIdentContinue d = true) : ∀ d ∈ c :: cs, isIdentContinue d = true :=
    List.forall_mem_cons.2 ⟨isIdentContinue_of_isIdentStart hc, hcs⟩
  rw [isIdentifier_iff] at h
  rcases Bool.or_eq_true _ _ ▸ h with h | h
  · obtain ⟨d, us, hname, hd, hus⟩ := exists_of_isRawName h
    rw [hname]
    exact hword hd hus
  · generalize name.toList = cs at h ⊢
    cases cs with
    | nil => cases h
    | cons c cs =>
      obtain ⟨hc, hcs⟩ := isWord_cons.1 (isWord_of_isPlainName h)
      have hraw : withoutRawMark (c :: cs) = c :: cs := by
        rw [withoutRawMark]
        cases hrest : afterStart? ['r', '#'] (c :: cs) with
        | none => rfl
        | some rest =>
          have heq := eq_append_of_afterStart? hrest
          obtain ⟨-, rfl⟩ := List.cons.inj heq
          exact absurd rfl (ne_of_isIdentContinue (hcs '#' (List.mem_cons_self ..)) (by decide))
      rw [hraw]
      exact hword hc hcs

/-- The compact name of an identifier continues one. -/
theorem isIdentContinue_of_mem_compactName (h : IsIdentifier name) :
    ∀ c ∈ (compactName name).toList, isIdentContinue c = true := by
  have hall := isIdentContinue_of_mem_withoutRawMark h
  rw [compactName, String.toList_ofList]
  intro c hc
  obtain ⟨q, hq, hc⟩ := List.mem_flatMap.1 hc
  have hmem : ∀ d ∈ q, isIdentContinue d = true := fun d hd =>
    hall d (of_mem_piecesBy (List.mem_filter.1 hq).1 hd).1
  cases q with
  | nil => cases hc
  | cons d ds =>
    rw [capitalize, List.mem_append] at hc
    rcases hc with hc | hc
    · exact isIdentContinue_of_mem_upperChar (hmem d (List.mem_cons_self ..)) hc
    · exact hmem c (List.mem_cons_of_mem _ hc)

/-- A compact name is empty or starts with no lower case letter of ASCII. -/
theorem compactName_cases (name : String) : (compactName name).toList = [] ∨
    ∃ d ds, (compactName name).toList = d :: ds ∧ isAsciiLower d = false := by
  rw [compactName, String.toList_ofList]
  have hfilled : ∀ q ∈ (piecesBy (· = '_') (withoutRawMark name.toList)).filter (!·.isEmpty),
      q ≠ [] := fun q hq => by simpa using (List.mem_filter.1 hq).2
  generalize (piecesBy (· = '_') (withoutRawMark name.toList)).filter (!·.isEmpty) = qs at hfilled ⊢
  cases qs with
  | nil => exact .inl rfl
  | cons q qs =>
    obtain ⟨c, cs, rfl⟩ := List.exists_cons_of_ne_nil (hfilled q (List.mem_cons_self ..))
    obtain ⟨d, ds, hupper, hd⟩ := exists_head_upperChar c
    refine .inr ⟨d, ds ++ cs ++ qs.flatMap capitalize, ?_, ?_⟩
    · rw [List.flatMap_cons, capitalize, hupper]
      simp
    · rw [isAsciiLower, Bool.and_eq_false_iff, decide_eq_false_iff_not, decide_eq_false_iff_not]
      omega

/-! ## Constants -/

/-- The text makes an identifier with what follows it: it is a word, and no keyword if nothing
follows; or its mark is that of raw identifiers, and a word stands behind it; or there is none, and what
follows is an identifier. -/
def leads (owner more : List Char) : Bool :=
  match owner with
  | [] => isPlainName more
  | 'r' :: '#' :: us => isWord (us ++ more)
  | owner => isWord owner && (!more.isEmpty || isPlainName owner)

theorem isWord_append (howner : owner ≠ []) (hmore : ∀ c ∈ more, isIdentContinue c = true) :
    isWord (owner ++ more) = isWord owner := by
  obtain ⟨c, cs, rfl⟩ := List.exists_cons_of_ne_nil howner
  rw [List.cons_append, isWord, isWord, List.all_append, List.all_eq_true.2 hmore, Bool.and_true]

/-- Whether a text in front of a compact name is an identifier. -/
theorem spellsIdentifier_append (hmore : ∀ c ∈ more, isIdentContinue c = true)
    (hhead : more = [] ∨ ∃ d ds, more = d :: ds ∧ isAsciiLower d = false) :
    spellsIdentifier (owner ++ more) = leads owner more := by
  have hhash {cs : List Char} (h : '#' ∈ cs) : isWord ('r' :: cs) = false := by
    rw [isWord, Bool.and_eq_false_iff, List.all_eq_false]
    refine .inr ⟨'#', h, fun hc => ?_⟩
    exact ne_of_isIdentContinue hc (by decide) rfl
  have hplain (h : isWord (owner ++ more) = false) : isPlainName (owner ++ more) = false := by
    rw [isPlainName, h]
    rfl
  unfold leads
  split
  · -- no compact name starts with the letter of the mark
    have hraw : isRawName more = false := by
      rcases hhead with rfl | ⟨d, ds, rfl, hd⟩
      · rfl
      · unfold isRawName
        split
        · rename_i heq
          rw [(List.cons.inj heq).1] at hd
          cases hd
        · rfl
    rw [List.nil_append, spellsIdentifier, hraw, Bool.false_or]
  · rename_i us
    rw [spellsIdentifier, hplain (hhash (by simp)), Bool.or_false]
    rfl
  · rename_i hnil hmark
    have hraw : isRawName (owner ++ more) = false := by
      unfold isRawName
      split
      · rename_i us heq
        rcases owner with _ | ⟨c, _ | ⟨c', owner⟩⟩
        · exact absurd rfl hnil
        · rw [List.cons_append, List.nil_append, List.cons.injEq] at heq
          exact absurd rfl (ne_of_isIdentContinue (hmore '#' (by simp [heq.2])) (by decide))
        · rw [List.cons_append, List.cons_append, List.cons.injEq, List.cons.injEq] at heq
          obtain ⟨rfl, rfl, -⟩ := heq
          exact absurd rfl (hmark owner)
      · rfl
    rw [spellsIdentifier, hraw, Bool.false_or]
    cases hword : isWord owner with
    | false => exact hplain ((isWord_append hnil hmore).trans hword)
    | true =>
      rcases hhead with rfl | ⟨d, ds, rfl, hd⟩
      · rw [List.append_nil]
        rfl
      · exact isPlainName_append hnil ((isWord_append hnil hmore).trans hword) ⟨d, ds, rfl, hd⟩

/-- The texts that make an identifier with the compact name of a member. -/
theorem isIdentifier_constantOf_iff {owner member : String} (h : IsIdentifier member) :
    IsIdentifier (constantOf owner member) ↔
      leads owner.toList (compactName member).toList = true := by
  rw [isIdentifier_iff, constantOf, String.toList_append, spellsIdentifier_append
    (isIdentContinue_of_mem_compactName h) (compactName_cases member)]

/-- An identifier makes one with every compact name. -/
theorem leads_of_isIdentifier {owner : String} (h : IsIdentifier owner)
    (hmore : ∀ c ∈ more, isIdentContinue c = true) : leads owner.toList more = true := by
  rw [isIdentifier_iff] at h
  rcases Bool.or_eq_true _ _ ▸ h with h | h
  · obtain ⟨d, us, hname, hd, hus⟩ := exists_of_isRawName h
    rw [hname]
    exact isWord_cons.2 ⟨hd, List.forall_mem_append.2 ⟨hus, hmore⟩⟩
  · have hword := isWord_of_isPlainName h
    generalize owner.toList = cs at h hword ⊢
    unfold leads
    split
    · cases hword
    · have hhash := (isWord_cons.1 hword).2 '#' (List.mem_cons_self ..)
      exact absurd rfl (ne_of_isIdentContinue hhash (by decide))
    · rw [hword, h, Bool.or_true]
      rfl

end Docsmith.Naming
