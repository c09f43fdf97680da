import Docsmith.Proofs.Text.LetterCase
import Docsmith.Proofs.Workspace.Path
import Docsmith.Text.SnakeCase

/-!
# Characters of names in snake case

A name in snake case is made of letters, numbers and underscores, so it can be put behind a folder
without becoming a path of its own.
-/

namespace Docsmith.Text

theorem lowerChar_eq (c : Char) : lowerChar c =
    if c.toNat = 304 then [Char.ofNat 105, Char.ofNat 775]
    else [if shiftOf lowerRuns c.toNat = 0 then c
      else Char.ofNat (c.toNat + shiftOf lowerRuns c.toNat).toNat] := rfl

/-- Lower case letters come behind the separator of paths. -/
theorem lowerRuns_gt : ∀ r ∈ lowerRuns, 47 < r.first + r.shift := by
  have h : lowerRuns.all (fun r => decide (47 < r.first + r.shift)) = true := by decide +kernel
  exact fun r hr => of_decide_eq_true (List.all_eq_true.1 h r hr)

theorem ne_slash_of_mem_lowerChar {c d : Char} (hc : c ≠ '/') (hd : d ∈ lowerChar c) :
    d ≠ '/' := by
  rw [lowerChar_eq] at hd
  split at hd
  · rcases List.mem_cons.1 hd with rfl | hd
    · decide
    · rw [List.mem_singleton.1 hd]
      decide
  · obtain rfl := List.mem_singleton.1 hd
    split
    · exact hc
    · rename_i hs
      rcases shiftOf_eq lowerRuns c.toNat with h | ⟨r, hr, hf, -, -, h⟩
      · exact absurd h hs
      · have hgt := lowerRuns_gt r hr
        intro he
        have hn := congrArg Char.toNat he
        rw [h] at hn
        have hslash : ('/' : Char).toNat = 47 := rfl
        rcases toNat_ofNat (c.toNat + r.shift).toNat with ho | ho
        · omega
        · omega

theorem ne_slash_of_mem_lowerWord {w : List Char} (hw : ∀ c ∈ w, c ≠ '/') :
    ∀ d ∈ SnakeCase.lowerWord w, d ≠ '/' := by
  fun_induction SnakeCase.lowerWord w with
  | case1 => simp
  | case2 => simp
  | case3 c _ => exact fun d => ne_slash_of_mem_lowerChar (hw c (List.mem_singleton_self c))
  | case4 c cs _ ih =>
    obtain ⟨hc, hcs⟩ := List.forall_mem_cons.1 hw
    rw [List.forall_mem_append]
    exact ⟨fun d => ne_slash_of_mem_lowerChar hc, ih hcs⟩

/-- The words of a run are made of its characters. -/
theorem forall_mem_words {P : Char → Prop} (mode : SnakeCase.Mode) (word cs : List Char)
    (hword : ∀ c ∈ word, P c) (hcs : ∀ c ∈ cs, P c) :
    ∀ w ∈ SnakeCase.words mode word cs, ∀ c ∈ w, P c := by
  have hrev {w : List Char} (h : ∀ c ∈ w, P c) : ∀ c ∈ w.reverse, P c :=
    fun c hc => h c (List.mem_reverse.1 hc)
  fun_induction SnakeCase.words mode word cs with
  | case1 => simp
  | case2 mode word => simpa using hword
  | case3 mode word c =>
    rw [List.forall_mem_singleton]
    exact hrev (List.forall_mem_cons.2 ⟨hcs c (List.mem_singleton_self c), hword⟩)
  | case4 mode word c next rest _ _ ih =>
    obtain ⟨hc, hrest⟩ := List.forall_mem_cons.1 hcs
    rw [List.forall_mem_cons]
    exact ⟨hrev (List.forall_mem_cons.2 ⟨hc, hword⟩), ih (by simp) hrest⟩
  | case5 mode word c next rest _ _ _ ih =>
    obtain ⟨hc, hrest⟩ := List.forall_mem_cons.1 hcs
    rw [List.forall_mem_cons]
    exact ⟨hrev hword, ih (by simpa using hc) hrest⟩
  | case6 mode word c next rest _ _ _ ih =>
    obtain ⟨hc, hrest⟩ := List.forall_mem_cons.1 hcs
    exact ih (List.forall_mem_cons.2 ⟨hc, hword⟩) hrest

theorem mem_of_mem_intersperse {α : Type} {x sep : α} {xs : List α}
    (h : x ∈ xs.intersperse sep) : x ∈ xs ∨ x = sep := by
  induction xs with
  | nil => simp at h
  | cons y ys ih =>
    cases ys with
    | nil => exact .inl h
    | cons z zs =>
      rw [List.intersperse_cons_cons] at h
      rcases List.mem_cons.1 h with rfl | h
      · exact .inl (List.mem_cons_self ..)
      · rcases List.mem_cons.1 h with rfl | h
        · exact .inr rfl
        · exact (ih h).imp_left (List.mem_cons_of_mem _)

theorem ne_slash_of_mem_snakeCase (s : String) : ∀ c ∈ (snakeCase s).toList, c ≠ '/' := by
  rw [snakeCase, String.toList_ofList]
  intro c hc
  obtain ⟨w, hw, hc⟩ := List.mem_flatten.1 hc
  rcases mem_of_mem_intersperse hw with hw | rfl
  · obtain ⟨v, hv, rfl⟩ := List.mem_map.1 hw
    obtain ⟨run, hrun, hv⟩ := List.mem_flatMap.1 hv
    refine ne_slash_of_mem_lowerWord (forall_mem_words _ [] run (by simp) ?_ v hv) c hc
    intro d hd
    have ha := not_of_mem_piecesBy hrun d hd
    rintro rfl
    exact absurd ha (by decide)
  · rw [List.mem_singleton.1 hc]
    decide

end Docsmith.Text
