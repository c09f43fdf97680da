import Docsmith.Text.Search

/-!
# The last occurrence of a separator

What follows the last occurrence of a separator is a word without its characters, wherever such a
word stands behind one.

* `afterLast_append`: a word behind a separator;
* `afterLast_of_occurs`, `afterLast_of_not_occurs`: what is found in any text.
-/

namespace Docsmith.Text

variable {sep cs word : List Char} {c : Char}

theorem beginsWith_iff : beginsWith sep cs = true ↔ sep <+: cs := by
  refine ⟨fun h => ?_, ?_⟩
  · obtain ⟨rest, hrest⟩ := Option.isSome_iff_exists.1 h
    exact ⟨rest, (eq_append_of_afterStart? hrest).symm⟩
  · rintro ⟨rest, rfl⟩
    rw [beginsWith, afterStart?_append]
    rfl

/-- Behind a separator that has begun there is no other one in a word without its characters. -/
theorem occurs_append {begun : List Char} (hlt : begun.length < sep.length)
    (h : ∀ c ∈ sep, c ∉ word) : occurs sep (begun ++ word) = false := by
  have hbegins {begun word : List Char} (hlt : begun.length < sep.length)
      (h : ∀ c ∈ sep, c ∉ word) : ¬sep <+: begun ++ word := by
    intro hsep
    have hbegun := List.prefix_of_prefix_length_le (List.prefix_append begun word) hsep
      (Nat.le_of_lt hlt)
    obtain ⟨rest, rfl⟩ := hbegun
    rw [List.prefix_append_right_inj] at hsep
    cases rest with
    | nil => simp at hlt
    | cons c rest =>
      exact h c (by simp) (hsep.subset (List.mem_cons_self ..))
  induction begun with
  | nil =>
    rw [List.nil_append]
    induction word with
    | nil =>
      rw [occurs, List.isEmpty_eq_false_iff]
      exact List.ne_nil_of_length_pos hlt
    | cons d word ih =>
      rw [occurs, Bool.or_eq_false_iff, ← Bool.not_eq_true, beginsWith_iff]
      exact ⟨hbegins hlt h, ih fun c hc hmem => h c hc (List.mem_cons_of_mem _ hmem)⟩
  | cons d begun ih =>
    rw [List.cons_append, occurs, Bool.or_eq_false_iff, ← Bool.not_eq_true, beginsWith_iff]
    exact ⟨hbegins hlt h, ih (Nat.lt_of_succ_lt hlt)⟩

theorem afterLast_of_not_occurs (h : occurs sep cs = false) : afterLast sep cs = cs := by
  cases cs with
  | nil => rfl
  | cons c cs =>
    rw [occurs, Bool.or_eq_false_iff] at h
    rw [afterLast, if_neg (by rw [h.2]; exact Bool.false_ne_true)]
    cases hstart : afterStart? sep (c :: cs) with
    | none => rfl
    | some rest =>
      rw [beginsWith, hstart] at h
      cases h.1

theorem afterLast_of_notMem (hne : sep ≠ []) (h : ∀ c ∈ sep, c ∉ word) :
    afterLast sep word = word := by
  have hlt : ([] : List Char).length < sep.length := List.length_pos_iff.2 hne
  exact afterLast_of_not_occurs (occurs_append hlt h)

theorem occurs_middle (hne : sep ≠ []) (front word : List Char) :
    occurs sep (front ++ (sep ++ word)) = true := by
  obtain ⟨d, begun, rfl⟩ := List.exists_cons_of_ne_nil hne
  induction front with
  | nil =>
    rw [List.nil_append, List.cons_append, occurs, Bool.or_eq_true, beginsWith_iff]
    exact .inl (List.prefix_append (d :: begun) word)
  | cons c front ih => rw [List.cons_append, occurs, ih, Bool.or_true]

/-- A word without the characters of the separator is found behind it. -/
theorem afterLast_append (hne : sep ≠ []) (h : ∀ c ∈ sep, c ∉ word) (front : List Char) :
    afterLast sep (front ++ (sep ++ word)) = word := by
  obtain ⟨d, begun, rfl⟩ := List.exists_cons_of_ne_nil hne
  induction front with
  | nil =>
    have hnone := occurs_append (Nat.lt_succ_self begun.length : begun.length < (d :: begun).length) h
    rw [List.nil_append, List.cons_append, afterLast, hnone, if_neg Bool.false_ne_true,
      ← List.cons_append, afterStart?_append]
    rfl
  | cons c front ih =>
    rw [List.cons_append, afterLast, if_pos (occurs_middle hne front word), ih]

theorem afterLast_of_occurs (h : occurs sep cs = true) : sep ++ afterLast sep cs <:+ cs := by
  induction cs with
  | nil =>
    rw [occurs, List.isEmpty_iff] at h
    rw [h]
    exact List.suffix_refl _
  | cons c cs ih =>
    rw [afterLast]
    split
    · rename_i hmore
      exact (ih hmore).trans (List.suffix_cons c cs)
    · rename_i hmore
      rw [occurs, Bool.or_eq_true, or_iff_left hmore] at h
      obtain ⟨rest, hrest⟩ := Option.isSome_iff_exists.1 h
      rw [hrest, Option.getD_some]
      exact ⟨[], (eq_append_of_afterStart? hrest).symm⟩

theorem notMem_afterLast (cs : List Char) : c ∉ afterLast [c] cs := by
  induction cs with
  | nil => exact List.not_mem_nil
  | cons d cs ih =>
    rw [afterLast]
    split
    · exact ih
    · rename_i hmore
      have hnone : c ∉ cs := fun h => by
        obtain ⟨front, back, rfl⟩ := List.append_of_mem h
        exact hmore (occurs_middle (List.cons_ne_nil c []) front back)
      rw [afterStart?]
      split
      · exact hnone
      · rename_i hne
        exact List.not_mem_cons_of_ne_of_not_mem hne hnone

theorem afterLast_suffix (sep cs : List Char) : afterLast sep cs <:+ cs := by
  cases h : occurs sep cs with
  | true => exact (List.suffix_append sep _).trans (afterLast_of_occurs h)
  | false => exact ⟨[], afterLast_of_not_occurs h⟩

end Docsmith.Text
