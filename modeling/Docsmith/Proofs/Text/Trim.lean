import Docsmith.Text.Blank
import Mathlib.Data.List.TakeWhile

/-!
# Trimmed texts

A text is trimmed if no character of a class stands at its ends. White space at the ends makes no
difference to what a text is without its white space.

* `isTrim_trimWhile`, `IsTrim.trimWhile_eq`: trimming trims, and leaves what is trimmed;
* `unspaced_trim`: a text without white space;
* `head?_unspaced`, `getLast?_unspaced`: how it starts and ends.
-/

namespace Docsmith.Text

variable {p : Char → Bool} {cs : List Char}

/-! ## Trimmed texts -/

/-- The text does not start or end with a character of the class. -/
structure IsTrim (p : Char → Bool) (cs : List Char) : Prop where
  head : ∀ c ∈ cs.head?, p c = false
  last : ∀ c ∈ cs.getLast?, p c = false

instance (p : Char → Bool) (cs : List Char) : Decidable (IsTrim p cs) :=
  have hall (o : Option Char) : o.all (!p ·) = true ↔ ∀ c ∈ o, p c = false := by
    simp [Option.all_eq_true]
  decidable_of_iff (cs.head?.all (!p ·) = true ∧ cs.getLast?.all (!p ·) = true)
    ⟨fun h => ⟨(hall _).1 h.1, (hall _).1 h.2⟩, fun h => ⟨(hall _).2 h.head, (hall _).2 h.last⟩⟩

theorem dropWhile_eq_self (h : ∀ c ∈ cs.head?, p c = false) : cs.dropWhile p = cs := by
  cases cs with
  | nil => rfl
  | cons c cs => exact List.dropWhile_cons_of_neg (by simp [h c rfl])

theorem head?_dropWhile (p : Char → Bool) (cs : List Char) :
    ∀ c ∈ (cs.dropWhile p).head?, p c = false := by
  intro c hc
  obtain ⟨rest, hrest⟩ := List.head?_eq_some_iff.1 hc
  have hhead := List.head_dropWhile_not p (l := cs) (by rw [hrest]; exact List.cons_ne_nil _ _)
  simpa [hrest] using hhead

theorem IsTrim.trimWhile_eq (h : IsTrim p cs) : trimWhile p cs = cs := by
  have hlast : ∀ c ∈ cs.reverse.head?, p c = false := by
    rw [List.head?_reverse]
    exact h.last
  rw [trimWhile, dropEndWhile, dropWhile_eq_self h.head, dropWhile_eq_self hlast,
    List.reverse_reverse]

theorem isTrim_trimWhile (p : Char → Bool) (cs : List Char) : IsTrim p (trimWhile p cs) := by
  have hback := head?_dropWhile p (cs.dropWhile p).reverse
  refine ⟨fun c hc => ?_, ?_⟩
  · have hprefix : trimWhile p cs <+: cs.dropWhile p := by
      rw [trimWhile, dropEndWhile, ← List.reverse_suffix, List.reverse_reverse]
      exact List.dropWhile_suffix p
    obtain ⟨rest, hrest⟩ := List.head?_eq_some_iff.1 hc
    obtain ⟨behind, hbehind⟩ := hprefix
    refine head?_dropWhile p cs c ?_
    rw [← hbehind, hrest]
    rfl
  · rw [trimWhile, dropEndWhile, List.getLast?_reverse]
    exact hback

/-! ## Without white space -/

/-- A text without its white space. -/
def unspaced (cs : List Char) : List Char := cs.filter (!isWhite ·)

theorem unspaced_append (cs ds : List Char) : unspaced (cs ++ ds) = unspaced cs ++ unspaced ds :=
  List.filter_append ..

theorem unspaced_dropWhile (cs : List Char) : unspaced (cs.dropWhile isWhite) = unspaced cs := by
  have hwhite : unspaced (cs.takeWhile isWhite) = [] := by
    rw [unspaced, List.filter_eq_nil_iff]
    intro c hc
    simpa using List.mem_takeWhile_imp hc
  have hcut := congrArg unspaced (List.takeWhile_append_dropWhile (p := isWhite) (l := cs))
  rwa [unspaced_append, hwhite, List.nil_append] at hcut

theorem unspaced_reverse (cs : List Char) : unspaced cs.reverse = (unspaced cs).reverse :=
  List.filter_reverse ..

theorem unspaced_trim (cs : List Char) : unspaced (trimWhile isWhite cs) = unspaced cs := by
  rw [trimWhile, dropEndWhile, unspaced_reverse, unspaced_dropWhile, unspaced_reverse,
    List.reverse_reverse, unspaced_dropWhile]

theorem head?_unspaced (h : ∀ c ∈ cs.head?, isWhite c = false) :
    (unspaced cs).head? = cs.head? := by
  cases cs with
  | nil => rfl
  | cons c cs =>
    rw [unspaced, List.filter_cons_of_pos (by simp [h c rfl])]
    rfl

theorem getLast?_unspaced (h : ∀ c ∈ cs.getLast?, isWhite c = false) :
    (unspaced cs).getLast? = cs.getLast? := by
  rw [← List.head?_reverse, ← unspaced_reverse, head?_unspaced, List.head?_reverse]
  rwa [List.head?_reverse]

end Docsmith.Text
