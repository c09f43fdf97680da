import Docsmith.Discovery.Leaves

/-!
# Single visits

A walk visits one reference after another. What a visit does follows from the reference and the
types expanded so far, and not from the leaves found.

* `visit`: what one visit leads to, finds and expands;
* `walk_cons`: a walk is made of visits;
* `walk_induction`: what holds at the end of a walk and is kept by each visit holds of all walks.
-/

namespace Docsmith.Discovery

open Docsmith.Metadata

/-- What visiting a reference comes to. -/
structure Visit where
  /-- The references it leads to, visited next. -/
  next : List TypeReference
  leaf : Option DescribedType
  /-- The types that have been expanded when it is over. -/
  expanded : List String

/-- A visit that leads nowhere and finds nothing. -/
def Visit.idle (expanded : List String) : Visit := ⟨[], none, expanded⟩

/-- Visits a reference. -/
def visit (o : Ownership) (s : Session) (expanded : List String) (t : TypeReference) : Visit :=
  if o.owns s t then
    match t with
    | .generic _ args => ⟨args, none, expanded⟩
    | .array element => ⟨[], s.resolve? element, expanded⟩
    | .named name =>
      match s.find? name with
      | none => .idle expanded
      | some d =>
        if d.kind = .structured ∧ expanded.contains d.name = false then
          ⟨successors d, some d, d.name :: expanded⟩
        else .idle expanded
  else .idle expanded

variable {o : Ownership} {s : Session}

theorem visit_of_not_owns {expanded : List String} {t : TypeReference} (h : ¬o.owns s t = true) :
    visit o s expanded t = .idle expanded := by
  rw [visit.eq_def, if_neg h]

theorem walk_nil (leaves : List DescribedType) (expanded : List String) :
    walk o s [] leaves expanded = leaves := by
  rw [walk]

theorem walk_cons (t : TypeReference) (rest : List TypeReference) (leaves : List DescribedType)
    (expanded : List String) :
    walk o s (t :: rest) leaves expanded =
      walk o s ((visit o s expanded t).next ++ rest)
        ((visit o s expanded t).leaf.toList.foldl addLeaf leaves)
        (visit o s expanded t).expanded := by
  by_cases ho : o.owns s t = true
  · cases t with
    | generic name args =>
      rw [walk, visit, if_pos ho, if_pos ho]
      rfl
    | array element =>
      rw [walk, visit, if_pos ho, if_pos ho]
      cases s.resolve? element <;> rfl
    | named name =>
      rw [walk, visit, if_pos ho, if_pos ho]
      split
      · next h =>
        rw [h]
        rfl
      · next d h =>
        rw [h]
        dsimp only
        by_cases hk : d.kind = .structured
        · by_cases he : expanded.contains d.name = true
          · rw [if_pos hk, dif_pos he, if_neg fun h => (Bool.not_eq_false _).mpr he h.2]
            rfl
          · rw [if_pos hk, dif_neg he, if_pos ⟨hk, (Bool.not_eq_true _).mp he⟩]
            rfl
        · rw [if_neg hk, if_neg fun h => hk h.1]
          rfl
  · cases t <;> rw [walk, visit, if_neg ho, if_neg ho] <;> rfl

/-- Walks end, so they can be followed visit by visit. -/
theorem walk_induction (o : Ownership) (s : Session)
    {motive : List TypeReference → List String → Prop}
    (nil : ∀ expanded, motive [] expanded)
    (cons : ∀ t rest expanded,
      motive ((visit o s expanded t).next ++ rest) (visit o s expanded t).expanded →
        motive (t :: rest) expanded)
    (todo : List TypeReference) (expanded : List String) : motive todo expanded := by
  fun_induction walk o s todo [] expanded with
  | case1 => exact nil _
  | _ => exact cons _ _ _ (by simp_all [visit, Visit.idle])

end Docsmith.Discovery
