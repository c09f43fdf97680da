import Docsmith.Discovery.Ownership

/-!
# Leaf types

The models reachable from a reference. An owned structured type is a leaf and leads to its base and
properties; an array leads to its element, which is a leaf as it is; what is not owned leads
nowhere. `walk` visits references depth first and expands each type once, so it ends even where
types refer to each other in a circle.
-/

namespace Docsmith.Discovery

open Docsmith.Metadata

/-- Adds a type to the leaves, unless one of its name is there. -/
def addLeaf (leaves : List DescribedType) (d : DescribedType) : List DescribedType :=
  if leaves.any (·.name = d.name) then leaves else leaves ++ [d]

/-- The references a structured type leads to. -/
def successors (d : DescribedType) : List TypeReference :=
  d.base.toList ++ d.properties.map (·.type)

/-- How many types of a session have not been expanded. -/
def unexpanded (s : Session) (expanded : List String) : Nat :=
  s.types.countP fun d => !expanded.contains d.name

theorem unexpanded_cons_lt {s : Session} {expanded : List String} {d : DescribedType}
    (hd : d ∈ s.types) (hn : expanded.contains d.name = false) :
    unexpanded s (d.name :: expanded) < unexpanded s expanded := by
  unfold unexpanded
  generalize s.types = ts at hd
  induction ts with
  | nil => simp at hd
  | cons t ts ih =>
    have mono : (ts.countP fun e => !(d.name :: expanded).contains e.name) ≤
        ts.countP fun e => !expanded.contains e.name :=
      List.countP_mono_left fun e _ he => by
        simp only [List.contains_cons, Bool.not_or, Bool.and_eq_true] at he
        exact he.2
    rcases List.mem_cons.1 hd with rfl | hd
    · rw [List.countP_cons_of_neg (by simp), List.countP_cons_of_pos (by simpa using hn)]
      omega
    · have := ih hd
      simp only [List.countP_cons]
      have : (if !(d.name :: expanded).contains t.name then 1 else 0) ≤
          if !expanded.contains t.name then 1 else 0 := by
        by_cases ht : t.name = d.name <;> by_cases he : expanded.contains t.name <;> simp_all
      omega

/-- Visits references in order, with the leaves found and the types expanded so far. -/
def walk (o : Ownership) (s : Session) (todo : List TypeReference) (leaves : List DescribedType)
    (expanded : List String) : List DescribedType :=
  match todo with
  | [] => leaves
  | t :: rest =>
    if o.owns s t then
      match t with
      | .generic _ args => walk o s (args ++ rest) leaves expanded
      | .array element =>
        match s.resolve? element with
        | some d => walk o s rest (addLeaf leaves d) expanded
        | none => walk o s rest leaves expanded
      | .named name =>
        match _h : s.find? name with
        | none => walk o s rest leaves expanded
        | some d =>
          if d.kind = .structured then
            if _hn : expanded.contains d.name then walk o s rest leaves expanded
            else walk o s (successors d ++ rest) (addLeaf leaves d) (d.name :: expanded)
          else walk o s rest leaves expanded
    else walk o s rest leaves expanded
termination_by (unexpanded s expanded, TypeReference.sizeAll todo)
decreasing_by
  all_goals first
    | (apply Prod.Lex.left
       exact unexpanded_cons_lt (Session.mem_of_find? _h) (by simpa using _hn))
    | (apply Prod.Lex.right
       simp only [TypeReference.sizeAll, TypeReference.size, TypeReference.sizeAll_append]
       try have := TypeReference.size_pos t
       omega)

/-- Adds the leaf types of a reference to those found from others. -/
def addLeaves (o : Ownership) (s : Session) (root : TypeReference) (leaves : List DescribedType) :
    List DescribedType :=
  walk o s [root] leaves []

def reachedTypes (o : Ownership) (s : Session) (root : TypeReference) : List DescribedType :=
  addLeaves o s root []

end Docsmith.Discovery
