import Docsmith.Proofs.Source.Nodes

/-!
# Where nodes stand

Of two things directly inside one node, the first ends before the second starts. The nodes of a tree
are found each before those inside it, so a node that is found later stands behind or within.

* `pairwise_children`: what stands directly inside a node;
* `pairwise_nodes`: the nodes of a file.
-/

namespace Docsmith.Source

namespace Located

/-- The first ends where the second starts, or before. -/
def Before (l m : Located) : Prop := l.stop ≤ m.start

/-- The first is no part of the text outside the second. -/
def Within (l m : Located) : Prop := m.start ≤ l.start ∧ l.stop ≤ m.stop

theorem Within.trans {k l m : Located} (h : k.Within l) (h' : l.Within m) : k.Within m :=
  ⟨h'.1.trans h.1, h.2.trans h'.2⟩

theorem start_le_of_mem_locate {n : Nat} {ts : List Tree} {l : Located} (h : l ∈ locate n ts) :
    n ≤ l.start := by
  induction ts generalizing n with
  | nil => cases h
  | cons t ts ih =>
    rcases List.mem_cons.1 h with rfl | h
    · exact Nat.le_refl n
    · exact (Nat.le_add_right ..).trans (ih h)

theorem bounds_of_mem_locate {n : Nat} {ts : List Tree} {l : Located} (h : l ∈ locate n ts) :
    l.start + l.tree.width ≤ n + Tree.widthAll ts := by
  induction ts generalizing n with
  | nil => cases h
  | cons t ts ih =>
    rw [Tree.widthAll]
    rcases List.mem_cons.1 h with rfl | h
    · simp only
      omega
    · have := ih h
      omega

theorem within_of_mem_children {l c : Located} (h : c ∈ l.children) : c.Within l := by
  obtain ⟨n, t⟩ := l
  cases t with
  | token => cases h
  | node kind ts => exact ⟨start_le_of_mem_locate h, bounds_of_mem_locate h⟩

theorem within_of_mem_childNodes {l c : Located} (h : c ∈ l.childNodes) : c.Within l :=
  within_of_mem_children (List.mem_filter.1 h).1

theorem pairwise_locate (n : Nat) (ts : List Tree) : (locate n ts).Pairwise Before := by
  induction ts generalizing n with
  | nil => exact .nil
  | cons t ts ih => exact .cons (fun _ hl => start_le_of_mem_locate hl) (ih _)

/-- What stands directly inside a node stands there one behind the other. -/
theorem pairwise_children (l : Located) : l.children.Pairwise Before := by
  rw [children]
  split
  · exact .nil
  · exact pairwise_locate ..

theorem pairwise_childrenOf (k : NodeKind) (l : Located) : (l.childrenOf k).Pairwise Before :=
  l.pairwise_children.filter _

end Located

namespace Tree

open Located

mutual

theorem within_of_mem_nodesFrom {l : Located} {n : Nat} : ∀ {t : Tree},
    l ∈ t.nodesFrom n → l.Within ⟨n, t⟩
  | .token _ _, h => nomatch h
  | .node kind ts, h => by
    rcases List.mem_cons.1 h with rfl | h
    · exact ⟨Nat.le_refl _, Nat.le_refl _⟩
    · exact bounds_of_mem_nodesAllFrom h

theorem bounds_of_mem_nodesAllFrom {l : Located} {n : Nat} : ∀ {ts : List Tree},
    l ∈ nodesAllFrom n ts → n ≤ l.start ∧ l.stop ≤ n + widthAll ts
  | [], h => nomatch h
  | t :: ts, h => by
    rw [widthAll]
    rcases List.mem_append.1 h with h | h
    · have := within_of_mem_nodesFrom h
      simp only [Within, stop] at this ⊢
      omega
    · have := bounds_of_mem_nodesAllFrom h
      omega

end

mutual

theorem pairwise_nodesFrom (n : Nat) : ∀ t : Tree,
    (t.nodesFrom n).Pairwise fun l m => l.Before m ∨ m.Within l
  | .token _ _ => .nil
  | .node _ ts => .cons (fun _ h => .inr (bounds_of_mem_nodesAllFrom h)) (pairwise_nodesAllFrom n ts)

theorem pairwise_nodesAllFrom (n : Nat) : ∀ ts : List Tree,
    (nodesAllFrom n ts).Pairwise fun l m => l.Before m ∨ m.Within l
  | [] => .nil
  | t :: ts => by
    refine List.pairwise_append.2 ⟨pairwise_nodesFrom n t, pairwise_nodesAllFrom _ ts, ?_⟩
    intro l hl m hm
    exact .inl ((within_of_mem_nodesFrom hl).2.trans (bounds_of_mem_nodesAllFrom hm).1)

end

end Tree

namespace File

/-- A node that is found later stands behind or within. -/
theorem pairwise_nodes (f : File) : f.nodes.Pairwise fun l m => l.Before m ∨ m.Within l :=
  Tree.pairwise_nodesFrom 0 f.tree

end File

/-- A token with a text that a node starts with is part of it. -/
theorem Located.bounds_of_firstLeaf {l : Located} {a : Leaf} (h : l.firstLeaf = some a)
    (hn : a.text.toList ≠ []) : l.start ≤ a.start ∧ a.start < l.stop := by
  rw [firstLeaf, Option.join_eq_some_iff] at h
  have hb := (Tree.tiles_leavesFrom l.start l.tree).bounds (List.mem_of_mem_head? h)
  have hpos := List.length_pos_of_ne_nil hn
  rw [String.length_toList] at hpos
  rw [Tree.length_text] at hb
  rw [stop]
  omega

end Docsmith.Source
