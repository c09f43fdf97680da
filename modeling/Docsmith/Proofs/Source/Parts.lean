import Docsmith.Source.Declaration

/-!
# Trees without positions

What is found in a file by going from nodes to their children is found in its tree without positions.

* `map_tree_nodesFrom`: the nodes of a tree are its parts;
* `map_tree_children`, `map_tree_child?`: what stands directly inside a node.
-/

namespace Docsmith.Source

namespace Tree

mutual

/-- The nodes of a tree, each before those inside it. -/
def parts : Tree → List Tree
  | .token _ _ => []
  | .node k cs => .node k cs :: partsAll cs

def partsAll : List Tree → List Tree
  | [] => []
  | t :: ts => t.parts ++ partsAll ts

end

/-- What stands directly inside a tree. -/
def children : Tree → List Tree
  | .token _ _ => []
  | .node _ cs => cs

def kind? : Tree → Option NodeKind
  | .token _ _ => none
  | .node k _ => some k

def child? (k : NodeKind) (t : Tree) : Option Tree := t.children.find? (·.kind? = some k)

def types (t : Tree) : List Tree := t.children.filter fun c => c.kind?.any NodeKind.isType

variable {ts us : List Tree}

theorem partsAll_append (ts us : List Tree) : partsAll (ts ++ us) = partsAll ts ++ partsAll us := by
  induction ts with
  | nil => rfl
  | cons t ts ih => rw [List.cons_append, partsAll, partsAll, ih, List.append_assoc]

theorem partsAll_map_ofToken (ts : List Token) : partsAll (ts.map ofToken) = [] := by
  induction ts with
  | nil => rfl
  | cons t ts ih => rw [List.map_cons, partsAll, ih]; rfl

end Tree

namespace Located

theorem map_tree_locate (n : Nat) (ts : List Tree) : (locate n ts).map (·.tree) = ts := by
  induction ts generalizing n with
  | nil => rfl
  | cons t ts ih => rw [locate, List.map_cons, ih]

variable (l : Located)

theorem map_tree_children : l.children.map (·.tree) = l.tree.children := by
  obtain ⟨n, t⟩ := l
  cases t with
  | token k s => rfl
  | node k cs => exact map_tree_locate n cs

theorem kind?_eq : l.kind? = l.tree.kind? := rfl

theorem map_tree_child? (k : NodeKind) : (l.child? k).map (·.tree) = l.tree.child? k := by
  rw [Tree.child?, ← map_tree_children, List.find?_map, child?]
  rfl

theorem map_tree_implTypes : l.implTypes.map (·.tree) = l.tree.types := by
  rw [Tree.types, ← map_tree_children, List.filter_map, implTypes, childrenWhere]
  rfl

theorem name?_eq : l.name? = (l.tree.child? .name).map fun n => String.ofList n.text := by
  rw [name?, ← map_tree_child?, Option.map_map]
  rfl

end Located

namespace Tree

mutual

theorem map_tree_nodesFrom (n : Nat) : ∀ t : Tree, (t.nodesFrom n).map (·.tree) = t.parts
  | .token _ _ => rfl
  | .node k cs => congrArg (Tree.node k cs :: ·) (map_tree_nodesAllFrom n cs)

theorem map_tree_nodesAllFrom (n : Nat) : ∀ ts : List Tree,
    (nodesAllFrom n ts).map (·.tree) = partsAll ts
  | [] => rfl
  | t :: ts => by
    rw [nodesAllFrom, List.map_append, map_tree_nodesFrom, map_tree_nodesAllFrom, partsAll]

end

theorem mem_parts_self {a : Tree} {kind : NodeKind} (h : a.kind? = some kind) : a ∈ a.parts := by
  cases a with
  | token => cases h
  | node => exact List.mem_cons_self ..

theorem mem_partsAll {x t : Tree} (ht : t ∈ ts) (hx : x ∈ t.parts) : x ∈ partsAll ts := by
  obtain ⟨front, back, rfl⟩ := List.append_of_mem ht
  rw [partsAll_append, partsAll]
  simp [hx]

mutual

/-- What stands inside a part of a tree is a part of the tree. -/
theorem mem_parts_of_mem_children {x c y : Tree} (hc : c ∈ x.children) (hy : y ∈ c.parts) :
    ∀ {t : Tree}, x ∈ t.parts → y ∈ t.parts
  | .token _ _, hx => nomatch hx
  | .node k cs, hx => by
    rcases List.mem_cons.1 hx with rfl | hx
    · exact List.mem_cons_of_mem _ (mem_partsAll hc hy)
    · exact List.mem_cons_of_mem _ (mem_partsAll_of_mem_children hc hy hx)

theorem mem_partsAll_of_mem_children {x c y : Tree} (hc : c ∈ x.children) (hy : y ∈ c.parts) :
    ∀ {ts : List Tree}, x ∈ partsAll ts → y ∈ partsAll ts
  | [], hx => nomatch hx
  | t :: ts, hx => by
    rw [partsAll, List.mem_append] at hx ⊢
    exact hx.imp (mem_parts_of_mem_children hc hy) (mem_partsAll_of_mem_children hc hy)

end

/-- A node directly inside a part of a tree is a part of the tree. -/
theorem mem_parts_of_child? {x c t : Tree} {kind : NodeKind} (h : x.child? kind = some c)
    (hx : x ∈ t.parts) : c ∈ t.parts := by
  have hk : c.kind? = some kind := by simpa using List.find?_some h
  exact mem_parts_of_mem_children (List.mem_of_find?_eq_some h) (mem_parts_self hk) hx

end Tree

end Docsmith.Source
