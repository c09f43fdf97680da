import Docsmith.Proofs.Source.Leaves
import Docsmith.Source.Declaration
import Mathlib.Data.List.Perm.Basic

/-!
# Nodes and the tokens in them

Every token of a tree stands directly inside one of its nodes, and every node but the first inside
one other. So what is found by going from nodes to their children is found once.

* `nodesFrom_ownLeaves_perm`: the tokens directly inside the nodes of a tree are its tokens;
* `nodesFrom_childNodes_perm`: the nodes directly inside the nodes of a tree are its nodes but one;
* `Tree.Sound.nodup_ownLeaves`: no two tokens directly inside nodes start at one position.
-/

namespace Docsmith.Source

open List

namespace Located

/-- A token with its position. -/
def leaf? (l : Located) : Option Leaf :=
  match l.tree with
  | .token kind text => some ⟨l.start, kind, text⟩
  | .node _ _ => none

/-- The tokens directly inside a node. -/
def ownLeaves (l : Located) : List Leaf := l.children.filterMap leaf?

/-- The nodes directly inside a node. -/
def childNodes (l : Located) : List Located := l.children.filter (·.kind?.isSome)

variable {l c : Located} {k : NodeKind}

theorem mem_ownLeaves_of_token? {kind : TokenKind} {a : Leaf} (h : l.token? kind = some a) :
    a ∈ l.ownLeaves ∧ a.kind = kind := by
  rw [token?] at h
  obtain ⟨c, hc, h⟩ := exists_of_findSome?_eq_some h
  split at h
  · rename_i kind' text ht
    split at h
    · rename_i hk
      obtain rfl := Option.some.inj h
      refine ⟨mem_filterMap.2 ⟨c, hc, ?_⟩, hk⟩
      rw [leaf?, ht]
    · simp at h
  · simp at h

theorem kind?_of_is (h : l.is k = true) : l.kind? = some k := by
  simpa [is] using h

theorem mem_childNodes_of_child? (h : l.child? k = some c) : c ∈ l.childNodes := by
  have hk := kind?_of_is (find?_some h)
  exact mem_filter.2 ⟨mem_of_find?_eq_some h, by rw [hk, Option.isSome_some]⟩

theorem mem_childNodes_of_childrenOf (h : c ∈ l.childrenOf k) : c ∈ l.childNodes := by
  obtain ⟨hc, hk⟩ := mem_filter.1 h
  exact mem_filter.2 ⟨hc, by rw [kind?_of_is hk, Option.isSome_some]⟩

theorem mem_childNodes_of_childWhere? {p : NodeKind → Bool} (h : l.childWhere? p = some c) :
    c ∈ l.childNodes := by
  rw [childWhere?] at h
  have hany := find?_some (p := fun c : Located => c.kind?.any p) h
  obtain ⟨kind, hk, -⟩ := (Option.any_eq_true ..).1 hany
  exact mem_filter.2 ⟨mem_of_find?_eq_some h, by rw [hk, Option.isSome_some]⟩

theorem locate_append (n : Nat) (ts us : List Tree) :
    locate n (ts ++ us) = locate n ts ++ locate (n + Tree.widthAll ts) us := by
  induction ts generalizing n with
  | nil => rfl
  | cons t ts ih =>
    rw [List.cons_append, locate, locate, ih, List.cons_append, Tree.widthAll, Nat.add_assoc]

theorem childNodes_node (n : Nat) (kind : NodeKind) (cs : List Tree) :
    (⟨n, .node kind cs⟩ : Located).childNodes =
      (locate n cs).filter (·.kind?.isSome) := rfl

theorem ownLeaves_node (n : Nat) (kind : NodeKind) (cs : List Tree) :
    (⟨n, .node kind cs⟩ : Located).ownLeaves = (locate n cs).filterMap leaf? := rfl

end Located

namespace Tree

open Located

/-- Four lists joined in pairs can be paired anew. -/
private theorem append_pairs_perm {α : Type} (a b c d : List α) :
    (a ++ b) ++ (c ++ d) ~ (a ++ c) ++ (b ++ d) := by
  simp only [append_assoc]
  refine Perm.append_left a ?_
  simp only [← append_assoc]
  exact Perm.append_right d perm_append_comm

mutual

/-- The tokens directly inside the nodes of a tree, and the tree if it is a token, are the tokens of
the tree. -/
theorem nodesFrom_ownLeaves_perm (n : Nat) : ∀ t : Tree,
    (leaf? ⟨n, t⟩).toList ++ (nodesFrom n t).flatMap ownLeaves ~ (t.leavesFrom n).reduceOption
  | .token kind text => by simp [leaf?, nodesFrom, leavesFrom, reduceOption]
  | .node kind [] => by simp [leaf?, nodesFrom, nodesAllFrom, leavesFrom, ownLeaves_node, locate]
  | .node kind (t :: ts) => by
    have h := nodesAllFrom_ownLeaves_perm n (t :: ts)
    rw [nodesFrom, flatMap_cons, ownLeaves_node]
    exact h

theorem nodesAllFrom_ownLeaves_perm (n : Nat) : ∀ ts : List Tree,
    (locate n ts).filterMap leaf? ++ (nodesAllFrom n ts).flatMap ownLeaves ~
      (leavesAllFrom n ts).reduceOption
  | [] => by simp [locate, nodesAllFrom, leavesAllFrom]
  | t :: ts => by
    have hf : (locate n (t :: ts)).filterMap leaf? =
        (leaf? ⟨n, t⟩).toList ++ (locate (n + t.width) ts).filterMap leaf? := by
      rw [locate, filterMap_cons]
      cases leaf? ⟨n, t⟩ <;> rfl
    rw [hf, nodesAllFrom, flatMap_append, leavesAllFrom, reduceOption_append]
    exact (append_pairs_perm ..).trans
      ((nodesFrom_ownLeaves_perm n t).append (nodesAllFrom_ownLeaves_perm _ ts))

end

mutual

/-- The nodes directly inside the nodes of a tree, and the tree if it is a node, are the nodes of
the tree. -/
theorem nodesFrom_childNodes_perm (n : Nat) : ∀ t : Tree,
    [(⟨n, t⟩ : Located)].filter (·.kind?.isSome) ++ (nodesFrom n t).flatMap childNodes ~
      nodesFrom n t
  | .token kind text => by simp [kind?, nodesFrom]
  | .node kind cs => by
    have h := nodesAllFrom_childNodes_perm n cs
    rw [nodesFrom, flatMap_cons, childNodes_node]
    exact h.cons _

theorem nodesAllFrom_childNodes_perm (n : Nat) : ∀ ts : List Tree,
    (locate n ts).filter (·.kind?.isSome) ++ (nodesAllFrom n ts).flatMap childNodes ~
      nodesAllFrom n ts
  | [] => by simp [locate, nodesAllFrom]
  | t :: ts => by
    have hf : (locate n (t :: ts)).filter (·.kind?.isSome) =
        [(⟨n, t⟩ : Located)].filter (·.kind?.isSome) ++
          (locate (n + t.width) ts).filter (·.kind?.isSome) := by
      rw [locate, ← filter_append, singleton_append]
    rw [hf, nodesAllFrom, flatMap_append]
    exact (append_pairs_perm ..).trans
      ((nodesFrom_childNodes_perm n t).append (nodesAllFrom_childNodes_perm _ ts))

end

/-- A token directly inside a node of a tree is a token of the tree. -/
theorem mem_leavesFrom_of_mem_ownLeaves {n : Nat} {t : Tree} {l : Located} {a : Leaf}
    (hl : l ∈ t.nodesFrom n) (ha : a ∈ l.ownLeaves) : some a ∈ t.leavesFrom n := by
  rw [← reduceOption_mem_iff, ← (nodesFrom_ownLeaves_perm n t).mem_iff]
  exact mem_append_right _ (mem_flatMap.2 ⟨l, hl, ha⟩)

theorem mem_nodesFrom_of_mem_childNodes {n : Nat} {t : Tree} {l c : Located}
    (hl : l ∈ t.nodesFrom n) (hc : c ∈ l.childNodes) : c ∈ t.nodesFrom n := by
  rw [← (nodesFrom_childNodes_perm n t).mem_iff]
  exact mem_append_right _ (mem_flatMap.2 ⟨l, hl, hc⟩)

mutual

/-- The nodes inside a node of a tree are nodes of the tree. -/
theorem mem_nodesFrom_of_mem_nodes {l c : Located} {n : Nat} : ∀ {t : Tree},
    l ∈ t.nodesFrom n → c ∈ l.nodes → c ∈ t.nodesFrom n
  | .token _ _, hl, _ => nomatch hl
  | .node kind cs, hl, hc => by
    rw [nodesFrom] at hl ⊢
    rcases mem_cons.1 hl with rfl | hl
    · exact hc
    · exact mem_cons_of_mem _ (mem_nodesAllFrom_of_mem_nodes hl hc)

theorem mem_nodesAllFrom_of_mem_nodes {l c : Located} {n : Nat} : ∀ {ts : List Tree},
    l ∈ nodesAllFrom n ts → c ∈ l.nodes → c ∈ nodesAllFrom n ts
  | [], hl, _ => nomatch hl
  | t :: ts, hl, hc => by
    rw [nodesAllFrom] at hl ⊢
    rcases mem_append.1 hl with hl | hl
    · exact mem_append_left _ (mem_nodesFrom_of_mem_nodes hl hc)
    · exact mem_append_right _ (mem_nodesAllFrom_of_mem_nodes hl hc)

end

/-- The tokens of what stands directly inside a node of a tree are tokens of the tree. -/
theorem mem_leavesFrom_of_mem_children {n : Nat} {t : Tree} {l c : Located} {a : Leaf}
    (hl : l ∈ t.nodesFrom n) (hc : c ∈ l.children) (ha : some a ∈ c.tree.leavesFrom c.start) :
    some a ∈ t.leavesFrom n := by
  rw [← reduceOption_mem_iff, ← (nodesFrom_ownLeaves_perm c.start c.tree).mem_iff] at ha
  rcases mem_append.1 ha with ha | ha
  · exact mem_leavesFrom_of_mem_ownLeaves hl (mem_filterMap.2 ⟨c, hc, by simpa using ha⟩)
  · obtain ⟨d, hd, ha⟩ := mem_flatMap.1 ha
    have hc' : c ∈ l.childNodes := by
      refine mem_filter.2 ⟨hc, ?_⟩
      cases ht : c.tree with
      | token kind text => simp [ht, nodesFrom] at hd
      | node kind cs => simp [kind?, ht]
    exact mem_leavesFrom_of_mem_ownLeaves
      (mem_nodesFrom_of_mem_nodes (mem_nodesFrom_of_mem_childNodes hl hc') hd) ha

mutual

/-- The nodes of a sound tree are sound. -/
theorem Sound.of_mem_nodesFrom {l : Located} {n : Nat} : ∀ {t : Tree}, t.Sound →
    l ∈ t.nodesFrom n → l.tree.Sound
  | .token _ _, _, hl => nomatch hl
  | .node kind cs, hs, hl => by
    rcases mem_cons.1 hl with rfl | hl
    · exact hs
    · exact sound_of_mem_nodesAllFrom (fun _ ht => hs.of_mem ht) hl

theorem sound_of_mem_nodesAllFrom {l : Located} {n : Nat} : ∀ {ts : List Tree},
    (∀ t ∈ ts, t.Sound) → l ∈ nodesAllFrom n ts → l.tree.Sound
  | [], _, hl => nomatch hl
  | t :: ts, hs, hl => by
    rcases mem_append.1 hl with hl | hl
    · exact (hs t (mem_cons_self ..)).of_mem_nodesFrom hl
    · exact sound_of_mem_nodesAllFrom (fun u hu => hs u (mem_cons_of_mem _ hu)) hl

end

/-- No two tokens directly inside nodes of a sound tree start at one position. -/
theorem Sound.nodup_ownLeaves {t : Tree} (h : t.Sound) (n : Nat) :
    (((nodesFrom n t).flatMap ownLeaves).map (·.start)).Nodup := by
  have hn := (tiles_leavesFrom n t).nodup_start
    fun l hl => (fits_of_mem_leavesFrom h hl).nonempty
  have hp := (nodesFrom_ownLeaves_perm n t).map (·.start)
  rw [map_append] at hp
  exact (nodup_append.1 (hp.nodup_iff.2 hn)).2.1

/-- The same for tokens directly inside nodes that are each found directly inside another. -/
theorem Sound.nodup_ownLeaves_childNodes {t : Tree} (h : t.Sound) (n : Nat) :
    ((((nodesFrom n t).flatMap childNodes).flatMap ownLeaves).map (·.start)).Nodup := by
  have hp := ((nodesFrom_childNodes_perm n t).flatMap_right ownLeaves).map (·.start)
  rw [flatMap_append, map_append] at hp
  exact (nodup_append.1 (hp.nodup_iff.2 (h.nodup_ownLeaves n))).2.1

end Tree

end Docsmith.Source
