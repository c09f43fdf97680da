import Docsmith.Proofs.Description.Declared
import Docsmith.Proofs.Source.Nesting
import Mathlib.Data.List.Nodup
import Mathlib.Data.List.Pairwise

/-!
# Lists of items that have been filled

Where constants have been put into the list of an impl, the impl declares them in addition.

* `Located.swaps_of_child?`: the list that a place tells is the one the impl is known by;
* `Tree.seen_filled`: one impl;
* `Tree.Swaps.filled`: the tree it stands in.
-/

namespace Docsmith.Source

open Outline (closedList joined)

theorem eq_of_nodup_flatMap {α β : Type} {l : List α} {f : α → List β} {x y : α} {z : β}
    (h : (l.flatMap f).Nodup) (hx : x ∈ l) (hy : y ∈ l) (hzx : z ∈ f x) (hzy : z ∈ f y) :
    x = y := by
  by_contra hne
  have : Std.Symm (Function.onFun List.Disjoint f) := ⟨fun _ _ h => List.disjoint_symm h⟩
  exact (List.nodup_flatMap.1 h).2.forall hx hy hne hzx hzy

namespace Tree

variable {p n : Nat} {a b t t' : Tree}

theorem nodesAllFrom_append (n : Nat) (ts us : List Tree) :
    nodesAllFrom n (ts ++ us) = nodesAllFrom n ts ++ nodesAllFrom (n + widthAll ts) us := by
  induction ts generalizing n with
  | nil => rfl
  | cons t ts ih =>
    rw [List.cons_append, nodesAllFrom, nodesAllFrom, ih, List.append_assoc, widthAll,
      Nat.add_assoc]

theorem mem_nodesFrom_inside {l : Located} {kind : NodeKind} {front back : List Tree}
    (h : l ∈ t.nodesFrom (n + widthAll front)) :
    l ∈ (node kind (front ++ t :: back)).nodesFrom n := by
  rw [nodesFrom, nodesAllFrom_append, nodesAllFrom]
  simp [h]

theorem Swaps.mem_nodesFrom (h : Swaps p a b n t t') {kind : NodeKind} (ha : a.kind? = some kind) :
    ⟨p, a⟩ ∈ t.nodesFrom n := by
  induction h with
  | here =>
    cases a with
    | token => cases ha
    | node => exact List.mem_cons_self ..
  | inside kind front back _ ih => exact mem_nodesFrom_inside ih

/-- A tree that is swapped is the whole tree, or stands directly inside a node. -/
theorem Swaps.parent (h : Swaps p a b n t t') : (t = a ∧ t' = b ∧ n = p) ∨
    ∃ l kind front back, l ∈ t.nodesFrom n ∧ l.tree = .node kind (front ++ a :: back) ∧
      p = l.start + widthAll front ∧
      Swaps l.start l.tree (.node kind (front ++ b :: back)) n t t' := by
  induction h with
  | here => exact .inl ⟨rfl, rfl, rfl⟩
  | @inside n u u' kind front back h ih =>
    refine .inr ?_
    rcases ih with ⟨rfl, rfl, rfl⟩ | ⟨l, kind', front', back', hl, ht, hp, hs⟩
    · exact ⟨⟨n, _⟩, kind, front, back, List.mem_cons_self .., rfl, rfl, .here⟩
    · exact ⟨l, kind', front', back', mem_nodesFrom_inside hl, ht, hp, .inside kind front back hs⟩

/-- The node in which a token of a tree stands is told by the place of the token. -/
theorem Sound.eq_of_ownLeaves {x y : Located} {c d : Leaf} (h : t.Sound) (hx : x ∈ t.nodesFrom n)
    (hy : y ∈ t.nodesFrom n) (hc : c ∈ x.ownLeaves) (hd : d ∈ y.ownLeaves)
    (hcd : c.start = d.start) : x = y := by
  have hn := h.nodup_ownLeaves n
  rw [List.map_flatMap] at hn
  exact eq_of_nodup_flatMap hn hx hy (List.mem_map_of_mem hc) (hcd ▸ List.mem_map_of_mem hd)

/-- The node in which a node of a tree stands is told by that, if a token stands in it. -/
theorem Sound.eq_of_childNodes {x y z : Located} {c : Leaf} (h : t.Sound) (hx : x ∈ t.nodesFrom n)
    (hy : y ∈ t.nodesFrom n) (hzx : z ∈ x.childNodes) (hzy : z ∈ y.childNodes)
    (hc : c ∈ z.ownLeaves) : x = y := by
  have hn := (h.nodup_ownLeaves_childNodes n).of_map
  rw [List.flatMap_assoc] at hn
  exact eq_of_nodup_flatMap hn hx hy (List.mem_flatMap.2 ⟨z, hzx, hc⟩)
    (List.mem_flatMap.2 ⟨z, hzy, hc⟩)

end Tree

namespace Outline

variable {inside : List Tree} {brace : Token} {p : Nat}

/-- The closing brace of a list, at its position. -/
def closingLeaf (p : Nat) (inside : List Tree) (brace : Token) : Leaf :=
  ⟨p + Tree.widthAll inside, .rCurly, String.ofList (Token.concat [brace])⟩

theorem mem_text_closedList (inside : List Tree) (h : '\x7d' ∈ brace.text.toList) :
    '\x7d' ∈ (closedList inside brace).text := by
  rw [closedList, Tree.text, Tree.textAll_append]
  simp [Tree.textAll, joined, Tree.text, Token.concat, h]

theorem closingLeaf_mem :
    closingLeaf p inside brace ∈ (⟨p, closedList inside brace⟩ : Located).ownLeaves := by
  rw [closedList, Located.ownLeaves_node, Located.locate_append, List.filterMap_append]
  exact List.mem_append_right _ (List.mem_singleton_self _)

end Outline

open Outline

/-- The items of a swapped list stand in the first list of its impl. -/
theorem Located.swaps_of_child? {t t' : Tree} {l list : Located} {a : Leaf} {p : Nat}
    {old new : List Tree} {brace : Token} (hs : t.Sound) (hl : l ∈ t.nodesFrom 0)
    (hlist : l.child? .assocItemList = some list) (ha : a ∈ list.ownLeaves)
    (h : Tree.Swaps p (closedList old brace) (closedList new brace) 0 t t')
    (ht : t.kind? ≠ some .assocItemList) (hp : a.start = p + Tree.widthAll old)
    (hb : '\x7d' ∈ brace.text.toList) :
    ∃ kind front back, l.tree = .node kind (front ++ closedList old brace :: back) ∧
      (∀ c ∈ front, c.kind? ≠ some .assocItemList) ∧
      Tree.Swaps l.start l.tree (.node kind (front ++ closedList new brace :: back)) 0 t t' := by
  have hchild := mem_childNodes_of_child? hlist
  obtain rfl : list = ⟨p, closedList old brace⟩ :=
    hs.eq_of_ownLeaves (Tree.mem_nodesFrom_of_mem_childNodes hl hchild) (h.mem_nodesFrom rfl) ha
      closingLeaf_mem hp
  rcases h.parent with ⟨rfl, -⟩ | ⟨m, kind, front, back, hm, htree, rfl, hswaps⟩
  · exact absurd rfl ht
  have hmchildren : m.children = locate m.start front ++ ⟨m.start + Tree.widthAll front,
      closedList old brace⟩ :: locate (m.start + Tree.widthAll front +
        (closedList old brace).width) back := by
    rw [children, htree]
    exact locate_append ..
  obtain rfl : l = m := by
    refine hs.eq_of_childNodes hl hm hchild ?_ closingLeaf_mem
    rw [childNodes, hmchildren]
    exact List.mem_filter.2 ⟨by simp, rfl⟩
  refine ⟨kind, front, back, htree, fun c hc hk => ?_, hswaps⟩
  -- if a list stood in front, it would be the first
  have hwidth : 0 < (closedList old brace).width := by
    rw [← Tree.length_text]
    exact List.length_pos_of_mem (mem_text_closedList _ hb)
  have hfind : ((locate l.start front).find? (is .assocItemList)).isSome := by
    rw [List.find?_isSome]
    rw [← map_tree_locate l.start front] at hc
    obtain ⟨d, hd, rfl⟩ := List.mem_map.1 hc
    exact ⟨d, hd, decide_eq_true hk⟩
  obtain ⟨d, hd⟩ := Option.isSome_iff_exists.1 hfind
  rw [child?, hmchildren, List.find?_append, hd, Option.some_or, Option.some_inj] at hlist
  have hbounds := bounds_of_mem_locate (List.mem_of_find?_eq_some hd)
  rw [hlist] at hbounds
  simp only at hbounds
  omega

namespace Tree

/-- Trees that declare constants of the given names, and hold no impl. -/
structure Declaring (names : List String) (added : List Tree) : Prop where
  constants : added.filterMap constant? = names
  named : ∀ t ∈ added, t.kind? = some .constItem → t.constant?.isSome
  no_impl : ∀ x ∈ partsAll added, x.kind? ≠ some .implItem

variable {typeName : String} {names : List String} {kind : NodeKind}
  {front back kids added : List Tree} {gap : List Token} {brace : Token} {β : Type}
  {see : Tree → Option β}

/-- No blank and no comment is seen. -/
theorem filterMap_map_ofToken (h : ∀ kind text, see (.token kind text) = none) (ts : List Token) :
    (ts.map ofToken).filterMap see = [] := by
  rw [List.filterMap_eq_nil_iff, List.forall_mem_map]
  exact fun t _ => h t.kind t.text

theorem parts_closedList (inside : List Tree) (brace : Token) :
    (closedList inside brace).parts = closedList inside brace :: partsAll inside := by
  rw [closedList, parts, partsAll_append]
  exact congrArg _ (List.append_nil _)

theorem items_impl (hsee : Steady typeName see)
    (hfront : ∀ c ∈ front, c.kind? ≠ some .assocItemList) (inside : List Tree) :
    (node kind (front ++ closedList inside brace :: back)).items.filterMap see =
      inside.filterMap see := by
  have hfind : front.find? (·.kind? = some .assocItemList) = none :=
    List.find?_eq_none.2 fun c hc => by simpa using hfront c hc
  rw [items, child?, children, List.find?_append, hfind, Option.none_or,
    List.find?_cons_of_pos (by rfl), Option.map_some, Option.getD_some, closedList, children,
    List.filterMap_append, joined, List.filterMap_cons, hsee.token]
  exact List.append_nil _

/-- What is seen in an impl, and in the impls inside it. -/
theorem seen_impl (hsee : Steady typeName see)
    (h : (node kind (front ++ closedList kids brace :: back)).isOwn typeName = true)
    (hfront : ∀ c ∈ front, c.kind? ≠ some .assocItemList) :
    seen see typeName (node kind (front ++ closedList kids brace :: back)).parts =
      kids.filterMap see ++ (seen see typeName (partsAll front) ++
        (seen see typeName (partsAll kids) ++ seen see typeName (partsAll back))) := by
  have hlist :
      seen see typeName (closedList kids brace).parts = seen see typeName (partsAll kids) := by
    rw [parts_closedList, seen, List.filter_cons_of_neg (by simp [isOwn, closedList, kind?]),
      ← seen]
  have hown : seen see typeName [node kind (front ++ closedList kids brace :: back)] =
      kids.filterMap see := by
    rw [seen, List.filter_singleton, h, cond_true, List.flatMap_singleton, items_impl hsee hfront]
  rw [parts, partsAll_append, partsAll, ← List.singleton_append, seen_append, seen_append,
    seen_append, hlist, hown]

theorem seen_of_no_impl {ts : List Tree} (h : ∀ x ∈ ts, x.kind? ≠ some .implItem) :
    seen see typeName ts = [] := by
  have hnone : ts.filter (isOwn typeName) = [] :=
    List.filter_eq_nil_iff.2 fun x hx => by simp [isOwn, h x hx]
  rw [seen, hnone]
  rfl

/-- A list is no type of its impl. -/
theorem types_filled (inside : List Tree) :
    (node kind (front ++ closedList inside brace :: back)).types =
      (node kind (front ++ closedList kids brace :: back)).types := types_swap rfl rfl

theorem isOwn_filled (inside : List Tree) :
    (node kind (front ++ closedList inside brace :: back)).isOwn typeName =
      (node kind (front ++ closedList kids brace :: back)).isOwn typeName := by
  rw [isOwn, isOwn, types_filled]
  rfl

/-- What is put into the list of an impl is seen in addition. -/
theorem seen_filled (hsee : Steady typeName see) (hadded : Declaring names added)
    (hfront : ∀ c ∈ front, c.kind? ≠ some .assocItemList)
    (h : (node kind (front ++ closedList (kids ++ gap.map ofToken) brace :: back)).isOwn typeName =
      true) :
    (seen see typeName (node kind (front ++ closedList (kids ++ added) brace :: back)).parts).Perm
      (seen see typeName (node kind
        (front ++ closedList (kids ++ gap.map ofToken) brace :: back)).parts ++
          added.filterMap see) := by
  have h' : (node kind (front ++ closedList (kids ++ added) brace :: back)).isOwn typeName = true :=
    (isOwn_filled _).trans h
  rw [seen_impl hsee h hfront, seen_impl hsee h' hfront, partsAll_append, partsAll_append,
    partsAll_map_ofToken, List.filterMap_append, List.filterMap_append, filterMap_map_ofToken hsee.token,
    seen_append, seen_of_no_impl hadded.no_impl, List.append_nil, List.append_nil, List.append_nil,
    List.append_assoc, List.append_assoc _ _ (added.filterMap see)]
  exact .append_left _ List.perm_append_comm

/-- So no impl gets into a type. -/
theorem typesPlain_filled (hadded : Declaring names added)
    (h : TypesPlain (node kind (front ++ closedList (kids ++ gap.map ofToken) brace :: back))) :
    TypesPlain (node kind (front ++ closedList (kids ++ added) brace :: back)) := by
  intro x hx hk c hc
  rw [parts, partsAll_append, partsAll, parts_closedList, partsAll_append] at hx
  have hold (hx : x ∈ partsAll front ++ (partsAll kids ++ partsAll back)) :
      x ∈ (node kind (front ++ closedList (kids ++ gap.map ofToken) brace :: back)).parts := by
    rw [parts, partsAll_append, partsAll, parts_closedList, partsAll_append]
    simp only [List.mem_append] at hx
    rcases hx with hx | hx | hx <;> simp [hx]
  simp only [List.mem_cons, List.mem_append] at hx
  rcases hx with rfl | hx | (rfl | hx | hx) | hx
  · exact h _ (List.mem_cons_self ..) hk c (types_filled (kids ++ added) ▸ hc)
  · exact h x (hold (by simp [hx])) hk c hc
  · cases hk
  · exact h x (hold (by simp [hx])) hk c hc
  · exact absurd hk (hadded.no_impl x hx)
  · exact h x (hold (by simp [hx])) hk c hc

/-- A tree in which constants have been put into the list of an impl of a type. -/
theorem Swaps.filled {p n : Nat} {t t' : Tree}
    (h : Swaps p (node kind (front ++ closedList (kids ++ gap.map ofToken) brace :: back))
      (node kind (front ++ closedList (kids ++ added) brace :: back)) n t t')
    (hown : (node kind (front ++ closedList (kids ++ gap.map ofToken) brace :: back)).isOwn typeName =
      true)
    (hfront : ∀ c ∈ front, c.kind? ≠ some .assocItemList) (hadded : Declaring names added)
    (hb : '\x7d' ∈ brace.text.toList) (hp : TypesPlain t) :
    TypesPlain t' ∧ ∀ {β : Type} {see : Tree → Option β}, Steady typeName see →
      (seen see typeName t'.parts).Perm (seen see typeName t.parts ++ added.filterMap see) := by
  have hbrace (inside : List Tree) :
      '\x7d' ∈ (node kind (front ++ closedList inside brace :: back)).text := by
    rw [text, textAll_append, textAll]
    simp [mem_text_closedList inside hb]
  have hi : Impls typeName (node kind (front ++ closedList (kids ++ gap.map ofToken) brace :: back))
      (node kind (front ++ closedList (kids ++ added) brace :: back)) :=
    ⟨hown, (isOwn_filled _).trans hown, hbrace _, hbrace _⟩
  have hplain := typesPlain_filled hadded fun x hx => hp x (h.mem_parts x hx)
  exact ⟨h.typesPlain hi hp hplain,
    fun hsee => h.seen_perm hi hsee hp (seen_filled hsee hadded hfront hown)⟩

end Tree

end Docsmith.Source
