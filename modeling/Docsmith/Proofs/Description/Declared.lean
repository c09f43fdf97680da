import Docsmith.Description.Constants
import Docsmith.Proofs.Source.Names
import Docsmith.Proofs.Source.Swapping

/-!
# What the impls of a tree declare

Which constants a file declares is told by its tree without positions, and so compared between trees
that differ in one impl.

* `declared_eq`: the constants declared in a file, read from its tree;
* `Tree.Swaps.seen_perm`: where one impl takes the place of another, no other impl declares anything
  else, as long as no impl stands inside the type of one.
-/

namespace Docsmith.Source

open Docsmith.Text

namespace Tree

/-- The tree is an impl of a type and implements no trait. -/
def isOwn (typeName : String) (t : Tree) : Bool :=
  t.kind? = some .implItem && t.types.length ≤ 1 &&
    t.types.head?.any fun o => shortTypeName o.text = typeName

/-- The items of an impl. -/
def items (t : Tree) : List Tree := ((t.child? .assocItemList).map children).getD []

/-- The name an item of an impl declares as a constant. -/
def constant? (t : Tree) : Option String :=
  if t.kind? = some .constItem then (t.child? .name).map fun n => String.ofList n.text else none

/-- What is seen of the items in the inherent impls of a type among some trees. -/
def seen {β : Type} (see : Tree → Option β) (typeName : String) (ts : List Tree) : List β :=
  (ts.filter (isOwn typeName)).flatMap fun t => t.items.filterMap see

end Tree

namespace Located

/-- An inherent impl of a type, without positions. -/
theorem isOwn_tree (typeName : String) (l : Located) : l.tree.isOwn typeName =
    (l.is .implItem &&
      (l.isInherent && l.implOwner?.any fun t => shortTypeName t.chars = typeName)) := by
  rw [Tree.isOwn, ← map_tree_implTypes, ← kind?_eq, List.length_map, Bool.and_assoc, List.head?_map,
    Option.any_map, implOwner?]
  congr 1
  cases h : l.isInherent with
  | false =>
    rw [isInherent] at h
    rw [h, Bool.false_and, Bool.false_and]
  | true =>
    rw [isInherent] at h
    rw [h]
    rfl

/-- The constants an impl declares, without positions. -/
theorem filterMap_items_tree (l : Located) : l.tree.items.filterMap Tree.constant? =
    ((l.child? .assocItemList).map fun list =>
      list.members.filterMap fun m => if m.is .constItem then m.name? else none).getD [] := by
  rw [Tree.items, ← map_tree_child?, Option.map_map]
  cases l.child? .assocItemList with
  | none => rfl
  | some list =>
    rw [Option.map_some, Option.map_some, Option.getD_some, Option.getD_some, Function.comp_apply,
      ← map_tree_children, List.filterMap_map, members, childrenWhere, List.filterMap_filter]
    congr 1
    funext m
    rw [Function.comp_apply, Tree.constant?, is, name?_eq, kind?_eq]
    by_cases h : m.tree.kind? = some .constItem
    · simp [h]
    · simp [h]

end Located

namespace Tree

/-! ## Swapped impls -/

/-- A name as it is read holds no brace. -/
def isName (name : String) : Bool := '\x7d' ∉ name.toList

/-- No impl stands inside a type of an impl. -/
def TypesPlain (t : Tree) : Prop :=
  ∀ x ∈ t.parts, x.kind? = some .implItem → ∀ c ∈ x.types, ∀ y ∈ c.parts,
    y.kind? ≠ some .implItem

instance (t : Tree) : Decidable t.TypesPlain :=
  inferInstanceAs (Decidable (∀ x ∈ t.parts, _ → ∀ c ∈ x.types, ∀ y ∈ c.parts, _))

theorem kind?_of_isOwn {typeName : String} {t : Tree} (h : t.isOwn typeName = true) :
    t.kind? = some .implItem := by
  rw [isOwn, Bool.and_eq_true, Bool.and_eq_true] at h
  simpa using h.1.1

theorem seen_append {β : Type} (see : Tree → Option β) (typeName : String) (ts us : List Tree) :
    seen see typeName (ts ++ us) = seen see typeName ts ++ seen see typeName us := by
  simp [seen]

variable {p n : Nat} {a b t t' u u' : Tree} {kind : NodeKind} {front back : List Tree}
  {typeName : String}

theorem Swaps.symm (h : Swaps p a b n t t') : Swaps p b a n t' t := by
  induction h with
  | here => exact .here
  | inside kind front back _ ih => exact .inside kind front back ih

theorem Swaps.mem_parts (h : Swaps p a b n t t') : ∀ x ∈ a.parts, x ∈ t.parts := by
  induction h with
  | here => exact fun _ => id
  | inside kind front back _ ih =>
    intro x hx
    rw [parts, partsAll_append, partsAll]
    simp [ih x hx]

theorem Swaps.mem_text (h : Swaps p a b n t t') {c : Char} (hc : c ∈ a.text) : c ∈ t.text := by
  induction h with
  | here => exact hc
  | inside kind front back _ ih =>
    rw [text, textAll_append, textAll]
    simp [ih]

/-- An inherent impl of a type in the place of another. -/
structure Impls (typeName : String) (a b : Tree) : Prop where
  own_left : a.isOwn typeName = true
  own_right : b.isOwn typeName = true
  brace_left : '\x7d' ∈ a.text
  brace_right : '\x7d' ∈ b.text

theorem Impls.left (h : Impls typeName a b) : a.kind? = some .implItem := kind?_of_isOwn h.own_left

theorem Impls.right (h : Impls typeName a b) : b.kind? = some .implItem := kind?_of_isOwn h.own_right

/-- What is seen of an item that is no token, and does not change where an inherent impl of the type
takes the place of another. -/
structure Steady {β : Type} (typeName : String) (see : Tree → Option β) : Prop where
  token (kind : TokenKind) (text : String) : see (.token kind text) = none
  swaps {p n : Nat} {a b t t' : Tree} : Swaps p a b n t t' → Impls typeName a b → see t' = see t

theorem Swaps.kind?_eq (h : Swaps p a b n t t') (hi : Impls typeName a b) : t'.kind? = t.kind? := by
  cases h with
  | here => exact hi.right.trans hi.left.symm
  | inside => rfl

theorem child?_swap (kind : NodeKind) (front back : List Tree) (h : u'.kind? = u.kind?)
    (k : NodeKind) :
    (node kind (front ++ u' :: back)).child? k = (node kind (front ++ u :: back)).child? k ∨
      u.kind? = some k ∧ (node kind (front ++ u :: back)).child? k = some u ∧
        (node kind (front ++ u' :: back)).child? k = some u' := by
  rw [child?, child?, children, children, List.find?_append, List.find?_append, List.find?_cons,
    List.find?_cons, h]
  cases List.find? (·.kind? = some k) front with
  | some c => exact .inl rfl
  | none =>
    by_cases hu : u.kind? = some k
    · simp [hu]
    · simp [hu]

/-- A name is seen whatever impls are swapped, as it holds no brace. -/
theorem steady_name (typeName : String) :
    Steady typeName fun t => t.constant?.filter isName where
  token _ _ := rfl
  swaps {p n a b t t'} h hi := by
    rw [constant?, constant?, h.kind?_eq hi]
    split
    · rename_i hk
      cases h with
      | here =>
        rw [hi.left] at hk
        cases hk
      | @inside _ w w' kind front back h =>
        rcases child?_swap kind front back (h.kind?_eq hi) .name with hsame | ⟨-, hw, hw'⟩
        · rw [hsame]
        · have hbrace := h.mem_text hi.brace_left
          have hbrace' := h.symm.mem_text hi.brace_right
          rw [hw, hw']
          simp [isName, Option.filter, hbrace, hbrace']
    · rfl

variable {β : Type} {see : Tree → Option β}

theorem Swaps.items_eq (h : Swaps p a b n u u') (hi : Impls typeName a b)
    (hsee : Steady typeName see) (kind : NodeKind) (front back : List Tree) :
    (node kind (front ++ u' :: back)).items.filterMap see =
      (node kind (front ++ u :: back)).items.filterMap see := by
  rw [items, items]
  rcases child?_swap kind front back (h.kind?_eq hi) .assocItemList with hsame | ⟨hk, hu, hu'⟩
  · rw [hsame]
  · rw [hu, hu', Option.map_some, Option.map_some, Option.getD_some, Option.getD_some]
    cases h with
    | here =>
      rw [hi.left] at hk
      cases hk
    | inside kind front back h =>
      rw [children, children, List.filterMap_append, List.filterMap_append, List.filterMap_cons,
        List.filterMap_cons, hsee.swaps h hi]

theorem types_swap (h : u'.kind? = u.kind?) (hu : u.kind?.any NodeKind.isType = false) :
    (node kind (front ++ u' :: back)).types = (node kind (front ++ u :: back)).types := by
  rw [types, types, children, children, List.filter_append, List.filter_append, List.filter_cons,
    List.filter_cons, h, hu]
  rfl

/-- An impl inside an impl is not inside a type of it. -/
theorem TypesPlain.not_type (h : TypesPlain (.node .implItem (front ++ u :: back)))
    (ha : a.kind? = some .implItem) (hmem : a ∈ u.parts) : u.kind?.any NodeKind.isType = false := by
  by_contra hu
  refine h _ (List.mem_cons_self ..) rfl u ?_ a hmem ha
  rw [types, children, List.mem_filter]
  exact ⟨by simp, by simpa using hu⟩

theorem TypesPlain.child (h : TypesPlain (.node kind (front ++ u :: back))) : TypesPlain u := by
  intro x hx
  refine h x (List.mem_cons_of_mem _ ?_)
  rw [partsAll_append, partsAll]
  simp [hx]

theorem Swaps.isOwn_eq (h : Swaps p a b n u u') (hi : Impls typeName a b)
    (hp : TypesPlain (.node kind (front ++ u :: back))) :
    (node kind (front ++ u' :: back)).isOwn typeName =
      (node kind (front ++ u :: back)).isOwn typeName := by
  rw [isOwn, isOwn]
  by_cases hk : kind = .implItem
  · subst hk
    rw [types_swap (h.kind?_eq hi)
      (hp.not_type hi.left (h.mem_parts a (mem_parts_self hi.left)))]
    rfl
  · have hk' (cs : List Tree) : (node kind cs).kind? ≠ some .implItem :=
      fun h => hk (Option.some.inj h)
    simp [hk']

/-- What is seen in the impls of a tree after one of them has been swapped. -/
theorem Swaps.seen_perm {more : List β} (h : Swaps p a b n t t') (hi : Impls typeName a b)
    (hsee : Steady typeName see) (hp : TypesPlain t)
    (hab : (seen see typeName b.parts).Perm (seen see typeName a.parts ++ more)) :
    (seen see typeName t'.parts).Perm (seen see typeName t.parts ++ more) := by
  induction h with
  | here => exact hab
  | @inside n u u' kind front back h ih =>
    have hown := h.isOwn_eq hi hp
    have hitems := h.items_eq hi hsee kind front back
    have hnode : seen see typeName [.node kind (front ++ u' :: back)] =
        seen see typeName [.node kind (front ++ u :: back)] := by
      rw [seen, seen, List.filter_singleton, List.filter_singleton, hown]
      cases isOwn typeName (node kind (front ++ u :: back)) with
      | false => rfl
      | true => simpa using hitems
    have hcut (v : Tree) : seen see typeName (node kind (front ++ v :: back)).parts =
        seen see typeName [.node kind (front ++ v :: back)] ++
          (seen see typeName (partsAll front) ++
            (seen see typeName v.parts ++ seen see typeName (partsAll back))) := by
      rw [parts, partsAll_append, partsAll, ← List.singleton_append, seen_append, seen_append,
        seen_append]
    rw [hcut, hcut, hnode]
    simp only [List.append_assoc]
    refine .append_left _ (.append_left _ ?_)
    refine ((ih hp.child).append_right _).trans ?_
    rw [List.append_assoc]
    exact .append_left _ List.perm_append_comm

/-- An impl in whose types no impl stands can take the place of another one. -/
theorem Swaps.typesPlain (h : Swaps p a b n t t') (hi : Impls typeName a b) (hp : TypesPlain t)
    (hb : TypesPlain b) : TypesPlain t' := by
  induction h with
  | here => exact hb
  | @inside n u u' kind front back h ih =>
    intro x hx hk c hc
    rw [parts, partsAll_append, partsAll] at hx
    rcases List.mem_cons.1 hx with rfl | hx
    · obtain rfl : kind = .implItem := Option.some.inj hk
      rw [types_swap (h.kind?_eq hi)
        (hp.not_type hi.left (h.mem_parts a (mem_parts_self hi.left)))] at hc
      exact hp _ (List.mem_cons_self ..) rfl c hc
    · have hold (hx : x ∈ partsAll front ∨ x ∈ partsAll back) :
          x ∈ (node kind (front ++ u :: back)).parts := by
        rw [parts, partsAll_append, partsAll]
        rcases hx with hx | hx <;> simp [hx]
      rcases List.mem_append.1 hx with hx | hx
      · exact hp x (hold (.inl hx)) hk c hc
      · rcases List.mem_append.1 hx with hx | hx
        · exact ih hp.child x hx hk c hc
        · exact hp x (hold (.inr hx)) hk c hc

end Tree

end Docsmith.Source

namespace Docsmith.Description

open Docsmith.Source

theorem declaredIn_eq (impls : List Located) :
    declaredIn impls = impls.flatMap fun l => l.tree.items.filterMap Tree.constant? := by
  induction impls with
  | nil => rfl
  | cons l impls ih =>
    rw [List.flatMap_cons, ← ih, l.filterMap_items_tree, declaredIn, declaredIn, List.filterMap_cons]
    cases l.child? .assocItemList with
    | none => rfl
    | some list => exact List.flatMap_cons

theorem map_tree_ownImpls (f : File) (typeName : String) :
    (f.ownImpls typeName).map (·.tree) = f.tree.parts.filter (Tree.isOwn typeName) := by
  rw [← Tree.map_tree_nodesFrom 0, List.filter_map, File.ownImpls, File.nodesOf, List.filter_filter]
  refine congrArg (List.map _) (congrArg (List.filter · _) (funext fun l => ?_))
  rw [Function.comp_apply, Located.isOwn_tree, Bool.and_comm]

theorem declared_eq (source typeName : String) : declared source typeName =
    Tree.seen Tree.constant? typeName (File.read source).tree.parts := by
  rw [Tree.seen, ← map_tree_ownImpls, List.flatMap_map, declared, declaredIn_eq]

theorem isName_of_isIdentifier {name : String} (h : Token.IsIdentifier name) :
    Tree.isName name = true := by
  rw [Tree.isName, decide_eq_true_eq]
  exact fun hb => h.not_stop _ hb (by decide)

/-- In a file without a fault all that is declared are names. -/
theorem declared_eq_names {source : String} (hw : File.WellFormed source) (typeName : String) :
    declared source typeName = Tree.seen (fun t => t.constant?.filter Tree.isName) typeName
      (File.read source).tree.parts := by
  rw [declared_eq, Tree.seen, Tree.seen]
  refine List.flatMap_congr fun impl himpl => List.filterMap_congr fun item hitem => ?_
  cases hc : item.constant? with
  | none => rfl
  | some name =>
    refine (Option.filter_eq_some_iff.2 ⟨rfl, isName_of_isIdentifier ?_⟩).symm
    rw [Tree.items] at hitem
    obtain ⟨list, hlist, hitem⟩ : ∃ list, impl.child? .assocItemList = some list ∧
        item ∈ list.children := by
      cases hl : impl.child? .assocItemList with
      | none => simp [hl] at hitem
      | some list => exact ⟨list, rfl, by simpa [hl] using hitem⟩
    rw [Tree.constant?] at hc
    split at hc
    · rename_i hk
      obtain ⟨x, hx, rfl⟩ := Option.map_eq_some_iff.1 hc
      have hlist := Tree.mem_parts_of_child? hlist (List.mem_filter.1 himpl).1
      have hitem := Tree.mem_parts_of_mem_children hitem (Tree.mem_parts_self hk) hlist
      have hkx : x.kind? = some .name := by simpa using List.find?_some hx
      exact File.isIdentifier_of_mem_parts hw (Tree.mem_parts_of_child? hx hitem) hkx
    · cases hc

end Docsmith.Description
