import Docsmith.Discovery.Leaves
import Docsmith.Proofs.Metadata.Contents

/-!
# What a walk reaches

Which references and which leaves a root leads to, said without the order of visits or the types
expanded so far: `Reaches` and `IsLeaf` are least fixpoints over the types of a session, which may
refer to each other in circles. A walk finds just those leaves:

* `walk_sound`: a walk adds leaves of its root only;
* `walk_covers`: the references of a walk lie in a set of references that is closed under leading
  on, and whose leaves it has found;
* `addLeaves_eq_fixpoint`: the two together, with what distinguishes a set of leaves from a list.
-/

namespace Docsmith.Discovery

open Docsmith.Metadata

variable {o : Ownership} {s : Session} {root : TypeReference}

/-! ## The fixpoint -/

/-- A name that stands for an owned type. -/
structure Resolves (o : Ownership) (s : Session) (name : String) (d : DescribedType) : Prop where
  found : s.find? name = some d
  owned : o.holdsModule d.module = true

/-- The references a root leads to. A generic one leads to its arguments, the name of an owned
structured type to its base and its properties, an array nowhere. -/
inductive Reaches (o : Ownership) (s : Session) (root : TypeReference) : TypeReference → Prop
  | root : Reaches o s root root
  | argument {name : String} {args : List TypeReference} {t : TypeReference} :
      Reaches o s root (.generic name args) → t ∈ args → Reaches o s root t
  | base {name : String} {d : DescribedType} {t : TypeReference} :
      Reaches o s root (.named name) → Resolves o s name d → d.kind = .structured →
      d.base = some t → Reaches o s root t
  | property {name : String} {d : DescribedType} {p : Property} :
      Reaches o s root (.named name) → Resolves o s name d → d.kind = .structured →
      p ∈ d.properties → Reaches o s root p.type

/-- The leaves of a root: the owned structured types named by what it leads to, and the owned types
that are elements of arrays there. -/
inductive IsLeaf (o : Ownership) (s : Session) (root : TypeReference) : DescribedType → Prop
  | expanded {name : String} {d : DescribedType} :
      Reaches o s root (.named name) → Resolves o s name d → d.kind = .structured →
      IsLeaf o s root d
  | element {name : String} {d : DescribedType} :
      Reaches o s root (.array (.named name)) → Resolves o s name d → IsLeaf o s root d

theorem Reaches.successor {name : String} {d : DescribedType} {t : TypeReference}
    (h : Reaches o s root (.named name)) (hd : Resolves o s name d) (hk : d.kind = .structured)
    (ht : t ∈ successors d) : Reaches o s root t := by
  rcases List.mem_append.1 ht with hb | hp
  · exact h.base hd hk (by simpa using hb)
  · obtain ⟨p, hp', rfl⟩ := List.mem_map.1 hp
    exact h.property hd hk hp'

theorem Reaches.trans {t u : TypeReference} (h : Reaches o s root t) (hu : Reaches o s t u) :
    Reaches o s root u := by
  induction hu with
  | root => exact h
  | argument _ ht ih => exact ih.argument ht
  | base _ hd hk hb ih => exact ih.base hd hk hb
  | property _ hd hk hp ih => exact ih.property hd hk hp

theorem IsLeaf.of_reaches {t : TypeReference} {d : DescribedType} (h : Reaches o s root t)
    (hd : IsLeaf o s t d) : IsLeaf o s root d := by
  cases hd with
  | expanded hr hd hk => exact .expanded (h.trans hr) hd hk
  | element hr hd => exact .element (h.trans hr) hd

theorem IsLeaf.owned {d : DescribedType} (h : IsLeaf o s root d) :
    o.holdsModule d.module = true := by
  cases h with
  | expanded _ hd _ => exact hd.owned
  | element _ hd => exact hd.owned

/-! ## Ownership of references -/

theorem owns_named {name : String} :
    o.owns s (.named name) = true ↔ ∃ d, Resolves o s name d := by
  rw [Ownership.owns, Option.any_eq_true]
  exact ⟨fun ⟨d, hd, ho⟩ => ⟨d, hd, ho⟩, fun ⟨d, hd⟩ => ⟨d, hd.found, hd.owned⟩⟩

theorem ownsAny_of_mem {t : TypeReference} {ts : List TypeReference} (ht : t ∈ ts)
    (h : o.owns s t = true) : o.ownsAny s ts = true := by
  induction ts with
  | nil => simp at ht
  | cons u ts ih =>
    rw [Ownership.ownsAny, Bool.or_eq_true]
    rcases List.mem_cons.1 ht with rfl | ht
    · exact .inl h
    · exact .inr (ih ht)

/-- What is not owned has no owned argument. -/
theorem not_owns_argument {name : String} {args : List TypeReference} {t : TypeReference}
    (h : ¬o.owns s (.generic name args) = true) (ht : t ∈ args) : ¬o.owns s t = true :=
  fun ho => h (by rw [Ownership.owns]; exact ownsAny_of_mem ht ho)

/-! ## Sets of leaves -/

theorem mem_addLeaf_of_mem {leaves : List DescribedType} {d e : DescribedType} (h : e ∈ leaves) :
    e ∈ addLeaf leaves d := by
  unfold addLeaf
  split
  · exact h
  · exact List.mem_append_left _ h

theorem mem_addLeaf {leaves : List DescribedType} {d e : DescribedType} (h : e ∈ addLeaf leaves d) :
    e ∈ leaves ∨ e = d := by
  unfold addLeaf at h
  split at h
  · exact .inl h
  · simpa using h

/-- A type is among the leaves once it is added, as no other type has its name. -/
theorem mem_addLeaf_self {leaves : List DescribedType} {d : DescribedType}
    (hl : ∀ e ∈ leaves, e ∈ s.types) (hd : d ∈ s.types) : d ∈ addLeaf leaves d := by
  unfold addLeaf
  split
  · rename_i h
    obtain ⟨e, he, hn⟩ := List.any_eq_true.1 h
    rwa [← eq_of_name_eq (hl e he) hd (by simpa using hn)]
  · simp

theorem nodup_append {ds : List DescribedType} {d : DescribedType} (h : (ds.map (·.name)).Nodup)
    (hd : ds.any (·.name = d.name) = false) : ((ds ++ [d]).map (·.name)).Nodup := by
  rw [List.map_append]
  refine List.nodup_append.2 ⟨h, by simp, fun x hx y hy e => ?_⟩
  simp only [List.map_cons, List.map_nil, List.mem_singleton] at hy
  obtain ⟨t, ht, rfl⟩ := List.mem_map.1 hx
  simp only [List.any_eq_false, decide_eq_true_eq] at hd
  exact hd t ht (e.trans hy)

theorem nodup_addLeaf {leaves : List DescribedType} {d : DescribedType}
    (h : (leaves.map (·.name)).Nodup) : ((addLeaf leaves d).map (·.name)).Nodup := by
  unfold addLeaf
  split
  · exact h
  · rename_i hn
    exact nodup_append h ((Bool.not_eq_true _).mp hn)

/-! ## Walks -/

/-- What becomes of a reference in a walk that leads on from the references `seen` only, finds
`leaves` and takes the types `expanded` for expanded from the start. -/
def Settled (o : Ownership) (s : Session) (leaves : List DescribedType) (expanded : List String)
    (seen : TypeReference → Prop) : TypeReference → Prop
  | .generic _ args => ∀ t ∈ args, seen t
  | .array element => ∀ name d, element = .named name → Resolves o s name d → d ∈ leaves
  | .named name => ∀ d, Resolves o s name d → d.kind = .structured →
      d.name ∈ expanded ∨ d ∈ leaves ∧ ∀ t ∈ successors d, seen t

/-- The references `todo`, and those that are not owned, are among some in which all are settled. -/
def Covers (o : Ownership) (s : Session) (leaves : List DescribedType) (expanded : List String)
    (todo : List TypeReference) : Prop :=
  ∃ seen : TypeReference → Prop, (∀ t ∈ todo, seen t) ∧ (∀ t, ¬o.owns s t = true → seen t) ∧
    ∀ t, seen t → Settled o s leaves expanded seen t

variable {leaves : List DescribedType} {expanded : List String} {todo rest : List TypeReference}

theorem Settled.mono {seen seen' : TypeReference → Prop} (h : ∀ t, seen t → seen' t)
    {t : TypeReference} (ht : Settled o s leaves expanded seen t) :
    Settled o s leaves expanded seen' t := by
  cases t with
  | generic name args => exact fun u hu => h u (ht u hu)
  | array element => exact ht
  | named name =>
    intro d hd hk
    exact (ht d hd hk).imp_right fun ⟨hl, hs⟩ => ⟨hl, fun u hu => h u (hs u hu)⟩

theorem not_owns_settled {t : TypeReference} (h : ¬o.owns s t = true) :
    Settled o s leaves expanded (fun u => ¬o.owns s u = true) t := by
  cases t with
  | generic name args => exact fun u hu => not_owns_argument h hu
  | array element =>
    rintro name d rfl hd
    rw [Ownership.owns] at h
    exact absurd (owns_named.2 ⟨d, hd⟩) h
  | named name => exact fun d hd _ => absurd (owns_named.2 ⟨d, hd⟩) h

theorem Covers.nil : Covers o s leaves expanded [] :=
  ⟨fun t => ¬o.owns s t = true, by simp, fun _ h => h, fun _ => not_owns_settled⟩

/-- A reference that is settled by what is covered already can be put in front. -/
theorem Covers.cons {t : TypeReference} (h : Covers o s leaves expanded todo)
    (hr : ∀ u ∈ rest, u ∈ todo)
    (ht : ∀ seen, (∀ u ∈ todo, seen u) → Settled o s leaves expanded seen t) :
    Covers o s leaves expanded (t :: rest) := by
  obtain ⟨seen, hs, hf, hc⟩ := h
  refine ⟨fun u => seen u ∨ u = t, fun u hu => ?_, fun u hu => .inl (hf u hu), fun u hu => ?_⟩
  · exact (List.mem_cons.1 hu).elim .inr fun hu => .inl (hs u (hr u hu))
  · refine Settled.mono (fun _ => .inl) ?_
    rcases hu with hu | rfl
    · exact hc u hu
    · exact ht seen hs

/-- A type whose base and properties are covered need not be taken for expanded. -/
theorem Covers.expand {d : DescribedType} (hd : d ∈ s.types) (hl : d ∈ leaves)
    (h : Covers o s leaves (d.name :: expanded) (successors d ++ rest)) :
    Covers o s leaves expanded (successors d ++ rest) := by
  obtain ⟨seen, hs, hf, hc⟩ := h
  refine ⟨seen, hs, hf, fun t ht => ?_⟩
  have h := hc t ht
  cases t with
  | generic name args => exact h
  | array element => exact h
  | named name =>
    intro e he hk
    rcases h e he hk with hn | h
    · rcases List.mem_cons.1 hn with hn | hn
      · obtain rfl := eq_of_name_eq (Session.mem_of_find? he.found) hd hn
        exact .inr ⟨hl, fun u hu => hs u (List.mem_append_left _ hu)⟩
      · exact .inl hn
    · exact .inr h

theorem walk_mono (todo : List TypeReference) (leaves : List DescribedType)
    (expanded : List String) : ∀ d ∈ leaves, d ∈ walk o s todo leaves expanded := by
  fun_induction walk o s todo leaves expanded with
  | case1 => exact fun _ hd => hd
  | case3 _ _ _ _ _ _ _ ih => exact fun d hd => ih d (mem_addLeaf_of_mem hd)
  | case7 _ _ _ _ _ _ _ _ _ ih => exact fun d hd => ih d (mem_addLeaf_of_mem hd)
  | _ => assumption

theorem nodup_walk (todo : List TypeReference) (leaves : List DescribedType)
    (expanded : List String) (h : (leaves.map (·.name)).Nodup) :
    ((walk o s todo leaves expanded).map (·.name)).Nodup := by
  fun_induction walk o s todo leaves expanded with
  | case1 => exact h
  | case3 _ _ _ _ _ _ _ ih => exact ih (nodup_addLeaf h)
  | case7 _ _ _ _ _ _ _ _ _ ih => exact ih (nodup_addLeaf h)
  | _ => rename_i ih; exact ih h

theorem named_of_resolve? {t : TypeReference} {d : DescribedType} (h : s.resolve? t = some d) :
    ∃ name, t = .named name ∧ s.find? name = some d := by
  cases t with
  | named name => exact ⟨name, rfl, h⟩
  | generic name args => simp [Session.resolve?] at h
  | array element => simp [Session.resolve?] at h

/-- A walk over references its root leads to finds leaves of the root only. -/
theorem walk_sound (todo : List TypeReference) (leaves : List DescribedType)
    (expanded : List String) (ht : ∀ t ∈ todo, Reaches o s root t)
    (hl : ∀ d ∈ leaves, IsLeaf o s root d) :
    ∀ d ∈ walk o s todo leaves expanded, IsLeaf o s root d := by
  fun_induction walk o s todo leaves expanded with
  | case1 => exact hl
  | case2 leaves expanded rest name args _ ih =>
    have hr := ht _ (List.mem_cons_self ..)
    refine ih (fun t h => ?_) hl
    rcases List.mem_append.1 h with h | h
    · exact hr.argument h
    · exact ht t (List.mem_cons_of_mem _ h)
  | case3 leaves expanded rest element d hd ho ih =>
    have hr := ht _ (List.mem_cons_self ..)
    obtain ⟨name, rfl, hd⟩ := named_of_resolve? hd
    obtain ⟨d', hd'⟩ := owns_named.1 (by rwa [Ownership.owns] at ho)
    obtain rfl : d' = d := Option.some.inj (hd'.found.symm.trans hd)
    refine ih (fun t h => ht t (List.mem_cons_of_mem _ h)) fun e he => ?_
    rcases mem_addLeaf he with he | rfl
    · exact hl e he
    · exact .element hr hd'
  | case7 leaves expanded rest name d hd hk _ ho ih =>
    have hr := ht _ (List.mem_cons_self ..)
    obtain ⟨d', hd'⟩ := owns_named.1 ho
    obtain rfl : d' = d := Option.some.inj (hd'.found.symm.trans hd)
    refine ih (fun t h => ?_) fun e he => ?_
    · rcases List.mem_append.1 h with h | h
      · exact hr.successor hd' hk h
      · exact ht t (List.mem_cons_of_mem _ h)
    · rcases mem_addLeaf he with he | rfl
      · exact hl e he
      · exact .expanded hr hd' hk
  | _ => rename_i ih; exact ih (fun t h => ht t (List.mem_cons_of_mem _ h)) hl

/-- When a walk has ended, its references are covered by the leaves it has found. -/
theorem walk_covers (todo : List TypeReference) (leaves : List DescribedType)
    (expanded : List String) (hl : ∀ d ∈ leaves, d ∈ s.types) :
    Covers o s (walk o s todo leaves expanded) expanded todo := by
  fun_induction walk o s todo leaves expanded with
  | case1 leaves expanded => exact .nil
  | case2 leaves expanded rest name args _ ih =>
    exact (ih hl).cons (fun t h => List.mem_append_right _ h)
      fun seen hs t ht => hs t (List.mem_append_left _ ht)
  | case3 leaves expanded rest element d hd _ ih =>
    obtain ⟨name, rfl, hd⟩ := named_of_resolve? hd
    have hd' := Session.mem_of_find? hd
    refine (ih fun e he => ?_).cons (fun _ h => h) fun seen _ name' e hn he => ?_
    · rcases mem_addLeaf he with he | rfl
      · exact hl e he
      · exact hd'
    · obtain rfl := TypeReference.named.inj hn
      obtain rfl : d = e := Option.some.inj (hd.symm.trans he.found)
      exact walk_mono _ _ _ _ (mem_addLeaf_self hl hd')
  | case4 leaves expanded rest element hd _ ih =>
    refine (ih hl).cons (fun _ h => h) fun seen _ name e hn he => ?_
    subst hn
    exact absurd (he.found.symm.trans hd) (by simp)
  | case5 leaves expanded rest name hd _ ih =>
    exact (ih hl).cons (fun _ h => h)
      fun seen _ e he => absurd (he.found.symm.trans hd) (by simp)
  | case6 leaves expanded rest name d hd _ hn _ ih =>
    refine (ih hl).cons (fun _ h => h) fun seen _ e he _ => .inl ?_
    obtain rfl : d = e := Option.some.inj (hd.symm.trans he.found)
    simpa using hn
  | case7 leaves expanded rest name d hd _ _ _ ih =>
    have hd' := Session.mem_of_find? hd
    have hm := mem_addLeaf_self hl hd'
    have hc := (ih fun e he => (mem_addLeaf he).elim (hl e) fun h => h ▸ hd').expand hd'
      (walk_mono _ _ _ _ hm)
    refine hc.cons (fun t h => List.mem_append_right _ h) fun seen hs e he _ => .inr ?_
    obtain rfl : d = e := Option.some.inj (hd.symm.trans he.found)
    exact ⟨walk_mono _ _ _ _ hm, fun t ht => hs t (List.mem_append_left _ ht)⟩
  | case8 leaves expanded rest name d hd hk _ ih =>
    refine (ih hl).cons (fun _ h => h) fun seen _ e he hk' => ?_
    obtain rfl : d = e := Option.some.inj (hd.symm.trans he.found)
    exact absurd hk' hk
  | case9 leaves expanded t rest ho ih =>
    obtain ⟨seen, hs, hf, hc⟩ := ih hl
    refine ⟨seen, fun u h => ?_, hf, hc⟩
    rcases List.mem_cons.1 h with rfl | h
    · exact hf u ho
    · exact hs u h

/-- Where nothing is taken for expanded, all that a covered root leads to is covered, and its
leaves have been found. -/
theorem Covers.mem_of_isLeaf (h : Covers o s leaves [] [root]) {d : DescribedType}
    (hd : IsLeaf o s root d) : d ∈ leaves := by
  obtain ⟨seen, hs, -, hc⟩ := h
  have hr : ∀ t, Reaches o s root t → seen t := by
    intro t ht
    induction ht with
    | root => exact hs root (List.mem_singleton_self _)
    | argument _ ht ih => exact hc _ ih _ ht
    | base _ hd hk hb ih =>
      exact ((hc _ ih _ hd hk).resolve_left (by simp)).2 _ (List.mem_append_left _ (by simp [hb]))
    | property _ hd hk hp ih =>
      exact ((hc _ ih _ hd hk).resolve_left (by simp)).2 _
        (List.mem_append_right _ (List.mem_map_of_mem hp))
  cases hd with
  | expanded ht hd hk => exact ((hc _ (hr _ ht) _ hd hk).resolve_left (by simp)).1
  | element ht hd => exact hc _ (hr _ ht) _ _ rfl hd

/-! ## What is collected -/

theorem mem_addLeaves (d : DescribedType) : d ∈ addLeaves o s root [] ↔ IsLeaf o s root d := by
  refine ⟨walk_sound [root] [] [] (fun t ht => ?_) (by simp) d, fun h => ?_⟩
  · rw [List.mem_singleton.1 ht]
    exact .root
  · exact (walk_covers [root] [] [] (by simp)).mem_of_isLeaf h

/-- The leaves collected from a root, starting with none, are those of the least fixpoint. In
particular all that the base and the properties of a type lead to is collected once the type is
named outside of arrays, wherever else it occurs. All leaves are owned, each occurs once, and it is
found under its own name. -/
theorem addLeaves_eq_fixpoint (o : Ownership) (s : Session) (root : TypeReference) :
    (∀ d, d ∈ addLeaves o s root [] ↔ IsLeaf o s root d) ∧
    (∀ name d, Reaches o s root (.named name) → Resolves o s name d → d.kind = .structured →
      ∀ t ∈ successors d, ∀ e ∈ addLeaves o s t [], e ∈ addLeaves o s root []) ∧
    (∀ d ∈ addLeaves o s root [], o.holdsModule d.module = true ∧
      (addLeaves o s root []).find? (·.name = d.name) = some d) ∧
    ((addLeaves o s root []).map (·.name)).Nodup := by
  have hn : ((addLeaves o s root []).map (·.name)).Nodup := nodup_walk _ _ _ .nil
  refine ⟨mem_addLeaves, fun name d hr hd hk t ht e he => ?_, fun d hd => ?_, hn⟩
  · rw [mem_addLeaves] at he ⊢
    exact he.of_reaches (hr.successor hd hk ht)
  · exact ⟨((mem_addLeaves d).1 hd).owned, find?_of_mem_nodup hn hd⟩

/-- A structured type without a base and properties leads to nothing but itself. -/
theorem addLeaves_of_resolves {name : String} {d : DescribedType} (h : Resolves o s name d)
    (hk : d.kind = .structured) (hs : successors d = []) (leaves : List DescribedType) :
    addLeaves o s (.named name) leaves = addLeaf leaves d := by
  rw [addLeaves, walk, if_pos (owns_named.2 ⟨d, h⟩)]
  split
  · rename_i hn
    exact absurd (h.found.symm.trans hn) (by simp)
  · rename_i e he
    obtain rfl : d = e := Option.some.inj (h.found.symm.trans he)
    rw [if_pos hk, dif_neg (by simp), hs, List.nil_append, walk]

end Docsmith.Discovery
