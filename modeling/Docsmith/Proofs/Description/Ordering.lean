import Docsmith.Proofs.Description.Places
import Mathlib.Data.List.Nodup

/-!
# The order of constants

The constants of new attributes are returned in the order in which their places are visited. That is
the order of the text, unless a place is visited before a constant that stands first in the text: a
field before the parameters of an impl that stands in front of its structure, or a member of an item
before the members of an item within that one.

* `annotate_ordered_iff`: when the constants are returned in the order of the text;
* `annotate_parameter_first`: a document where they are not.
-/

namespace Docsmith.Description

open Docsmith.Source

/-! ## First occurrences -/

theorem idxOf_filter_lt_iff {p : String → Bool} {c d : String} (hc : p c = true) (hd : p d = true)
    (l : List String) :
    (l.filter p).idxOf c < (l.filter p).idxOf d ↔ l.idxOf c < l.idxOf d := by
  induction l with
  | nil => rfl
  | cons x l ih =>
    by_cases hx : p x = true
    · rw [List.filter_cons_of_pos hx]
      simp only [List.idxOf_cons]
      cases x == c <;> cases x == d <;> simp [ih]
    · have hxc : x ≠ c := fun h => hx (h.symm ▸ hc)
      have hxd : x ≠ d := fun h => hx (h.symm ▸ hd)
      rw [List.filter_cons_of_neg hx, List.idxOf_cons_ne _ hxc, List.idxOf_cons_ne _ hxd,
        Nat.succ_lt_succ_iff, ih]

/-- Names that are left once each keep the order of their first occurrences. -/
theorem idxOf_eraseDups_lt_iff (c d : String) (l : List String) :
    l.eraseDups.idxOf c < l.eraseDups.idxOf d ↔ l.idxOf c < l.idxOf d := by
  induction hn : l.length using Nat.strongRecOn generalizing l with
  | ind n ih =>
    cases l with
    | nil => rfl
    | cons x l =>
      rw [List.eraseDups_cons, List.idxOf_cons, List.idxOf_cons, List.idxOf_cons, List.idxOf_cons]
      cases hc : x == c <;> cases hd : x == d <;> try simp
      have hxc : (!c == x) = true := by rw [BEq.comm, hc]; rfl
      have hxd : (!d == x) = true := by rw [BEq.comm, hd]; rfl
      have hlt : (l.filter fun y => !y == x).length < n :=
        hn ▸ Nat.lt_succ_of_le (List.length_filter_le ..)
      rw [ih _ hlt _ rfl, idxOf_filter_lt_iff hxc hxd]

/-- The first comes before the second and before all others of its constant. -/
def Ahead (ps : List Place) (p q : Place) : Prop :=
  p.constant ≠ q.constant ∧
    ∃ front back, ps = front ++ p :: back ∧ q ∈ back ∧ ∀ r ∈ front, r.constant ≠ q.constant

variable {ps qs : List Place} {p q : Place} {c d : String}

theorem Ahead.idxOf_lt (h : Ahead ps p q) :
    (ps.map Place.constant).idxOf p.constant < (ps.map Place.constant).idxOf q.constant := by
  obtain ⟨hne, front, back, rfl, -, hfront⟩ := h
  have hq : q.constant ∉ (front ++ [p]).map Place.constant := by
    rw [List.mem_map]
    rintro ⟨r, hr, he⟩
    rcases List.mem_append.1 hr with hr | hr
    · exact hfront r hr he
    · exact hne (List.mem_singleton.1 hr ▸ he)
  have hp : p.constant ∈ (front ++ [p]).map Place.constant :=
    List.mem_map_of_mem (List.mem_append_right _ (List.mem_singleton_self p))
  rw [List.append_cons, List.map_append, List.idxOf_append_of_mem hp,
    List.idxOf_append_of_notMem hq]
  exact (List.idxOf_lt_length_of_mem hp).trans_le (Nat.le_add_right ..)

/-- Of a constant that occurs before another one, some place comes before all of that. -/
theorem exists_ahead (h : (ps.map Place.constant).idxOf c < (ps.map Place.constant).idxOf d) :
    ∃ p ∈ ps, p.constant = c ∧ ∀ q ∈ ps, q.constant = d → Ahead ps p q := by
  have hc : c ∈ ps.map Place.constant := List.idxOf_lt_length_iff.1 (h.trans_le List.idxOf_le_length)
  obtain ⟨cs, ds, hps, hcs⟩ := List.eq_append_cons_of_mem hc
  have hd : d ∉ cs ++ [c] := by
    intro hd
    rw [hps, List.append_cons, List.idxOf_append_of_mem hd, List.idxOf_append_of_mem (by simp),
      List.idxOf_append_of_notMem hcs, List.idxOf_cons_self, Nat.add_zero] at h
    have hd := List.idxOf_lt_length_of_mem hd
    rw [List.length_append, List.length_singleton] at hd
    omega
  rw [List.mem_append, List.mem_singleton, not_or] at hd
  obtain ⟨front, rest, rfl, rfl, hrest⟩ := List.map_eq_append_iff.1 hps
  obtain ⟨p, back, rfl, rfl, rfl⟩ := List.map_eq_cons_iff.1 hrest
  refine ⟨p, by simp, rfl, fun q hq hqd => ⟨fun he => hd.2 (hqd ▸ he.symm), front, back, rfl, ?_, ?_⟩⟩
  · rcases List.mem_append.1 hq with hq | hq
    · exact absurd (List.mem_map_of_mem hq) (hqd ▸ hd.1)
    · rcases List.mem_cons.1 hq with rfl | hq
      · exact absurd hqd.symm hd.2
      · exact hq
  · exact fun r hr he => hd.1 (List.mem_map.2 ⟨r, hr, he.trans hqd⟩)

/-- A constant precedes another one in one list exactly if its first occurrence in the other list
does. -/
def InOrderOf (constants names : List String) : Prop :=
  ∀ c ∈ constants, ∀ d ∈ constants,
    constants.idxOf c < constants.idxOf d ↔ names.idxOf c < names.idxOf d

/-- Constants that are ordered one way by some places and not so by others show two places. -/
theorem exists_crossing (hperm : qs.Perm ps) (hd : d ∈ ps.map Place.constant)
    (h : (ps.map Place.constant).idxOf c < (ps.map Place.constant).idxOf d)
    (hn : ¬ (qs.map Place.constant).idxOf c < (qs.map Place.constant).idxOf d) :
    ∃ p q, Ahead ps p q ∧ Ahead qs q p := by
  have hd' : d ∈ qs.map Place.constant := (hperm.map _).mem_iff.2 hd
  have hlt : (qs.map Place.constant).idxOf d < (qs.map Place.constant).idxOf c := by
    refine lt_of_le_of_ne (not_lt.1 hn) fun he => ?_
    rw [List.idxOf_inj hd'] at he
    exact absurd h (he ▸ lt_irrefl _)
  obtain ⟨p, hp, rfl, hahead⟩ := exists_ahead h
  obtain ⟨q, hq, rfl, hahead'⟩ := exists_ahead hlt
  exact ⟨p, q, hahead q (hperm.mem_iff.1 hq) rfl, hahead' p (hperm.mem_iff.2 hp) rfl⟩

/-- The constants of places, once each, are in the order of the same places in another order, unless
a place is ahead of another one that is ahead of it there. -/
theorem inOrderOf_iff (hperm : qs.Perm ps) :
    InOrderOf (ps.map Place.constant).eraseDups (qs.map Place.constant) ↔
      ∀ p q, Ahead ps p q → ¬ Ahead qs q p := by
  constructor
  · intro h p q hp hq
    have hmem : p.constant ∈ (ps.map Place.constant).eraseDups ∧
        q.constant ∈ (ps.map Place.constant).eraseDups := by
      obtain ⟨-, front, back, rfl, hq, -⟩ := hp
      simp only [List.mem_eraseDups]
      exact ⟨List.mem_map_of_mem (by simp), List.mem_map_of_mem (by simp [hq])⟩
    have hlt := (h _ hmem.1 _ hmem.2).1 ((idxOf_eraseDups_lt_iff ..).2 hp.idxOf_lt)
    exact lt_asymm hlt hq.idxOf_lt
  · intro h c hc d hd
    rw [List.mem_eraseDups] at hc hd
    rw [idxOf_eraseDups_lt_iff]
    refine ⟨fun hlt => ?_, fun hlt => ?_⟩ <;> by_contra hn
    · obtain ⟨p, q, hp, hq⟩ := exists_crossing hperm hd hlt hn
      exact h p q hp hq
    · obtain ⟨q, p, hq, hp⟩ := exists_crossing hperm.symm ((hperm.map _).mem_iff.2 hd) hlt hn
      exact h p q hp hq

/-! ## Constants of new attributes -/

/-- The constants are returned in the order of the text exactly if no place that is visited ahead of
another one stands behind it. Where one does, it is a field and the other one a parameter, or the
structure or impl of the other stands within its own. -/
theorem annotate_ordered_iff (o : MarkOptions) (source : String) :
    ∃ ps : List Place, ps.Perm (places o (File.read source)) ∧
      Rewrites (Place.Describes o) 0 source.toList ps (annotate o source).revision.after.toList ∧
      (InOrderOf (annotate o source).constants (ps.map Place.constant) ↔
        ∀ p q, Ahead (places o (File.read source)) p q → ¬ Ahead ps q p) ∧
      ∀ p q, Ahead (places o (File.read source)) p q → Ahead ps q p →
        q.holder.Within p.holder ∨
          (p.holder.is .structItem = true ∧ q.holder.is .implItem = true) := by
  obtain ⟨ps, hperm, hsorted, hr, hconstants⟩ := annotate_at_places o source
  refine ⟨ps, hperm, hr, ?_, ?_⟩
  · rw [hconstants]
    exact inOrderOf_iff hperm
  · rintro p q ⟨-, front, back, hvisited, hq, -⟩ ⟨-, front', back', rfl, hp, -⟩
    have hrel := pairwise_places (o := o) (File.sound_read source)
    rw [hvisited] at hrel
    have hvisit := (List.pairwise_cons.1 (List.pairwise_append.1 hrel).2.1).1 q hq
    have hstand := (List.pairwise_cons.1 (List.pairwise_append.1 hsorted).2.1).1 p hp
    exact hvisit.resolve_left (Nat.not_lt.2 hstand)

/-- Places that stand one behind the other are told by their positions. -/
theorem map_constant_of_sorted (names : List (String × Nat)) (hperm : qs.Perm ps)
    (hsorted : qs.Pairwise fun p q => p.position ≤ q.position)
    (hnames : (ps.map fun p => (p.constant, p.position)).Perm names)
    (hlt : names.Pairwise fun a b => a.2 < b.2) :
    qs.map Place.constant = names.map (·.1) := by
  have hp : (qs.map fun p => (p.constant, p.position)).Perm names := (hperm.map _).trans hnames
  have heq : qs.map (fun p => (p.constant, p.position)) = names := by
    refine hp.eq_of_pairwise (fun a b ha hb hab hba => ?_) (List.pairwise_map.2 hsorted)
      (hlt.imp Nat.le_of_lt)
    have hnodup : (names.map (·.2)).Nodup := List.pairwise_map.2 (hlt.imp Nat.ne_of_lt)
    exact List.inj_on_of_nodup_map hnodup (hp.mem_iff.1 ha) hb (Nat.le_antisymm hab hba)
  rw [← heq, List.map_map]
  rfl

/-- An impl with an operation, in front of a structure. -/
def operationFirst : String :=
  "impl C \x7b #[utoipa::path] fn f(a: u8) \x7b\x7d \x7d struct S \x7b b: u8 \x7d"

/-- The field of the structure is visited first, and its attribute stands last. -/
theorem annotate_parameter_first :
    let o : MarkOptions := ⟨"Descriptions", "utoipa::path", true⟩
    let constants := (annotate o operationFirst).constants
    constants = ["SB", "CA"] ∧
      ∃ ps : List Place, ps.Perm (places o (File.read operationFirst)) ∧
        Rewrites (Place.Describes o) 0 operationFirst.toList ps
          (annotate o operationFirst).revision.after.toList ∧
        ps.map Place.constant = ["CA", "SB"] ∧ ¬ InOrderOf constants (ps.map Place.constant) := by
  intro o constants
  have hconstants : constants = ["SB", "CA"] := by decide +kernel
  have hplaces : (places o (File.read operationFirst)).map (fun p => (p.constant, p.position)) =
      [("SB", 53), ("CA", 30)] := by decide +kernel
  obtain ⟨ps, hperm, hsorted, hr, -⟩ := annotate_at_places o operationFirst
  have hnames : ps.map Place.constant = ["CA", "SB"] :=
    map_constant_of_sorted [("CA", 30), ("SB", 53)] hperm hsorted
      (hplaces ▸ List.Perm.swap ..) (by decide)
  refine ⟨hconstants, ps, hperm, hr, hnames, fun h => ?_⟩
  rw [hconstants, hnames] at h
  exact absurd (h "SB" (by simp) "CA" (by simp)) (by decide)

/-- A structure within the type of a field is visited after the structure of that field. -/
example : (annotate .standard
      "struct S \x7b a: [u8; \x7b struct T \x7b x: u8 \x7d 0 \x7d], b: u8 \x7d").constants =
    ["SA", "SB", "TX"] := by decide +kernel

end Docsmith.Description
