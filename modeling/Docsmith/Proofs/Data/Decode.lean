import Docsmith.Data.Bare
import Docsmith.Data.Decode
import Mathlib.Data.List.Nodup

/-!
# What readers read back

Data that was written for a reader is read as what it was written for. The only thing that can stop
a reader is the number of containers it may enter, so each statement is an equation that says what
comes of any such number.

* `Value.nesting`: how many containers nest in data;
* `Reads`: a reader makes a value of data wherever the data may nest so deep;
* `Reads.list`, `Reads.table`: lists and tables of what is read;
* `fields_object`: a record with the fields its reader expects.
-/

namespace Docsmith

/-! ## Tables -/

namespace Table

variable {κ α : Type} [DecidableEq κ]

/-- A table is made of its entries. -/
theorem ofList_entries (t : Table κ α) : ofList t.entries = t := by
  have hfold (es : List (κ × α)) (u : Table κ α) (h : ((u.entries ++ es).map (·.1)).Nodup) :
      (es.foldl (fun t e => t.put e.1 e.2) u).entries = u.entries ++ es := by
    induction es generalizing u with
    | nil => rw [List.foldl_nil, List.append_nil]
    | cons e es ih =>
      have he : e.1 ∉ u.keys := by
        rw [List.map_append, List.nodup_append] at h
        exact fun hk => h.2.2 _ hk _ (List.mem_map_of_mem (List.mem_cons_self ..)) rfl
      have hput := entries_put_of_not_mem e.2 he
      rw [List.foldl_cons, ih _ (by rwa [hput, List.append_assoc]), hput, List.append_assoc]
      rfl
  exact ext (hfold t.entries .empty t.nodup)

end Table

namespace Data

/-! ## Nesting -/

namespace Value

mutual

/-- How many containers nest. -/
def nesting : Value → Nat
  | .list vs => nestingAll vs + 1
  | .record fs => nestingFields fs + 1
  | .tagged _ v | .alias v => nesting v
  | _ => 0

def nestingAll : List Value → Nat
  | [] => 0
  | v :: vs => max (nesting v) (nestingAll vs)

def nestingFields : List (Value × Value) → Nat
  | [] => 0
  | (k, v) :: fs => max (max (nesting k) (nesting v)) (nestingFields fs)

end

theorem nestingAll_le_iff {vs : List Value} {depth : Nat} :
    nestingAll vs ≤ depth ↔ ∀ v ∈ vs, v.nesting ≤ depth := by
  induction vs with
  | nil => simp [nestingAll]
  | cons v vs ih => rw [nestingAll, Nat.max_le, ih, List.forall_mem_cons]

@[simp]
theorem nesting_list {vs : List Value} : (list vs).nesting = nestingAll vs + 1 := by
  rw [nesting]

@[simp]
theorem nesting_string (s : String) : (string s).nesting = 0 := by
  simp [nesting]

/-- The fields of a record with texts for keys nest as their values do. -/
@[simp]
theorem nesting_object (fs : List (String × Value)) :
    (object fs).nesting = nestingAll (fs.map (·.2)) + 1 := by
  rw [object, nesting]
  induction fs with
  | nil => rfl
  | cons f fs ih =>
    rw [List.map_cons, nestingFields, nesting_string, Nat.zero_max, List.map_cons, nestingAll]
    omega

end Value

/-! ## Reading under a condition -/

variable {α β : Type}

/-- A reading that gives a value under a condition. -/
def Reading.fit (p : Prop) [Decidable p] (a : α) : Reading α := if p then pure a else failure

namespace Reading

variable {p q : Prop} [Decidable p] [Decidable q]

theorem fit_congr (h : p ↔ q) (a : α) : fit p a = fit q a := by
  simp only [fit, h]

theorem fit_bind (a : α) (f : α → Reading β) :
    fit p a >>= f = if p then f a else failure := by
  rw [fit]
  split
  · exact pure_bind a f
  · rfl

theorem fit_bind_pure (a : α) (f : α → β) : (fit p a >>= fun a => pure (f a)) = fit p (f a) :=
  fit_bind a fun a => pure (f a)

/-- Conditions that are met in turn are met together. -/
theorem fit_bind_fit (a : α) (b : α → β) :
    (fit p a >>= fun a => fit q (b a)) = fit (p ∧ q) (b a) := by
  rw [fit_bind, fit, fit]
  by_cases hp : p <;> simp [hp]

theorem pure_eq_fit (a : α) : (pure a : Reading α) = fit True a := rfl

theorem enter_fit (depth : Nat) (read : Nat → Reading α) (n : Nat) (a : α)
    (h : ∀ depth, read depth = fit (n ≤ depth) a) : enter depth read = fit (n + 1 ≤ depth) a := by
  cases depth with
  | zero => simp [enter, fit]
  | succ depth =>
    rw [enter, h]
    exact fit_congr Nat.add_le_add_iff_right.symm a

variable {P : α → Prop} [DecidablePred P] {as : List α}

theorem mapM_fit {f : α → Reading β} {g : α → β} (h : ∀ a ∈ as, f a = fit (P a) (g a)) :
    as.mapM f = fit (∀ a ∈ as, P a) (as.map g) := by
  induction as with
  | nil => simp [fit]
  | cons a as ih =>
    rw [List.mapM_cons, h a (List.mem_cons_self ..), ih fun b hb => h b (List.mem_cons_of_mem _ hb)]
    simp only [pure_eq_fit, fit_bind_fit]
    exact fit_congr (by simp) _

theorem foldlM_fit {f : β → α → Reading β} {g : β → α → β}
    (h : ∀ a ∈ as, ∀ b, f b a = fit (P a) (g b a)) (b : β) :
    as.foldlM f b = fit (∀ a ∈ as, P a) (as.foldl g b) := by
  induction as generalizing b with
  | nil => simp [fit]
  | cons a as ih =>
    rw [List.foldlM_cons, h a (List.mem_cons_self ..), fit_bind,
      ih fun b hb => h b (List.mem_cons_of_mem _ hb), List.foldl_cons, fit, fit]
    by_cases ha : P a <;> simp [ha]

end Reading

/-! ## Readers -/

/-- A reader makes a value of data, wherever it may enter as many containers as nest there. -/
def Reads (r : Reader α) (v : Value) (a : α) : Prop :=
  ∀ depth, r depth v = .fit (v.nesting ≤ depth) a

namespace Reads

variable {r : Reader α}

/-- What is no container is read at any depth. -/
theorem of_eq {v : Value} {a : α} (hv : v.nesting = 0) (h : ∀ depth, r depth v = pure a) :
    Reads r v a := by
  intro depth
  rw [h, hv, Reading.pure_eq_fit]
  exact Reading.fit_congr (by simp) a

theorem text (s : String) : Reads Reader.text (.string s) s :=
  of_eq (Value.nesting_string s) fun _ => rfl

theorem bool (b : Bool) : Reads Reader.bool (.bool b) b :=
  of_eq (by simp [Value.nesting]) fun _ => rfl

theorem signed (n : Int64) : Reads Reader.signed (.int n.toInt) n := by
  refine of_eq (by simp [Value.nesting]) fun depth => ?_
  have hn : isSigned64 n.toInt = true := by
    rw [isSigned64, Bool.and_eq_true, decide_eq_true_iff, decide_eq_true_iff]
    exact ⟨n.minValue_le_toInt, n.toInt_le⟩
  calc Reader.signed depth (.int n.toInt)
      = if isSigned64 n.toInt then pure (.ofInt n.toInt) else failure := rfl
    _ = pure n := by rw [if_pos hn, Int64.ofInt_toInt]

theorem map {v : Value} {a : α} (h : Reads r v a) (f : α → β) :
    Reads (fun depth v => do return f (← r depth v)) v (f a) :=
  fun depth => (congrArg (· >>= fun a => pure (f a)) (h depth)).trans (Reading.fit_bind_pure a f)

theorem list {f : α → Value} {as : List α} (h : ∀ a ∈ as, Reads r (f a) a) :
    Reads (.list r) (.list (as.map f)) as := by
  intro depth
  rw [Value.nesting_list]
  refine Reading.enter_fit depth _ _ as fun depth => ?_
  have hm := Reading.mapM_fit (f := r depth ∘ f) (g := id) fun a ha => h a ha depth
  rw [List.mapM_map, hm, List.map_id]
  refine Reading.fit_congr ?_ as
  simp [Value.nestingAll_le_iff]

theorem table {f : α → Value} {t : Table String α} (h : ∀ e ∈ t.entries, Reads r (f e.2) e.2) :
    Reads (.table r) (.object (t.entries.map fun e => (e.1, f e.2))) t := by
  intro depth
  rw [Value.nesting_object]
  refine Reading.enter_fit depth _ _ t fun depth => ?_
  have hput (e : String × α) (he : e ∈ t.entries) (u : Table String α) :
      (do return u.put (← (Value.string e.1).key) (← r depth (f e.2)) : Reading _) =
        .fit ((f e.2).nesting ≤ depth) (u.put e.1 e.2) := by
    rw [h e he depth]
    exact Reading.fit_bind_pure e.2 fun a => u.put e.1 a
  rw [List.map_map, List.foldlM_map]
  refine (Reading.foldlM_fit hput .empty).trans ?_
  rw [show t.entries.foldl (fun u e => u.put e.1 e.2) .empty = t from t.ofList_entries]
  refine Reading.fit_congr ?_ t
  rw [Value.nestingAll_le_iff, List.map_map, List.forall_mem_map]
  rfl

/-- What is given is told from nothing. -/
theorem optional {f : α → Value} {o : Option α} (h : ∀ a ∈ o, Reads r (f a) a)
    (hr : ∀ a ∈ o, (f a).resolved = pure (f a)) (hg : ∀ a ∈ o, (f a).isGiven? = some true) :
    Reads (.optional r) ((o.map f).getD .null) o := by
  cases o with
  | none => exact of_eq (by simp [Value.nesting]) fun _ => rfl
  | some a =>
    intro depth
    rw [Option.map_some, Option.getD_some, Reader.optional, hr a rfl, pure_bind, hg a rfl]
    refine (pure_bind true _).trans ?_
    rw [if_pos rfl, h a rfl]
    exact Reading.fit_bind_pure a some

end Reads

/-! ## Records -/

theorem mapM_eq_some {f : α → Option β} {g : α → β} {as : List α}
    (h : ∀ a ∈ as, f a = some (g a)) : as.mapM f = some (as.map g) := by
  induction as with
  | nil => rfl
  | cons a as ih =>
    rw [List.mapM_cons, h a (List.mem_cons_self ..), ih fun b hb => h b (List.mem_cons_of_mem _ hb)]
    rfl

/-- A field is the only one of its name. -/
theorem filter_name_of_nodup {fs : List (String × Value)} (h : (fs.map (·.1)).Nodup)
    {f : String × Value} (hf : f ∈ fs) : fs.filter (·.1 = f.1) = [f] := by
  induction fs with
  | nil => simp at hf
  | cons g fs ih =>
    obtain ⟨hg, h⟩ := List.nodup_cons.1 h
    rcases List.mem_cons.1 hf with rfl | hf
    · have hnone : fs.filter (·.1 = f.1) = [] :=
        List.filter_eq_nil_iff.2 fun e he hn =>
          hg (List.mem_map.2 ⟨e, he, of_decide_eq_true hn⟩)
      rw [List.filter_cons_of_pos (by simp), hnone]
    · have hn : g.1 ≠ f.1 := fun hn => hg (List.mem_map.2 ⟨f, hf, hn.symm⟩)
      rw [List.filter_cons_of_neg (by simpa using hn), ih h hf]

theorem named?_of_nodup {fs : List (String × Value)} (h : (fs.map (·.1)).Nodup) :
    Reader.named? (fs.map (·.1)) fs = some (fs.map fun f => some f.2) := by
  rw [Reader.named?, List.mapM_map]
  refine mapM_eq_some fun f hf => ?_
  rw [Function.comp_apply, filter_name_of_nodup h hf]

/-- A record with all the fields that are expected, in their order, gives the values of these. -/
theorem fields_object (format : Format) {fs : List (String × Value)}
    (h : (fs.map (·.1)).Nodup) (read : Nat → List (Option Value) → Reading α) (depth : Nat) :
    Reader.fields format (fs.map (·.1)) read depth (.object fs) =
      Reading.enter depth fun depth => read depth (fs.map fun f => some f.2) := by
  have hkeys : ((fs.map fun f => (Value.string f.1, f.2)).mapM fun f => do
      return (← f.1.key, f.2) : Reading (List (String × Value))) = pure fs := by
    rw [List.mapM_map]
    exact List.mapM_pure.trans (congrArg pure (List.map_id fs))
  calc Reader.fields format (fs.map (·.1)) read depth (.object fs)
      = Reading.enter depth (fun depth => do
          let keyed ← (fs.map fun f => (Value.string f.1, f.2)).mapM fun f => do
            return (← f.1.key, f.2)
          read depth (← Reader.named? (fs.map (·.1)) keyed)) := rfl
    _ = Reading.enter depth fun depth => read depth (fs.map fun f => some f.2) := by
      rw [hkeys]
      simp only [pure_bind]
      rw [named?_of_nodup h]
      rfl

/-- A record is read as what is made of its fields. -/
theorem Reads.fields {format : Format} {names : List String}
    {read : Nat → List (Option Value) → Reading α} {v : Value} {a : α} (h : names.Nodup)
    (fs : List (String × Value)) (hv : v = .object fs) (hn : names = fs.map (·.1))
    (hr : ∀ depth, read depth (fs.map fun f => some f.2) =
      .fit (∀ v ∈ fs.map (·.2), v.nesting ≤ depth) a) :
    Reads (.fields format names read) v a := by
  intro depth
  subst hv hn
  rw [fields_object format h, Value.nesting_object]
  refine Reading.enter_fit depth _ _ a fun depth => ?_
  rw [hr]
  exact Reading.fit_congr Value.nestingAll_le_iff.symm a

/-! ## Bare data -/

namespace Reads

theorem bare_string (s : String) : Reads (Value.bare none) (.string s) (.text s) := by
  refine of_eq (Value.nesting_string s) fun depth => ?_
  rw [Value.string, Value.bare]
  rfl

theorem bare_list {f : α → Value} {g : α → Bare} {as : List α}
    (h : ∀ a ∈ as, Reads (Value.bare none) (f a) (g a)) :
    Reads (Value.bare none) (.list (as.map f)) (.list (as.map g)) := by
  intro depth
  rw [Value.bare, Value.nesting_list]
  refine Reading.enter_fit depth _ _ _ fun depth => ?_
  have hitems (vs : List Value) : Value.bareItems depth vs = vs.mapM (Value.bare none depth) := by
    induction vs with
    | nil => rfl
    | cons v vs ih => rw [Value.bareItems, ih, List.mapM_cons]
  have hm := Reading.mapM_fit (f := Value.bare none depth ∘ f) (g := g) fun a ha => h a ha depth
  rw [hitems, List.mapM_map, hm]
  refine (Reading.fit_bind_pure _ Bare.list).trans ?_
  refine Reading.fit_congr ?_ (Bare.list (as.map g))
  simp [Value.nestingAll_le_iff]

/-- A record of texts, each with a value and its bare form. -/
theorem bare_object (es : List (String × Value × Bare))
    (h : ∀ e ∈ es, Reads (Value.bare none) e.2.1 e.2.2) :
    Reads (Value.bare none) (.object (es.map fun e => (e.1, e.2.1)))
      (.record (es.map fun e => (.text e.1, e.2.2))) := by
  intro depth
  rw [Value.nesting_object, Value.object, Value.bare]
  refine Reading.enter_fit depth _ _ _ fun depth => ?_
  have hfields (fs : List (String × Value)) :
      Value.bareFields depth (fs.map fun f => (Value.string f.1, f.2)) =
        fs.mapM fun f => do return (.text f.1, ← f.2.bare none depth) := by
    induction fs with
    | nil => rfl
    | cons f fs ih =>
      rw [List.map_cons, Value.bareFields, bare_string, ih, List.mapM_cons, Reading.fit_bind,
        if_pos (by simp)]
      simp only [bind_assoc, pure_bind]
  have hfield (e : String × Value × Bare) (he : e ∈ es) :
      (do return (.text e.1, ← e.2.1.bare none depth) : Reading (Bare × Bare)) =
        .fit (e.2.1.nesting ≤ depth) (.text e.1, e.2.2) := by
    rw [h e he depth]
    exact Reading.fit_bind_pure e.2.2 fun b => (Bare.text e.1, b)
  have hm := Reading.mapM_fit (g := fun e : String × Value × Bare => (Bare.text e.1, e.2.2)) hfield
  rw [hfields, List.mapM_map]
  refine (congrArg (· >>= fun fs => pure (Bare.record fs)) hm).trans ?_
  refine (Reading.fit_bind_pure _ Bare.record).trans ?_
  refine Reading.fit_congr ?_ (Bare.record _)
  rw [Value.nestingAll_le_iff, List.map_map, List.forall_mem_map]
  rfl

end Reads

end Data

end Docsmith
