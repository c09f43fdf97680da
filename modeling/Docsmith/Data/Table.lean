/-!
# Tables

A table keeps its keys in the order in which they came, each once. Putting a value under a key that
is there replaces the value only.

* `Table.keys_put`: a new key goes to the end.
* `Table.find?_put`: what is found after putting a value.
* `Table.find?_foldl_put`: what is found after putting one value after the other.
-/

namespace Docsmith

/-- Values under keys. -/
structure Table (κ α : Type) where
  entries : List (κ × α)
  nodup : (entries.map (·.1)).Nodup
  deriving DecidableEq, Repr

namespace Table

variable {κ α : Type}

@[ext]
theorem ext {s t : Table κ α} (h : s.entries = t.entries) : s = t := by
  cases s; cases t; simp_all

def empty : Table κ α := ⟨[], .nil⟩

instance : Inhabited (Table κ α) := ⟨empty⟩

def keys (t : Table κ α) : List κ := t.entries.map (·.1)

def values (t : Table κ α) : List α := t.entries.map (·.2)

def isEmpty (t : Table κ α) : Bool := t.entries.isEmpty

variable [DecidableEq κ]

def find? (t : Table κ α) (k : κ) : Option α := (t.entries.find? (·.1 = k)).map (·.2)

/-- Puts a value under a key of a list of entries. -/
def putEntry (k : κ) (a : α) : List (κ × α) → List (κ × α)
  | [] => [(k, a)]
  | (k', b) :: es => if k' = k then (k', a) :: es else (k', b) :: putEntry k a es

theorem map_putEntry (k : κ) (a : α) (es : List (κ × α)) :
    (putEntry k a es).map (·.1) =
      if k ∈ es.map (·.1) then es.map (·.1) else es.map (·.1) ++ [k] := by
  induction es with
  | nil => simp [putEntry]
  | cons e es ih =>
    obtain ⟨k', b⟩ := e
    by_cases h : k' = k
    · simp [putEntry, h]
    · have h' : ¬k = k' := fun e => h e.symm
      simp only [putEntry, h, ite_false, List.map_cons, List.mem_cons, h', false_or]
      rw [ih]
      split <;> simp_all

theorem nodup_putEntry {k : κ} {a : α} {es : List (κ × α)} (h : (es.map (·.1)).Nodup) :
    ((putEntry k a es).map (·.1)).Nodup := by
  rw [map_putEntry]
  split
  · exact h
  · rename_i hk
    exact List.nodup_append.2 ⟨h, by simp, fun x hx y hy e => hk (by simp_all)⟩

def put (t : Table κ α) (k : κ) (a : α) : Table κ α :=
  ⟨putEntry k a t.entries, nodup_putEntry t.nodup⟩

/-- Changes the value under a key, or puts a first one. -/
def update (t : Table κ α) (k : κ) (f : Option α → α) : Table κ α :=
  t.put k (f (t.find? k))

/-- The table of entries in order; of values under one key the last counts. -/
def ofList (es : List (κ × α)) : Table κ α :=
  es.foldl (fun t e => t.put e.1 e.2) empty

theorem keys_put (t : Table κ α) (k : κ) (a : α) :
    (t.put k a).keys = if k ∈ t.keys then t.keys else t.keys ++ [k] :=
  map_putEntry k a t.entries

theorem putEntry_of_not_mem {k : κ} {a : α} {es : List (κ × α)} (h : k ∉ es.map (·.1)) :
    putEntry k a es = es ++ [(k, a)] := by
  induction es with
  | nil => rfl
  | cons e es ih =>
    obtain ⟨k', b⟩ := e
    simp only [List.map_cons, List.mem_cons, not_or] at h
    rw [putEntry, if_neg fun e => h.1 e.symm, ih h.2, List.cons_append]

theorem find?_eq_none_iff {t : Table κ α} {k : κ} : t.find? k = none ↔ k ∉ t.keys := by
  simp only [find?, keys, Option.map_eq_none_iff, List.find?_eq_none, List.mem_map,
    decide_eq_true_eq, not_exists, not_and]

theorem find?_of_mem {t : Table κ α} {e : κ × α} (h : e ∈ t.entries) : t.find? e.1 = some e.2 := by
  have hn := t.nodup
  rw [Table.find?]
  generalize t.entries = es at h hn
  induction es with
  | nil => cases h
  | cons e' es ih =>
    rw [List.map_cons, List.nodup_cons] at hn
    rcases List.mem_cons.1 h with rfl | h
    · simp
    · have hne : e'.1 ≠ e.1 := fun he => hn.1 (List.mem_map.2 ⟨e, h, he.symm⟩)
      simp [hne, ih h hn.2]

/-- A new key goes to the end with its value. -/
theorem entries_put_of_not_mem {t : Table κ α} {k : κ} (a : α) (h : k ∉ t.keys) :
    (t.put k a).entries = t.entries ++ [(k, a)] :=
  putEntry_of_not_mem h

theorem find?_putEntry (k : κ) (a : α) (es : List (κ × α)) (j : κ) :
    ((putEntry k a es).find? (·.1 = j)).map (·.2) =
      if j = k then some a else (es.find? (·.1 = j)).map (·.2) := by
  induction es with
  | nil =>
    by_cases h : j = k
    · simp [putEntry, h]
    · have : ¬k = j := fun e => h e.symm
      simp [putEntry, h, this]
  | cons e es ih =>
    obtain ⟨k', b⟩ := e
    by_cases hk : k' = k
    · subst hk
      by_cases h : j = k'
      · simp [putEntry, h]
      · have : ¬k' = j := fun e => h e.symm
        simp [putEntry, h, this]
    · by_cases hj : k' = j
      · subst hj
        simp [putEntry, hk]
      · simp only [putEntry, hk, ite_false, List.find?_cons, hj, decide_false]
        exact ih

theorem find?_put (t : Table κ α) (k : κ) (a : α) (j : κ) :
    (t.put k a).find? j = if j = k then some a else t.find? j :=
  find?_putEntry k a t.entries j

/-- Of the values put under one key the last counts. -/
theorem find?_foldl_put {δ : Type} (key : δ → κ) (value : δ → α) (ds : List δ) (t : Table κ α)
    (k : κ) :
    (ds.foldl (fun t d => t.put (key d) (value d)) t).find? k =
      ((ds.findRev? (key · = k)).map value).or (t.find? k) := by
  induction ds generalizing t with
  | nil => rfl
  | cons d ds ih =>
    rw [List.foldl_cons, ih, find?_put, List.findRev?]
    cases ds.findRev? (key · = k) with
    | some e => rfl
    | none =>
      by_cases hk : key d = k
      · rw [if_pos hk.symm]
        simp [hk]
      · rw [if_neg fun h => hk h.symm]
        simp [hk]

end Table

end Docsmith
