import Docsmith.Metadata.Session
import Mathlib.Data.List.Nodup

/-!
# What a session holds

The types of a session are those its snapshots declare, without any whose name was declared before,
each in the module it names or else in that of its snapshot. What a name stands for follows from
this list and from the target alone.

* `firstNamed`: a list of types without those whose name occurs earlier;
* `find?_index`: the place of a name is that of the type of this name;
* `find?_eq_some_iff`: the type a name stands for;
* `types_foldl_add`, `target_foldl_add`: what a sequence of snapshots adds;
* `add_eq_self`: a snapshot that declares nothing new changes nothing;
* `ofSnapshots_contents`: the session of a sequence of snapshots.
-/

namespace Docsmith.Metadata

/-! ## The first type of each name -/

/-- The types whose name does not occur earlier in the list. -/
def firstNamed : List DescribedType → List DescribedType
  | [] => []
  | d :: ds => d :: (firstNamed ds).filter (·.name ≠ d.name)

theorem nodup_firstNamed (ds : List DescribedType) : ((firstNamed ds).map (·.name)).Nodup := by
  induction ds with
  | nil => exact .nil
  | cons d ds ih =>
    rw [firstNamed, List.map_cons, List.nodup_cons]
    refine ⟨fun h => ?_, (List.filter_sublist.map _).nodup ih⟩
    obtain ⟨e, he, hn⟩ := List.mem_map.1 h
    simpa [hn] using List.of_mem_filter he

theorem sublist_firstNamed (ds : List DescribedType) : (firstNamed ds).Sublist ds := by
  induction ds with
  | nil => exact .slnil
  | cons d ds ih => exact (List.filter_sublist.trans ih).cons_cons d

/-- No name is lost. -/
theorem mem_names_firstNamed {ds : List DescribedType} {name : String} :
    name ∈ (firstNamed ds).map (·.name) ↔ name ∈ ds.map (·.name) := by
  induction ds with
  | nil => rfl
  | cons d ds ih =>
    rw [firstNamed, List.map_cons, List.map_cons, List.mem_cons, List.mem_cons, ← ih]
    by_cases h : name = d.name
    · simp [h]
    · have hf : ∀ e : DescribedType, e.name = name → e.name ≠ d.name := fun e he => he ▸ h
      simp only [h, false_or, List.mem_map, List.mem_filter, decide_eq_true_eq]
      exact ⟨fun ⟨e, he, hn⟩ => ⟨e, he.1, hn⟩, fun ⟨e, he, hn⟩ => ⟨e, ⟨he, hf e hn⟩, hn⟩⟩

theorem firstNamed_concat (ds : List DescribedType) (d : DescribedType) :
    firstNamed (ds ++ [d]) =
      if d.name ∈ ds.map (·.name) then firstNamed ds else firstNamed ds ++ [d] := by
  induction ds with
  | nil => rfl
  | cons e ds ih =>
    rw [List.cons_append, firstNamed, ih, firstNamed, List.map_cons]
    by_cases he : d.name = e.name
    · rw [if_pos (List.mem_cons.2 (.inl he))]
      split
      · rfl
      · rw [List.filter_append, List.filter_cons_of_neg (by simpa using he), List.filter_nil,
          List.append_nil]
    · by_cases hm : d.name ∈ ds.map (·.name)
      · rw [if_pos hm, if_pos (List.mem_cons.2 (.inr hm))]
      · rw [if_neg hm, if_neg fun h => (List.mem_cons.1 h).elim he hm, List.filter_append,
          List.filter_cons_of_pos (by simpa using he), List.filter_nil, List.cons_append]

theorem firstNamed_prefix (ds es : List DescribedType) :
    firstNamed ds <+: firstNamed (ds ++ es) := by
  induction es generalizing ds with
  | nil => simp
  | cons e es ih =>
    have he : firstNamed ds <+: firstNamed (ds ++ [e]) := by
      rw [firstNamed_concat]
      split
      · exact List.prefix_rfl
      · exact List.prefix_append ..
    rw [List.append_cons]
    exact he.trans (ih (ds ++ [e]))

/-! ## Types under their names -/

theorem eq_of_name_eq {s : Session} {d e : DescribedType} (hd : d ∈ s.types) (he : e ∈ s.types)
    (h : d.name = e.name) : d = e :=
  List.inj_on_of_nodup_map s.nodup hd he h

/-- No type is lost where no two types have one name, as in a session. -/
theorem mem_firstNamed {s : Session} {ds : List DescribedType} {d : DescribedType}
    (h : ∀ e ∈ ds, e ∈ s.types) : d ∈ firstNamed ds ↔ d ∈ ds := by
  have hsub (e : DescribedType) (he : e ∈ firstNamed ds) : e ∈ ds :=
    (sublist_firstNamed ds).subset he
  refine ⟨hsub d, fun hd => ?_⟩
  obtain ⟨e, he, hn⟩ := List.mem_map.1 (mem_names_firstNamed.2 (List.mem_map_of_mem hd))
  rwa [← eq_of_name_eq (h e (hsub e he)) (h d hd) hn]

theorem find?_of_mem_nodup {ds : List DescribedType} (h : (ds.map (·.name)).Nodup)
    {d : DescribedType} (hd : d ∈ ds) : ds.find? (·.name = d.name) = some d := by
  cases hf : ds.find? (·.name = d.name) with
  | none => simpa using List.find?_eq_none.1 hf d hd
  | some e =>
    have hn : e.name = d.name := by simpa using List.find?_some hf
    rw [List.inj_on_of_nodup_map h (List.mem_of_find?_eq_some hf) hd hn]

namespace Session

variable {s : Session} {name module : String} {d : DescribedType} {x : Snapshot}

/-- The index follows from the types. -/
theorem ext {s t : Session} (h : s.target = t.target) (h' : s.types = t.types) : s = t := by
  have hi : s.index = t.index := Table.ext (by rw [s.indexed, t.indexed, h'])
  cases s
  cases t
  simp_all

/-- The index has the place of each type under its name, and nothing else. -/
theorem find?_index (s : Session) (name : String) :
    s.index.find? name = s.types.findIdx? (·.name = name) := by
  rw [Table.find?, s.indexed]
  exact (List.findIdx?_eq_fst_find?_zipIdx (p := (· = name))).symm.trans List.findIdx?_map

/-- The type of just this name. -/
def named? (s : Session) (name : String) : Option DescribedType := s.types.find? (·.name = name)

theorem mem_of_named? (h : s.named? name = some d) : d ∈ s.types :=
  List.mem_of_find?_eq_some h

theorem find?_eq (s : Session) (name : String) :
    s.find? name = (s.named? name <|> s.named? (s.target ++ "::" ++ name)) := by
  rw [find?, place?, find?_index, find?_index, named?, named?,
    List.find?_eq_bind_findIdx?_getElem?, List.find?_eq_bind_findIdx?_getElem?]
  cases h : s.types.findIdx? (·.name = name) with
  | none => rfl
  | some i =>
    obtain ⟨hi, -⟩ := List.findIdx?_eq_some_iff_getElem.1 h
    simp [List.getElem?_eq_getElem hi]

theorem named?_eq_some_iff : s.named? name = some d ↔ d ∈ s.types ∧ d.name = name := by
  refine ⟨fun h => ⟨mem_of_named? h, by simpa using List.find?_some h⟩, ?_⟩
  rintro ⟨hd, rfl⟩
  exact find?_of_mem_nodup s.nodup hd

theorem named?_eq_none_iff : s.named? name = none ↔ ∀ e ∈ s.types, e.name ≠ name := by
  rw [named?, List.find?_eq_none]
  simp

/-- A name stands for the type of just this name, and only where there is none for the one of this
name inside the target. -/
theorem find?_eq_some_iff :
    s.find? name = some d ↔
      (d ∈ s.types ∧ d.name = name) ∨
        (∀ e ∈ s.types, e.name ≠ name) ∧ d ∈ s.types ∧ d.name = s.target ++ "::" ++ name := by
  rw [find?_eq]
  cases h : s.named? name with
  | some e =>
    obtain ⟨he, hn⟩ := named?_eq_some_iff.1 h
    constructor
    · intro hd
      obtain rfl : e = d := Option.some.inj hd
      exact .inl ⟨he, hn⟩
    · rintro (⟨hd, hn'⟩ | ⟨hno, -⟩)
      · exact congrArg some (eq_of_name_eq he hd (hn.trans hn'.symm))
      · exact absurd hn (hno e he)
  | none =>
    have hno := named?_eq_none_iff.1 h
    constructor
    · exact fun hd => .inr ⟨hno, named?_eq_some_iff.1 hd⟩
    · rintro (⟨hd, hn⟩ | ⟨-, hd⟩)
      · exact absurd hn (hno d hd)
      · exact named?_eq_some_iff.2 hd

/-- A type of a session is found under its name. -/
theorem find?_of_mem (hd : d ∈ s.types) : s.find? d.name = some d :=
  find?_eq_some_iff.2 (.inl ⟨hd, rfl⟩)

/-! ## Adding snapshots -/

theorem name_inherit : (d.inherit module).name = d.name := rfl

theorem inherit_eq :
    d.inherit module = if d.module = "" then { d with module := module } else d := by
  rw [DescribedType.inherit]
  simp only [String.isEmpty_iff]
  split <;> rfl

theorem declares_iff : s.declares name = true ↔ name ∈ s.types.map (·.name) := by
  rw [declares, ← keys_index, ← not_iff_not, Option.not_isSome_iff_eq_none, Table.find?_eq_none_iff]

theorem types_addType {ds : List DescribedType} (h : s.types = firstNamed ds) :
    (s.addType module d).types = firstNamed (ds ++ [d.inherit module]) := by
  have hm : s.declares d.name = true ↔ d.name ∈ ds.map (·.name) := by
    rw [declares_iff, h, mem_names_firstNamed]
  rw [firstNamed_concat, name_inherit, addType]
  by_cases hd : s.declares d.name = true
  · rw [dif_pos hd, if_pos (hm.1 hd), h]
  · rw [dif_neg hd, if_neg (mt hm.2 hd), ← h]

theorem types_foldl_addType {ds : List DescribedType} (h : s.types = firstNamed ds)
    (ts : List DescribedType) :
    (ts.foldl (addType module) s).types = firstNamed (ds ++ ts.map (·.inherit module)) := by
  induction ts generalizing s ds with
  | nil => rw [List.map_nil, List.append_nil, List.foldl_nil, h]
  | cons d ts ih => rw [List.foldl_cons, ih (types_addType h), List.map_cons, List.append_assoc,
      List.singleton_append]

theorem target_foldl_addType (s : Session) (ts : List DescribedType) :
    (ts.foldl (addType module) s).target = s.target := by
  induction ts generalizing s with
  | nil => rfl
  | cons d ts ih =>
    rw [List.foldl_cons, ih, addType]
    split <;> rfl

theorem target_add (s : Session) (x : Snapshot) :
    (s.add x).target = if s.target = "" then x.module else s.target := by
  rw [add, target_foldl_addType]
  simp only [String.isEmpty_iff]

theorem types_foldl_add {ds : List DescribedType} (h : s.types = firstNamed ds)
    (xs : List Snapshot) :
    (xs.foldl add s).types =
      firstNamed (ds ++ xs.flatMap fun x => x.types.map (·.inherit x.module)) := by
  induction xs generalizing s ds with
  | nil => rw [List.flatMap_nil, List.append_nil, List.foldl_nil, h]
  | cons x xs ih =>
    have hx : (s.add x).types = firstNamed (ds ++ x.types.map (·.inherit x.module)) := by
      refine types_foldl_addType ?_ x.types
      exact h
    rw [List.foldl_cons, ih hx, List.flatMap_cons, List.append_assoc]

theorem target_foldl_add (s : Session) (xs : List Snapshot) :
    (xs.foldl add s).target = ((s.target :: xs.map (·.module)).find? (· ≠ "")).getD "" := by
  induction xs generalizing s with
  | nil => by_cases h : s.target = "" <;> simp [h]
  | cons x xs ih =>
    rw [List.foldl_cons, ih, target_add]
    by_cases h : s.target = "" <;> simp [h]

theorem foldl_addType_eq_self {ts : List DescribedType}
    (h : ∀ d ∈ ts, d.name ∈ s.types.map (·.name)) : ts.foldl (addType module) s = s := by
  induction ts with
  | nil => rfl
  | cons d ts ih =>
    have hd : s.declares d.name = true := declares_iff.2 (h d (List.mem_cons_self ..))
    rw [List.foldl_cons, addType, dif_pos hd, ih fun e he => h e (List.mem_cons_of_mem _ he)]

/-- Adding a snapshot changes nothing where all its types are there and the target is known, or
would stay unknown. -/
theorem add_eq_self (ht : ∀ d ∈ x.types, d.name ∈ s.types.map (·.name))
    (hm : s.target = "" → x.module = "") : s.add x = s := by
  refine ext ?_ ?_
  · rw [target_add]
    split
    · next h => rw [h, hm h]
    · rfl
  · rw [add, foldl_addType_eq_self]
    exact ht

/-- What a session of snapshots holds: the first type of each name among all they declare, in order,
in the module it names or else in that of its snapshot; the first module that is named, as the
target; and for a name the type of just this name or else the one of this name inside the target.
Adding one of the snapshots again changes nothing. -/
theorem ofSnapshots_contents (snapshots : List Snapshot) :
    (ofSnapshots snapshots).types =
      firstNamed (snapshots.flatMap fun x =>
        x.types.map fun d => if d.module = "" then { d with module := x.module } else d) ∧
    ((ofSnapshots snapshots).types.map (·.name)).Nodup ∧
    (ofSnapshots snapshots).target =
      ((snapshots.map (·.module)).find? (· ≠ "")).getD "" ∧
    (∀ name d, (ofSnapshots snapshots).find? name = some d ↔
      (d ∈ (ofSnapshots snapshots).types ∧ d.name = name) ∨
      (∀ e ∈ (ofSnapshots snapshots).types, e.name ≠ name) ∧
        d ∈ (ofSnapshots snapshots).types ∧
        d.name = (ofSnapshots snapshots).target ++ "::" ++ name) ∧
    ∀ x ∈ snapshots, (ofSnapshots snapshots).add x = ofSnapshots snapshots := by
  have htypes : (ofSnapshots snapshots).types =
      firstNamed (snapshots.flatMap fun x => x.types.map (·.inherit x.module)) := by
    have hempty : empty.types = firstNamed [] := rfl
    exact types_foldl_add hempty snapshots
  have htarget : (ofSnapshots snapshots).target =
      ((snapshots.map (·.module)).find? (· ≠ "")).getD "" :=
    target_foldl_add empty snapshots
  refine ⟨?_, ?_, htarget, fun name d => find?_eq_some_iff, fun x hx => add_eq_self ?_ ?_⟩
  · simpa only [inherit_eq] using htypes
  · rw [htypes]
    exact nodup_firstNamed _
  · intro d hd
    rw [htypes, mem_names_firstNamed]
    exact List.mem_map.2 ⟨_, List.mem_flatMap.2 ⟨x, hx, List.mem_map_of_mem hd⟩, rfl⟩
  · intro ht
    rw [htarget] at ht
    cases hf : (snapshots.map (·.module)).find? (· ≠ "") with
    | none => simpa using List.find?_eq_none.1 hf _ (List.mem_map_of_mem hx)
    | some m =>
      have hm : m ≠ "" := by simpa using List.find?_some hf
      rw [hf, Option.getD_some] at ht
      exact absurd ht hm

end Session

end Docsmith.Metadata
