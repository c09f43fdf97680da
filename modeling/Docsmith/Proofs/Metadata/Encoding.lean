import Docsmith.Metadata.Encoding
import Docsmith.Proofs.Data.Decode

/-!
# Types read back

What is written as data for a described type is read as this type and no other, whatever it holds.

* `TypeReference.toBare`: the bare form of a reference, the one that is tried as an array, as a
  generic type and as a name;
* `ofBare?_toBare`: a trial takes no form for another;
* `reads_reference`, `reads_argument`, `reads_attribute`, `reads_property`, `reads_method`: the
  parts of a type;
* `types_read_back`: a type, at any depth.
-/

namespace Docsmith.Metadata

open Docsmith.Data

/-! ## References -/

namespace TypeReference

mutual

/-- A reference as bare data. -/
def toBare : TypeReference → Bare
  | .named name => .text name
  | .generic name args =>
    .record [(.text "generic", .text name), (.text "args", .list (toBares args))]
  | .array element => .record [(.text "array", element.toBare)]

def toBares : List TypeReference → List Bare
  | [] => []
  | t :: ts => t.toBare :: toBares ts

end

theorem toValues_eq (ts : List TypeReference) : toValues ts = ts.map toValue := by
  induction ts with
  | nil => rfl
  | cons t ts ih => rw [toValues, ih, List.map_cons]

theorem toBares_eq (ts : List TypeReference) : toBares ts = ts.map toBare := by
  induction ts with
  | nil => rfl
  | cons t ts ih => rw [toBares, ih, List.map_cons]

/-! ### Nesting -/

@[simp]
theorem nesting_named (name : String) : (named name).toValue.nesting = 0 := by
  rw [toValue, Value.nesting_string]

@[simp]
theorem nesting_generic (name : String) (args : List TypeReference) :
    (generic name args).toValue.nesting = Value.nestingAll (args.map toValue) + 2 := by
  simp [toValue, toValues_eq, Value.nestingAll]

@[simp]
theorem nesting_array (element : TypeReference) :
    (array element).toValue.nesting = element.toValue.nesting + 1 := by
  simp [toValue, Value.nestingAll]

/-! ### Trials -/

/-- A record with the fields of a generic type has no field of an array. -/
theorem fields?_generic (name : String) (args : List Bare) :
    Bare.fields? ["array"] [(.text "generic", .text name), (.text "args", .list args)] =
        some [none] ∧
      Bare.fields? ["generic", "args"] [(.text "generic", .text name), (.text "args", .list args)] =
        some [some (.text name), some (.list args)] :=
  ⟨rfl, rfl⟩

theorem fields?_array (element : Bare) :
    Bare.fields? ["array"] [(.text "array", element)] = some [some element] :=
  rfl

mutual

/-- The bare form of a reference is that of no other one. -/
theorem ofBare?_toBare (t : TypeReference) (fuel : Nat) (h : t.toValue.nesting ≤ fuel) :
    ofBare? fuel t.toBare = some t := by
  cases t with
  | named name => cases fuel <;> rfl
  | array element =>
    rw [nesting_array] at h
    obtain ⟨fuel, rfl⟩ := Nat.exists_eq_add_of_le' (Nat.one_le_of_lt h)
    rw [toBare, ofBare?, fields?_array]
    dsimp only
    rw [ofBare?_toBare element fuel (by omega)]
    rfl
  | generic name args =>
    rw [nesting_generic] at h
    obtain ⟨fuel, rfl⟩ := Nat.exists_eq_add_of_le' (Nat.one_le_of_lt h)
    obtain ⟨hne, hfs⟩ := fields?_generic name (toBares args)
    rw [toBare, ofBare?, hne]
    dsimp only
    rw [ofBare?.generic?, hfs]
    dsimp only
    rw [toBares_eq, mapM_ofBare? args fuel (by omega)]
    rfl

theorem mapM_ofBare? (ts : List TypeReference) (fuel : Nat)
    (h : Value.nestingAll (ts.map toValue) ≤ fuel) :
    (ts.map toBare).mapM (ofBare? fuel) = some ts := by
  cases ts with
  | nil => rfl
  | cons t ts =>
    rw [List.map_cons, Value.nestingAll, Nat.max_le] at h
    rw [List.map_cons, List.mapM_cons, ofBare?_toBare t fuel h.1, mapM_ofBare? ts fuel h.2]
    rfl

end

mutual

theorem reads_bare (t : TypeReference) : Reads (Value.bare none) t.toValue t.toBare := by
  cases t with
  | named name => exact .bare_string name
  | array element =>
    exact .bare_object [("array", element.toValue, element.toBare)]
      (by simpa using reads_bare element)
  | generic name args =>
    rw [toValue, toBare, toValues_eq, toBares_eq]
    have hargs : Reads (Value.bare none) (.list (args.map toValue)) (.list (args.map toBare)) :=
      .bare_list (reads_bares args)
    exact .bare_object [("generic", .string name, .text name),
      ("args", .list (args.map toValue), .list (args.map toBare))]
      (by simpa using ⟨.bare_string name, hargs⟩)

theorem reads_bares (ts : List TypeReference) :
    ∀ t ∈ ts, Reads (Value.bare none) t.toValue t.toBare := by
  cases ts with
  | nil => simp
  | cons t ts => exact List.forall_mem_cons.2 ⟨reads_bare t, reads_bares ts⟩

end

end TypeReference

/-- A reference is recovered by trying it as an array, as a generic type and as a name. -/
theorem reads_reference (t : TypeReference) : Reads TypeReference.reader t.toValue t := by
  intro depth
  rw [TypeReference.reader, t.reads_bare depth, Reading.fit_bind, Reading.fit]
  split
  · next h =>
    rw [t.ofBare?_toBare (depth + 1) (by omega)]
    rfl
  · rfl

theorem isGiven?_reference (t : TypeReference) :
    t.toValue.resolved = pure t.toValue ∧ t.toValue.isGiven? = some true := by
  cases t <;> rw [TypeReference.toValue] <;> exact ⟨rfl, rfl⟩

/-! ## The parts of a type -/

/-- A word is read as what it stands for. -/
theorem reads_word {α : Type} {words : List (String × α)} {w : String} {a : α}
    (h : (words.find? (·.1 = w)).map (·.2) = some a) :
    Reads (wordReader words .json) (.string w) a := by
  refine .of_eq (Value.nesting_string w) fun depth => ?_
  calc wordReader words .json depth (.string w)
      = ((words.find? (·.1 = w)).map (·.2) : Option α) := rfl
    _ = (pure a : Reading α) := by rw [h]; rfl

theorem reads_form (k : TypeForm) : Reads (wordReader kindNames .json) (.string k.toText) k := by
  cases k <;> exact reads_word rfl

theorem reads_visibility (v : Visibility) :
    Reads (wordReader visibilityNames .json) (.string v.toText) v := by
  cases v <;> exact reads_word rfl

/-- A value under the name of its kind. -/
theorem reads_named {name : String} {v : Value} {a : Argument}
    (h : Reads (Argument.named name) v a) :
    Reads (Argument.reader .json) (.object [(name, v)]) a := by
  intro depth
  have hr : Argument.reader .json depth (.object [(name, v)]) =
      Reading.enter depth fun depth => Argument.named name depth v := by
    cases depth <;> rfl
  rw [hr, Value.nesting_object]
  refine Reading.enter_fit depth _ _ a fun depth => ?_
  rw [h]
  exact Reading.fit_congr (by simp [Value.nestingAll]) a

theorem reads_argument (a : Argument) : Reads (Argument.reader .json) a.toValue a := by
  cases a with
  | int n => exact reads_named (.map (Reads.signed n) Argument.int)
  | str s => exact reads_named (.map (Reads.text s) Argument.str)
  | bool b => exact reads_named (.map (Reads.bool b) Argument.bool)
  | type t => exact reads_named (.map (reads_reference t) Argument.type)

theorem reads_attribute (a : Attribute) : Reads (Attribute.reader .json) a.toValue a := by
  refine .fields (by decide) [("name", .string a.name),
    ("args", .list (a.args.map Argument.toValue)),
    ("named", .object (a.named.entries.map fun f => (f.1, f.2.toValue)))] rfl rfl fun depth => ?_
  dsimp only [List.map, Reader.required, Reader.defaulted]
  rw [Reads.text, Reads.list fun a _ => reads_argument a, Reads.table fun e _ => reads_argument e.2]
  simp only [Reading.pure_eq_fit, Reading.fit_bind_fit]
  exact Reading.fit_congr (by simp) _

theorem reads_property (p : Property) : Reads (Property.reader .json) p.toValue p := by
  refine .fields (by decide) [("name", .string p.name), ("type", p.type.toValue)] rfl rfl
    fun depth => ?_
  dsimp only [List.map, Reader.required]
  rw [Reads.text, reads_reference]
  simp only [Reading.pure_eq_fit, Reading.fit_bind_fit]
  exact Reading.fit_congr (by simp) _

theorem reads_method (m : Method) : Reads (Method.reader .json) m.toValue m := by
  refine .fields (by decide) [("name", .string m.name), ("visibility", .string m.visibility.toText),
    ("is_static", .bool m.isStatic), ("inherited", .bool m.inherited),
    ("parameters", .list (m.parameters.map Property.toValue)),
    ("attributes", .list (m.attributes.map Attribute.toValue))] rfl rfl fun depth => ?_
  dsimp only [List.map, Reader.required, Reader.defaulted]
  rw [Reads.text, reads_visibility, Reads.bool, Reads.bool,
    Reads.list fun p _ => reads_property p, Reads.list fun a _ => reads_attribute a]
  simp only [Reading.pure_eq_fit, Reading.fit_bind_fit]
  exact Reading.fit_congr (by simp) _

theorem reads_type (d : DescribedType) : Reads (DescribedType.reader .json) d.toValue d := by
  refine .fields (by decide) [("name", .string d.name), ("module", .string d.module),
    ("kind", .string d.kind.toText), ("base", (d.base.map TypeReference.toValue).getD .null),
    ("properties", .list (d.properties.map Property.toValue)),
    ("methods", .list (d.methods.map Method.toValue)),
    ("attributes", .list (d.attributes.map Attribute.toValue)),
    ("members", .list (d.members.map Value.string))] rfl rfl fun depth => ?_
  dsimp only [List.map, Reader.required, Reader.defaulted]
  have hbase : Reads (.optional TypeReference.reader)
      ((d.base.map TypeReference.toValue).getD .null) d.base :=
    .optional (fun t _ => reads_reference t) (fun t _ => (isGiven?_reference t).1)
      fun t _ => (isGiven?_reference t).2
  rw [Reads.text, Reads.text, reads_form, hbase, Reads.list fun p _ => reads_property p,
    Reads.list fun m _ => reads_method m, Reads.list fun a _ => reads_attribute a,
    Reads.list fun m _ => Reads.text m]
  simp only [Reading.pure_eq_fit, Reading.fit_bind_fit]
  exact Reading.fit_congr (by simp) _

/-- What is written for a type is read as this type: the reader fails only where it may not enter as
many containers as nest in what is written, and where it does not fail it gives the type that was
written. The same holds of references, which are told apart by trying one form after another. -/
theorem types_read_back :
    (∀ (d : DescribedType) (depth links : Nat),
      (DescribedType.reader .json depth d.toValue).run links =
        if d.toValue.nesting ≤ depth then some (d, links) else none) ∧
    ∀ (t : TypeReference) (depth links : Nat),
      (TypeReference.reader depth t.toValue).run links =
        if t.toValue.nesting ≤ depth then some (t, links) else none := by
  have run_fit {α : Type} {p : Prop} [Decidable p] (a : α) (links : Nat) :
      (Reading.fit p a).run links = if p then some (a, links) else none := by
    rw [Reading.fit]
    split <;> rfl
  refine ⟨fun d depth links => ?_, fun t depth links => ?_⟩
  · rw [reads_type d depth, run_fit]
  · rw [reads_reference t depth, run_fit]

end Docsmith.Metadata
