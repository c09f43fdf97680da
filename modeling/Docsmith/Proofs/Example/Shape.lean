import Docsmith.Proofs.Example.Calls
import Docsmith.Proofs.Example.Selection

/-!
# Shapes of types

The shape of a type asks for numbers below the bound of an integer type only, and for members of the
enumeration the type stands for. So an example of a type is always found, and fits it.

* `hasRange_ofType`: numbers have a range;
* `ofType_of_names`, `ofType_eq_enumeration`: what the shapes of integers and enumerations come from;
* `render_classified`: the example of a type, after any number of others.
-/

namespace Docsmith.Example

open Docsmith.Metadata Docsmith.Naming Docsmith.Text Synthesizer

variable {T : String} {bound n : Nat} {s : Session} {t u : TypeReference}

/-! ## Integer types -/

/-- The bits in the greatest value of each integer type, where a word of the machine has some bits. -/
def valueBits (wordBits : Nat) : List (String × Nat) :=
  [("i8", 7), ("u8", 8), ("i16", 15), ("u16", 16), ("i32", 31), ("u32", 32), ("i64", 63), ("u64", 64),
    ("i128", 127), ("u128", 128), ("isize", wordBits - 1), ("usize", wordBits)]

/-- A value of an integer type, on machines with words of 32 bits or more. -/
def IsValue (T : String) (n : Nat) : Prop :=
  ∀ wordBits, 32 ≤ wordBits → ∃ bits, (valueBits wordBits).lookup T = some bits ∧ n < 2 ^ bits

/-- The bounds fit the types. -/
theorem isValue_of_lt (hT : (T, bound) ∈ integerBounds) (hn : n < bound) : IsValue T n := by
  intro wordBits hword
  have hhalf : 2 ^ 31 ≤ 2 ^ (wordBits - 1) := Nat.pow_le_pow_right (by decide) (by omega)
  have hwhole : 2 ^ 32 ≤ 2 ^ wordBits := Nat.pow_le_pow_right (by decide) hword
  simp only [integerBounds, List.map_cons, List.map_nil, List.cons_append, List.nil_append,
    List.mem_cons, Prod.mk.injEq, List.not_mem_nil, or_false] at hT
  rcases hT with ⟨rfl, rfl⟩ | ⟨rfl, rfl⟩ | ⟨rfl, rfl⟩ | ⟨rfl, rfl⟩ | ⟨rfl, rfl⟩ | ⟨rfl, rfl⟩ |
    ⟨rfl, rfl⟩ | ⟨rfl, rfl⟩ | ⟨rfl, rfl⟩ | ⟨rfl, rfl⟩ | ⟨rfl, rfl⟩ | ⟨rfl, rfl⟩ <;>
  exact ⟨_, rfl, by omega⟩

/-- A reference to a type by a path that ends in its name, maybe behind signs of reference. -/
def Names (t : TypeReference) (T : String) : Prop :=
  ∃ path signs, t.headName? = some path ∧
    EndsInWord path.toList (List.replicate signs '&' ++ T.toList)

/-- A reference to an optional type. -/
def IsOptional (t u : TypeReference) : Prop :=
  ∃ path, t = .generic path [u] ∧ EndsInWord path.toList "Option".toList

/-! ## Kinds of types -/

theorem mem_of_lookup {α β : Type} [BEq α] [LawfulBEq α] {a : α} {b : β} {l : List (α × β)}
    (h : l.lookup a = some b) : (a, b) ∈ l := by
  obtain ⟨front, back, rfl, -⟩ := List.lookup_eq_some_iff.1 h
  simp

/-- The kinds that hold neither a bound nor members. -/
def plainKinds : List FieldKind := [.text, .boolean, .uuid, .decimal, .dateTime, .other]

theorem ofName?_cases {name : String} {kind : FieldKind} (h : FieldKind.ofName? name = some kind) :
    (∃ bound, (name, bound) ∈ integerBounds ∧ kind = .integer bound) ∨ kind ∈ plainKinds := by
  rw [FieldKind.ofName?] at h
  split at h
  · rename_i bound hbound
    exact .inl ⟨bound, mem_of_lookup hbound, (Option.some.inj h).symm⟩
  · refine .inr ?_
    split_ifs at h <;> simp_all [plainKinds]

theorem ofDefinition_cases (d : DescribedType) :
    (d.kind = .enumeration ∧ d.members ≠ [] ∧
        FieldKind.ofDefinition d = .enumeration d.shortName d.members) ∨
      FieldKind.ofDefinition d ∈ plainKinds := by
  rw [FieldKind.ofDefinition]
  split
  · rename_i h
    rw [Bool.and_eq_true, decide_eq_true_eq] at h
    exact .inl ⟨h.1, by simpa using h.2, rfl⟩
  · exact .inr (by decide)

/-- The kind of a type is that of an integer type, or of the enumeration it stands for, or plain. -/
theorem ofType_cases (s : Session) (t : TypeReference) :
    (∃ T bound, (T, bound) ∈ integerBounds ∧ FieldKind.ofType s t = .integer bound) ∨
      (∃ d, s.resolve? t = some d ∧ d.kind = .enumeration ∧ d.members ≠ [] ∧
        FieldKind.ofType s t = .enumeration d.shortName d.members) ∨
      FieldKind.ofType s t ∈ plainKinds := by
  rw [FieldKind.ofType]
  split
  · exact .inr (.inr (by decide))
  · split
    · rename_i hkind
      exact (ofName?_cases hkind).imp (fun ⟨bound, h⟩ => ⟨_, bound, h⟩) .inr
    · refine .inr ?_
      cases hd : s.resolve? t with
      | none => exact .inr (by decide)
      | some d => exact (ofDefinition_cases d).imp_left fun h => ⟨d, rfl, h⟩

theorem pos_of_ofType (h : FieldKind.ofType s t = .integer bound) : 0 < bound := by
  have hpositive : ∀ e ∈ integerBounds, 0 < e.2 := by decide
  rcases ofType_cases s t with ⟨T, b, hb, hkind⟩ | ⟨d, -, -, -, hkind⟩ | hplain
  · rw [h] at hkind
    exact FieldKind.integer.inj hkind ▸ hpositive _ hb
  · rw [h] at hkind
    cases hkind
  · rw [h] at hplain
    simp [plainKinds] at hplain

/-- Only an enumeration with members has the shape of one. -/
theorem ofType_eq_enumeration {path : String} {members : List String}
    (h : FieldKind.ofType s t = .enumeration path members) :
    ∃ d, s.resolve? t = some d ∧ d.kind = .enumeration ∧ d.members ≠ [] ∧
      path = d.shortName ∧ members = d.members := by
  rcases ofType_cases s t with ⟨T, b, hb, hkind⟩ | ⟨d, hd, henum, hne, hkind⟩ | hplain
  · rw [h] at hkind
    cases hkind
  · rw [h] at hkind
    obtain ⟨rfl, rfl⟩ := FieldKind.enumeration.inj hkind
    exact ⟨d, hd, henum, hne, rfl, rfl⟩
  · rw [h] at hplain
    simp [plainKinds] at hplain

/-! ## Integers and options -/

/-- What the names of integer types have in common. -/
theorem integerBounds_names (hT : (T, bound) ∈ integerBounds) :
    integerBounds.lookup T = some bound ∧ ':' ∉ T.toList ∧ '.' ∉ T.toList ∧
      T.toList.head?.all (· ≠ '&') = true ∧ T ≠ "Option" := by
  have hall : ∀ e ∈ integerBounds, integerBounds.lookup e.1 = some e.2 ∧ ':' ∉ e.1.toList ∧
      '.' ∉ e.1.toList ∧ e.1.toList.head?.all (· ≠ '&') = true ∧ e.1 ≠ "Option" := by decide
  exact hall _ hT

theorem dropWhile_signs {cs : List Char} (h : cs.head?.all (· ≠ '&') = true) (signs : Nat) :
    (List.replicate signs '&' ++ cs).dropWhile (· = '&') = cs := by
  induction signs with
  | zero =>
    cases cs with
    | nil => rfl
    | cons c cs => simpa using h
  | succ signs ih => simpa [List.replicate_succ] using ih

theorem shortName_of_names (hT : (T, bound) ∈ integerBounds) (h : Names t T) :
    ∃ path, t.headName? = some path ∧
      (shortName path).toList.dropWhile (· = '&') = T.toList := by
  obtain ⟨-, hcolon, hpoint, hsign, -⟩ := integerBounds_names hT
  obtain ⟨path, signs, hpath, hend⟩ := h
  have hshort : shortName path = String.ofList (List.replicate signs '&' ++ T.toList) := by
    rw [shortName_eq_iff (by simp [hcolon]) (by simp [hpoint]), String.toList_ofList]
    exact hend
  exact ⟨path, hpath, by rw [hshort, String.toList_ofList, dropWhile_signs hsign]⟩

theorem ofType_of_names (hT : (T, bound) ∈ integerBounds) (h : Names t T) :
    FieldKind.ofType s t = .integer bound := by
  obtain ⟨path, hpath, hdrop⟩ := shortName_of_names hT h
  rw [FieldKind.ofType, TypeReference.shortName?, hpath, Option.map_some]
  dsimp only
  rw [hdrop, String.ofList_toList, FieldKind.ofName?, (integerBounds_names hT).1]

theorem shape_of_optional (h : IsOptional t u) : Shape.ofType s t = ⟨.ofType s u, true⟩ := by
  obtain ⟨path, rfl, hend⟩ := h
  have hshort : shortName path = "Option" := (shortName_eq_iff (by decide) (by decide)).2 hend
  rw [Shape.ofType, if_pos hshort]

/-- A type is optional, or its shape is that of its kind. -/
theorem shape_cases (s : Session) (t : TypeReference) :
    (∃ u, IsOptional t u) ∨ Shape.ofType s t = ⟨.ofType s t, false⟩ := by
  unfold Shape.ofType
  split
  · split
    · rename_i hshort
      exact .inl ⟨_, _, rfl, (shortName_eq_iff (by decide) (by decide)).1 hshort⟩
    · exact .inr rfl
  · exact .inr rfl

theorem shape_of_names (hT : (T, bound) ∈ integerBounds) (h : Names t T) :
    Shape.ofType s t = ⟨.integer bound, false⟩ := by
  rcases shape_cases s t with ⟨u, path, rfl, hend⟩ | hshape
  · obtain ⟨path', hpath, hdrop⟩ := shortName_of_names hT h
    obtain rfl := Option.some.inj hpath
    -- an optional type has a name of its own, and it is none of the integer types'
    have hshort : shortName path = "Option" := (shortName_eq_iff (by decide) (by decide)).2 hend
    rw [hshort] at hdrop
    exact absurd (String.toList_injective hdrop.symm) (integerBounds_names hT).2.2.2.2
  · rw [hshape, ofType_of_names hT h]

theorem hasRange_ofType (s : Session) (t : TypeReference) : (Shape.ofType s t).HasRange := by
  intro bound hkind
  rcases shape_cases s t with ⟨u, hu⟩ | hshape
  · rw [shape_of_optional hu] at hkind
    exact pos_of_ofType hkind
  · rw [hshape] at hkind
    exact pos_of_ofType hkind

/-! ## Examples of types -/

/-- The example of an integer type is a number below the bound. -/
theorem exists_number {nullable : Bool} (hT : (T, bound) ∈ integerBounds)
    (hshape : Shape.ofType s t = ⟨.integer bound, nullable⟩) (model field : String)
    (x : Synthesizer) : ∃ n < bound, IsValue T n ∧
      (x.render model field (.ofType s t)).1 =
        Shape.write ⟨.integer bound, nullable⟩ (some (toString n)) := by
  have hpos : 0 < bound := hasRange_ofType s t bound (by rw [hshape])
  have hlt := Random.Generator.below_lt hpos x.generator
  rw [hshape, render_eq]
  exact ⟨_, hlt, isValue_of_lt hT hlt, rfl⟩

/-- The example of an enumeration has a member, and not the last one if there are others. -/
theorem exists_member {nullable : Bool} {path : String} {members : List String}
    (hshape : Shape.ofType s t = ⟨.ofType s u, nullable⟩)
    (hkind : (Shape.ofType s t).kind = .enumeration path members) (model field : String)
    (x : Synthesizer) : ∃ d i member, s.resolve? u = some d ∧ d.kind = .enumeration ∧
      d.members[i]? = some member ∧ (2 ≤ d.members.length → i + 1 < d.members.length) ∧
      (x.render model field (.ofType s t)).1 =
        Shape.write ⟨.ofType s u, nullable⟩ (some s!"{d.shortName}::{member}") := by
  rw [hshape] at hkind ⊢
  obtain ⟨d, hd, henum, hne, rfl, rfl⟩ := ofType_eq_enumeration hkind
  obtain ⟨i, member, hget, hlast, hat, -⟩ := pickedMember_eq hne (x.luck x.picked)
  refine ⟨d, i, member, hd, henum, hget, hlast, ?_⟩
  rw [render_eq, hkind, value?, hat]

/-- After any examples of types, the example of a type is found: no number is drawn from an empty range,
and no index is outside of a list. For an integer type it is a number below the bound, and so a value of
the type. For an enumeration it is a member, and not the last one if there are others. -/
theorem render_classified (seed : UInt64) (descriptionsType : String) (luck : Nat → Nat)
    {before : List Call} (hbefore : ∀ call ∈ before, ∃ s t, call.shape = .ofType s t)
    (s : Session) (t : TypeReference) (model field : String) :
    let start := ofSeed seed descriptionsType luck
    let x := (renderAll before start).2
    let text := (x.render model field (.ofType s t)).1
    guardedAll before start = .ok (renderAll before start) ∧
    x.guardedRender ⟨model, field, .ofType s t⟩ = .ok (x.render model field (.ofType s t)) ∧
    (∀ T bound, (T, bound) ∈ integerBounds → Names t T →
      ∃ n < bound, IsValue T n ∧ text = toString n) ∧
    (∀ T bound u, (T, bound) ∈ integerBounds → IsOptional t u → Names u T →
      ∃ n < bound, IsValue T n ∧ text = s!"Some({n})") ∧
    ∀ path members, (Shape.ofType s t).kind = .enumeration path members →
      ∃ d i member, d.kind = .enumeration ∧ d.members[i]? = some member ∧
        (2 ≤ d.members.length → i + 1 < d.members.length) ∧
        (s.resolve? t = some d ∧ text = s!"{d.shortName}::{member}" ∨
          ∃ u, IsOptional t u ∧ s.resolve? u = some d ∧
            text = s!"Some({d.shortName}::{member})") := by
  intro start x text
  have hrange : ∀ call ∈ before, call.shape.HasRange := fun call hcall => by
    obtain ⟨s, t, hshape⟩ := hbefore call hcall
    rw [hshape]
    exact hasRange_ofType s t
  refine ⟨guardedAll_eq hrange start, guardedRender_eq (hasRange_ofType s t) x, ?_, ?_, ?_⟩
  · intro T bound hT hnames
    exact exists_number hT (shape_of_names hT hnames) model field x
  · intro T bound u hT hoptional hnames
    have hshape := shape_of_optional (s := s) hoptional
    rw [ofType_of_names hT hnames] at hshape
    exact exists_number hT hshape model field x
  · intro path members hkind
    rcases shape_cases s t with ⟨u, hoptional⟩ | hshape
    · obtain ⟨d, i, member, hd, henum, hget, hlast, htext⟩ :=
        exists_member (shape_of_optional hoptional) hkind model field x
      exact ⟨d, i, member, henum, hget, hlast, .inr ⟨u, hoptional, hd, htext⟩⟩
    · obtain ⟨d, i, member, hd, henum, hget, hlast, htext⟩ :=
        exists_member hshape hkind model field x
      exact ⟨d, i, member, henum, hget, hlast, .inl ⟨hd, htext⟩⟩

def stateType : DescribedType :=
  ⟨"acme::State", "acme", .enumeration, none, [], [], [], ["On", "Off", "Gone"]⟩

/-- After an age and a state, a byte that may be missing and another state. -/
theorem render_classified_state :
    let s := Session.ofSnapshots [⟨"acme", [], [stateType]⟩]
    let byte := TypeReference.generic "std::option::Option" [.named "core::primitive.u8"]
    let before : List Call := [⟨"User", "age", .ofType s (.named "i64")⟩,
      ⟨"User", "state", .ofType s (.named "State")⟩]
    let x := (renderAll before (ofSeed 1 "Descriptions" id)).2
    (∀ call ∈ before, ∃ s t, call.shape = .ofType s t) ∧
    (∃ n < 255, (x.render "Pixel" "red" (.ofType s byte)).1 = s!"Some({n})") ∧
    (x.render "Pixel" "state" (.ofType s (.named "State"))).1 ∈ ["State::On", "State::Off"] := by
  intro s byte before x
  have hbefore : ∀ call ∈ before, ∃ s t, call.shape = .ofType s t := by
    intro call hcall
    simp only [before, List.mem_cons, List.not_mem_nil, or_false] at hcall
    rcases hcall with rfl | rfl
    · exact ⟨s, .named "i64", rfl⟩
    · exact ⟨s, .named "State", rfl⟩
  refine ⟨hbefore, ?_, ?_⟩
  · obtain ⟨-, -, -, hoptional, -⟩ :=
      render_classified 1 "Descriptions" id hbefore s byte "Pixel" "red"
    obtain ⟨n, hn, -, htext⟩ := hoptional "u8" 255 (.named "core::primitive.u8") (by decide)
      ⟨"std::option::Option", rfl, by decide⟩ ⟨"core::primitive.u8", 0, rfl, by decide⟩
    exact ⟨n, hn, htext⟩
  · obtain ⟨-, -, -, -, hmember⟩ :=
      render_classified 1 "Descriptions" id hbefore s (.named "State") "Pixel" "state"
    have hkind : (Shape.ofType s (.named "State")).kind =
        .enumeration "State" ["On", "Off", "Gone"] := by decide
    have hresolve : s.resolve? (.named "State") = some stateType := rfl
    obtain ⟨d, i, member, -, hget, hlast, ⟨hd, htext⟩ | ⟨u, ⟨path, hpath, -⟩, -⟩⟩ := hmember _ _ hkind
    · obtain rfl := Option.some.inj (hresolve.symm.trans hd)
      have hi : i + 1 < 3 := hlast (by decide)
      rw [htext]
      match i, hi with
      | 0, _ =>
        obtain rfl := Option.some.inj hget
        decide
      | 1, _ =>
        obtain rfl := Option.some.inj hget
        decide
    · cases hpath

end Docsmith.Example
