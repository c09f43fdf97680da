import Docsmith.Example.Synthesizer
import Mathlib.Data.List.Forall2

/-!
# Calls of a synthesizer

A synthesizer is asked for one expression after another. Two things could stop it: a number from an
empty range, and an index outside of a list of members. A guarded synthesizer says so.

* `guardedAll_eq`: where every number has a range, nothing stops;
* `generator_render`: what a call does to the generator;
* `integers_renderAll`: the numbers of several calls are drawn in turn;
* `integers_agree`: so they hang on the seed and the bounds alone.
-/

namespace Docsmith.Example

open Docsmith.Naming Docsmith.Random

/-! ## Shapes -/

/-- Numbers of the shape are taken from a range that holds one. -/
def Shape.HasRange (shape : Shape) : Prop := ∀ bound, shape.kind = .integer bound → 0 < bound

/-- The expression of a field, for a value if it has one to say. -/
def Shape.write (shape : Shape) : Option String → String
  | some v => if shape.nullable then s!"Some({v})" else v
  | none => "Default::default()"

/-- The value in an expression. -/
def Shape.read (shape : Shape) (text : String) : String :=
  if shape.nullable then String.ofList (text.toList.drop 5).dropLast else text

theorem Shape.read_write (shape : Shape) (v : String) : shape.read (shape.write (some v)) = v := by
  rw [read, write]
  split
  · have hchars : (s!"Some({v})").toList = "Some(".toList ++ (v.toList ++ [')']) := by
      simp [toString]
    rw [hchars, List.drop_left' (by decide), List.dropLast_concat, String.ofList_toList]
  · rfl

/-! ## Calls -/

/-- What a synthesizer is asked for. -/
structure Call where
  model : String
  field : String
  shape : Shape

/-- The bound of the number a call asks for. -/
def Call.bound? (call : Call) : Option Nat :=
  match call.shape.kind with
  | .integer bound => some bound
  | _ => none

/-- What stops a synthesizer. -/
inductive Stop where
  | emptyRange
  | outside (index length : Nat)
  deriving DecidableEq

/-- A number below a bound, if there is one. -/
def drawn (bound : Nat) (g : Generator) : Except Stop (Nat × Generator) :=
  if bound = 0 then .error .emptyRange else .ok (g.below bound)

/-- The member in front of one of as many numbers as there are members. -/
def pickedMember (members : List String) (pick : Nat) : Except Stop String :=
  if members.length = 0 then .error .emptyRange
  else
    match members[pick % members.length - 1]? with
    | some member => .ok member
    | none => .error (.outside (pick % members.length - 1) members.length)

namespace Synthesizer

variable {calls rest : List Call} {s : Synthesizer}

/-- The expressions of several calls in turn. -/
def renderAll : List Call → Synthesizer → List String × Synthesizer
  | [], s => ([], s)
  | call :: rest, s =>
    let (text, s) := s.render call.model call.field call.shape
    let (texts, s) := renderAll rest s
    (text :: texts, s)

/-- A value, unless something stops the synthesizer. -/
def guardedValue (model field : String) (kind : FieldKind) (s : Synthesizer) :
    Except Stop (Option String × Synthesizer) :=
  match kind with
  | .integer bound => do
    let (n, generator) ← drawn bound s.generator
    return (some (toString n), { s with generator })
  | .enumeration path members =>
    if members.isEmpty then return (none, s)
    else do
      let member ← pickedMember members (s.luck s.picked)
      return (some s!"{path}::{member}", { s with picked := s.picked + 1 })
  | kind => return s.value? model field kind

def guardedRender (call : Call) (s : Synthesizer) : Except Stop (String × Synthesizer) := do
  let (value, s) ← s.guardedValue call.model call.field call.shape.kind
  return (call.shape.write value, s)

def guardedAll : List Call → Synthesizer → Except Stop (List String × Synthesizer)
  | [], s => return ([], s)
  | call :: rest, s => do
    let (text, s) ← s.guardedRender call
    let (texts, s) ← guardedAll rest s
    return (text :: texts, s)

theorem render_eq (model field : String) (shape : Shape) (s : Synthesizer) :
    s.render model field shape =
      (shape.write (s.value? model field shape.kind).1, (s.value? model field shape.kind).2) := by
  rw [render]
  generalize s.value? model field shape.kind = r
  obtain ⟨v | v, s⟩ := r <;> rfl

/-! ## Nothing stops -/

/-- The index in front of a picked one is in the list. -/
theorem pickedMember_eq {members : List String} (h : members ≠ []) (pick : Nat) :
    ∃ i member, members[i]? = some member ∧ (2 ≤ members.length → i + 1 < members.length) ∧
      memberAt members pick = some member ∧ pickedMember members pick = .ok member := by
  have hpos := List.length_pos_iff.2 h
  have hpick := Nat.mod_lt pick hpos
  have hlt : pick % members.length - 1 < members.length := by omega
  have hget := List.getElem?_eq_getElem hlt
  refine ⟨_, _, hget, by omega, hget, ?_⟩
  rw [pickedMember, if_neg (Nat.ne_of_gt hpos), hget]

theorem guardedValue_eq (model field : String) {kind : FieldKind} (s : Synthesizer)
    (h : ∀ bound, kind = .integer bound → 0 < bound) :
    s.guardedValue model field kind = .ok (s.value? model field kind) := by
  cases kind with
  | integer bound =>
    rw [guardedValue, drawn, if_neg (Nat.ne_of_gt (h bound rfl))]
    rfl
  | enumeration path members =>
    rw [guardedValue, value?]
    by_cases hm : members = []
    · rw [hm]
      rfl
    · obtain ⟨i, member, -, -, hat, hpicked⟩ := pickedMember_eq hm (s.luck s.picked)
      rw [if_neg (by simpa using hm), hat, hpicked]
      rfl
  | _ => rfl

theorem guardedRender_eq {call : Call} (h : call.shape.HasRange) (s : Synthesizer) :
    s.guardedRender call = .ok (s.render call.model call.field call.shape) := by
  rw [guardedRender, guardedValue_eq call.model call.field s h, render_eq]
  rfl

/-- Where every number has a range, nothing stops a synthesizer. -/
theorem guardedAll_eq (h : ∀ call ∈ calls, call.shape.HasRange) (s : Synthesizer) :
    guardedAll calls s = .ok (renderAll calls s) := by
  induction calls generalizing s with
  | nil => rfl
  | cons call rest ih =>
    rw [guardedAll, guardedRender_eq (h call (List.mem_cons_self ..))]
    have hrest := ih fun c hc => h c (List.mem_cons_of_mem call hc)
    simp only [hrest, renderAll]
    rfl

/-! ## Numbers -/

/-- Numbers below bounds, drawn in turn. -/
def numbers : List Nat → Generator → List Nat × Generator
  | [], g => ([], g)
  | bound :: rest, g =>
    let (n, g) := g.below bound
    let (ns, g) := numbers rest g
    (n :: ns, g)

/-- The integers in the expressions of calls. -/
def integers : List Call → List String → List String
  | call :: rest, text :: texts =>
    match call.bound? with
    | some _ => call.shape.read text :: integers rest texts
    | none => integers rest texts
  | _, _ => []

theorem numbers_cons (bound : Nat) (rest : List Nat) (g : Generator) :
    numbers (bound :: rest) g =
      ((g.below bound).1 :: (numbers rest (g.below bound).2).1,
        (numbers rest (g.below bound).2).2) := rfl

theorem renderAll_cons (call : Call) (rest : List Call) (s : Synthesizer) :
    renderAll (call :: rest) s =
      ((s.render call.model call.field call.shape).1 ::
          (renderAll rest (s.render call.model call.field call.shape).2).1,
        (renderAll rest (s.render call.model call.field call.shape).2).2) := rfl

theorem kind_of_bound? {call : Call} {bound : Nat} (h : call.bound? = some bound) :
    call.shape.kind = .integer bound := by
  rw [Call.bound?] at h
  split at h
  · rename_i hkind
    rw [hkind, Option.some.inj h]
  · cases h

/-- A call that asks for a number takes it from the generator. -/
theorem render_of_bound? {call : Call} {bound : Nat} (h : call.bound? = some bound)
    (s : Synthesizer) : s.render call.model call.field call.shape =
      (call.shape.write (some (toString (s.generator.below bound).1)),
        { s with generator := (s.generator.below bound).2 }) := by
  rw [render_eq, kind_of_bound? h]
  rfl

/-- Any other call leaves the generator as it is. -/
theorem generator_render {call : Call} (h : call.bound? = none) (s : Synthesizer) :
    (s.render call.model call.field call.shape).2.generator = s.generator := by
  rw [render_eq]
  cases hkind : call.shape.kind with
  | integer bound =>
    rw [Call.bound?, hkind] at h
    cases h
  | text =>
    dsimp only [value?]
    split <;> rfl
  | enumeration path members =>
    dsimp only [value?]
    split <;> rfl
  | _ => rfl

/-- The numbers of several calls are drawn in turn, whatever stands between them. -/
theorem integers_renderAll (calls : List Call) (s : Synthesizer) :
    integers calls (renderAll calls s).1 =
        (numbers (calls.filterMap Call.bound?) s.generator).1.map toString ∧
      (renderAll calls s).2.generator =
        (numbers (calls.filterMap Call.bound?) s.generator).2 := by
  induction calls generalizing s with
  | nil => exact ⟨rfl, rfl⟩
  | cons call rest ih =>
    rw [renderAll_cons]
    cases hbound : call.bound? with
    | none =>
      rw [List.filterMap_cons_none hbound, ← generator_render hbound s, integers, hbound]
      exact ih _
    | some bound =>
      rw [List.filterMap_cons_some hbound, numbers_cons, render_of_bound? hbound, integers, hbound]
      obtain ⟨hintegers, hgenerator⟩ := ih { s with generator := (s.generator.below bound).2 }
      refine ⟨?_, hgenerator⟩
      dsimp only
      rw [hintegers, Shape.read_write, List.map_cons]

theorem numbers_lt {bounds : List Nat} (h : ∀ bound ∈ bounds, 0 < bound) (g : Generator) :
    List.Forall₂ (· < ·) (numbers bounds g).1 bounds := by
  induction bounds generalizing g with
  | nil => exact .nil
  | cons bound rest ih =>
    exact .cons (Generator.below_lt (h bound (List.mem_cons_self ..)) g)
      (ih (fun b hb => h b (List.mem_cons_of_mem bound hb)) _)

theorem bound?_of_kind {call : Call} {bound : Nat} (h : call.shape.kind = .integer bound) :
    call.bound? = some bound := by
  rw [Call.bound?, h]

theorem hasRange_of_bounds (h : ∀ bound ∈ calls.filterMap Call.bound?, 0 < bound) :
    ∀ call ∈ calls, call.shape.HasRange := fun call hcall bound hkind =>
  h bound (List.mem_filterMap.2 ⟨call, hcall, bound?_of_kind hkind⟩)

/-- Two sequences of calls with one seed draw the same numbers if they ask for numbers below the same
bounds in the same order. What else they ask for, and where, makes no difference. -/
theorem integers_agree (seed : UInt64) (descriptionsType descriptionsType' : String)
    (luck luck' : Nat → Nat) {calls calls' : List Call}
    (hpositive : ∀ bound ∈ calls.filterMap Call.bound?, 0 < bound)
    (hbounds : calls.filterMap Call.bound? = calls'.filterMap Call.bound?) :
    let s := ofSeed seed descriptionsType luck
    let s' := ofSeed seed descriptionsType' luck'
    guardedAll calls s = .ok (renderAll calls s) ∧
    guardedAll calls' s' = .ok (renderAll calls' s') ∧
    ∃ ns : List Nat, List.Forall₂ (· < ·) ns (calls.filterMap Call.bound?) ∧
      integers calls (renderAll calls s).1 = ns.map toString ∧
      integers calls' (renderAll calls' s').1 = ns.map toString := by
  intro s s'
  have hrange := hasRange_of_bounds hpositive
  have hrange' := hasRange_of_bounds (hbounds ▸ hpositive)
  have hintegers := (integers_renderAll calls s).1
  have hintegers' := (integers_renderAll calls' s').1
  -- both generators start from the seed
  rw [← hbounds] at hintegers'
  exact ⟨guardedAll_eq hrange s, guardedAll_eq hrange' s', _, numbers_lt hpositive _, hintegers,
    hintegers'⟩

/-- A user with an age, and a colour between a name and a state. -/
theorem integers_agree_bytes :
    let byte : FieldKind := .integer 255
    let calls : List Call := [⟨"User", "age", ⟨byte, true⟩⟩, ⟨"User", "id", ⟨.uuid, false⟩⟩]
    let calls' : List Call := [⟨"Pixel", "name", ⟨.text, true⟩⟩, ⟨"Pixel", "red", ⟨byte, false⟩⟩,
      ⟨"Pixel", "state", ⟨.enumeration "State" ["On", "Off"], false⟩⟩]
    (∀ bound ∈ calls.filterMap Call.bound?, 0 < bound) ∧
    calls.filterMap Call.bound? = calls'.filterMap Call.bound? ∧
    let s := ofSeed 1 "Descriptions" id
    let s' := ofSeed 1 "Constants" fun _ => 0
    ∃ n < 255, integers calls (renderAll calls s).1 = [toString n] ∧
      integers calls' (renderAll calls' s').1 = [toString n] := by
  intro byte calls calls'
  have hpositive : ∀ bound ∈ calls.filterMap Call.bound?, 0 < bound := by decide
  have hbounds : calls.filterMap Call.bound? = calls'.filterMap Call.bound? := by decide
  refine ⟨hpositive, hbounds, ?_⟩
  intro s s'
  obtain ⟨-, -, ns, hlt, hintegers, hintegers'⟩ :=
    integers_agree 1 "Descriptions" "Constants" id (fun _ => 0) hpositive hbounds
  have hbound : calls.filterMap Call.bound? = [255] := rfl
  rw [hbound] at hlt
  cases hlt with
  | cons hn hnil =>
    cases hnil
    exact ⟨_, hn, hintegers, hintegers'⟩

end Synthesizer

end Docsmith.Example
