import Docsmith.Data.Plain
import Docsmith.Data.Reading

/-!
# Bare data

Data read as far as it can be without knowing what it is for. Scalars without quotes stand for
numbers and words where they can.
-/

namespace Docsmith.Data

/-- Data without tags and aliases. -/
inductive Bare where
  | text (s : String)
  /-- A number without a minus that fits 64 bits, which may stand for a field by its place. -/
  | place (n : Nat)
  /-- Nothing, a truth value or another number. -/
  | other
  | list (cs : List Bare)
  | record (fields : List (Bare × Bare))
  deriving Repr, Inhabited

namespace Bare

/-! ## Scalars -/

/-- A whole number that fits 64 bits. -/
def ofWhole? (s : String) (n : Int) : Option Bare :=
  if hasMinus s then (if isSigned64 n then some other else none)
  else if n < UInt64.size then some (place n.toNat)
  else none

/-- What a scalar without quotes stands for. -/
def ofPlain? (s : String) : Option Bare :=
  if isNothing s || (boolOf? s).isSome then some other
  else
    match wholeOf? s with
    | some n => ofWhole? s n
    | none =>
      if isReal s && !hasLeadingZero (splitSign s.toList).2 then some other else some (text s)

/-- A scalar under a tag that tells its kind must be of it. -/
def ofTagged? (tag : Tag) (style : Style) (s : String) : Option Bare :=
  if tag = .bool then (boolOf? s).map fun _ => other
  else if tag = .int then (wholeOf? s).bind (ofWhole? s)
  else if tag = .float then (if isReal s then some other else none)
  else if tag = .null then (if isNullWord s then some other else none)
  else if tag.hasMark && style = .plain then ofPlain? s
  else some (text s)

def ofScalar? (tag : Option Tag) (style : Style) (s : String) : Option Bare :=
  match tag with
  | some tag => ofTagged? tag style s
  | none => if style = .plain then ofPlain? s else some (text s)

/-! ## Fields -/

/-- A key that may name a field. -/
def isKey : Bare → Bool
  | text _ | place _ => true
  | _ => false

/-- A key names a field by its name or by its place among the fields. -/
def names (key : Bare) (name : String) (i : Nat) : Bool :=
  match key with
  | text s => s = name
  | place n => n = i
  | _ => false

/-- The values of the fields with the given names, in their order. No field may be given twice. -/
def fields? (names : List String) (fs : List (Bare × Bare)) :
    Option (List (Option Bare)) :=
  if fs.all (·.1.isKey) then
    names.zipIdx.mapM fun (name, i) =>
      match fs.filter (·.1.names name i) with
      | [] => some none
      | [f] => some (some f.2)
      | _ => none
  else none

end Bare

/-! ## Reading -/

namespace Value

mutual

/-- The bare form of a value, none of whose parts may have a local tag. -/
def bare (tag : Option Tag) (depth : Nat) : Value → Reading Bare
  | .null | .bool _ | .int _ | .number => return .other
  | .scalar style s => Bare.ofScalar? tag style s
  | .list vs => Reading.enter depth fun depth => do return .list (← bareItems depth vs)
  | .record fs => Reading.enter depth fun depth => do return .record (← bareFields depth fs)
  | .tagged tag v => if tag.localName?.isSome then failure else bare (some tag) depth v
  | .alias v => do Reading.follow; bare none depth v
  | .unreadable => failure

def bareItems (depth : Nat) : List Value → Reading (List Bare)
  | [] => return []
  | v :: vs => do return (← bare none depth v) :: (← bareItems depth vs)

def bareFields (depth : Nat) : List (Value × Value) → Reading (List (Bare × Bare))
  | [] => return []
  | (k, v) :: fs => do
    let k ← bare none depth k
    let v ← bare none depth v
    return (k, v) :: (← bareFields depth fs)

end

end Value

end Docsmith.Data
