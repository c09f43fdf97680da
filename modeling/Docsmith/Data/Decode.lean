import Docsmith.Data.Plain
import Docsmith.Data.Reading
import Docsmith.Data.Table

/-!
# Readers

A reader answers none where the value is not of the form it reads. In JSON a record may also be
given as a list of its fields in order.
-/

namespace Docsmith.Data

namespace Value

/-! ## Scalars -/

/-- Any scalar but a number read as JSON. -/
def text? : Value → Option String
  | .scalar _ s | .tagged _ (.scalar _ s) => some s
  | _ => none

/-- A scalar that may stand for what a tag names: one without quotes, or a literal with the tag. -/
def wordOf? (expected : Tag) : Value → Option String
  | .scalar .plain s | .tagged _ (.scalar .plain s) => some s
  | .tagged tag (.scalar .literal s) => if tag = expected then some s else none
  | _ => none

def bool? : Value → Option Bool
  | .bool b => some b
  | v => (v.wordOf? .bool).bind boolOf?

def int? : Value → Option Int
  | .int n => some n
  | v => (v.wordOf? .int).bind signedOf?

def nat? : Value → Option Nat
  | .int n => if 0 ≤ n then some n.toNat else none
  | v => (v.wordOf? .int).bind unsignedOf?

/-- Nothing stands where a word without a content may. -/
def isNull : Value → Bool
  | .null => true
  | .scalar .plain s => isNothing s
  | _ => false

/-- Tells whether an optional value is there. What is tagged as nothing must be written as such. -/
def isGiven? : Value → Option Bool
  | .null => some false
  | .scalar .plain s => some !(isNothing s)
  | .tagged tag (.scalar .plain s) =>
    if tag = .null then (if isNullWord s then some false else none) else some !s.isEmpty
  | _ => some true

/-! ## Containers -/

/-- Nothing was written where a container could stand. -/
def isMissing : Value → Bool
  | .scalar .plain s => s.isEmpty
  | _ => false

/-- The value under a tag on a container, which reading a container ignores. -/
def untagged : Value → Value
  | .tagged _ v => v
  | v => v

/-- The text of a key. -/
def key (v : Value) : Reading String := do (← v.resolved).text?

end Value

namespace Reader

variable {α : Type}

def text : Reader String := fun _ v => do (← v.resolved).text?

def bool : Reader Bool := fun _ v => do (← v.resolved).bool?

def signed : Reader Int64 := fun _ v => do
  let n ← (← v.resolved).int?
  if isSigned64 n then return .ofInt n else failure

def unsigned : Reader UInt64 := fun _ v => do
  let n ← (← v.resolved).nat?
  if n < UInt64.size then return n.toUInt64 else failure

def list (element : Reader α) : Reader (List α) := fun depth v => do
  match (← v.resolved).untagged with
  | .list vs => Reading.enter depth fun depth => vs.mapM (element depth)
  | v => if v.isMissing then return [] else failure

/-- Fields by name. Of fields with one name the last value counts. -/
def table (element : Reader α) : Reader (Table String α) := fun depth v => do
  match (← v.resolved).untagged with
  | .record fs =>
    Reading.enter depth fun depth =>
      fs.foldlM (fun t f => do return t.put (← f.1.key) (← element depth f.2)) .empty
  | v => if v.isMissing then return .empty else failure

def optional (r : Reader α) : Reader (Option α) := fun depth v => do
  let v ← v.resolved
  if ← v.isGiven? then return some (← r depth v) else return none

/-! ## Records -/

/-- The values of the fields with the given names, in their order. No field may be given twice. -/
def named? (names : List String) (fs : List (String × Value)) : Option (List (Option Value)) :=
  names.mapM fun name =>
    match fs.filter (·.1 = name) with
    | [] => some none
    | [f] => some (some f.2)
    | _ => none

/-- The fields of a list, which gives them in order. -/
def listed? (names : List String) (vs : List Value) : Option (List (Option Value)) :=
  if names.length < vs.length then none
  else some (vs.map some ++ List.replicate (names.length - vs.length) none)

/-- Reads a record with the given fields. -/
def fields (format : Format) (names : List String)
    (read : Nat → List (Option Value) → Reading α) : Reader α := fun depth v => do
  match (← v.resolved).untagged with
  | .record fs =>
    Reading.enter depth fun depth => do
      let fs ← fs.mapM fun f => do return (← f.1.key, f.2)
      read depth (← named? names fs)
  | .list vs =>
    Reading.enter depth fun depth => do
      if format = .yaml then failure
      read depth (← listed? names vs)
  | v => if v.isMissing then read depth (names.map fun _ => none) else failure

def required (r : Reader α) (depth : Nat) : Option Value → Reading α
  | none => failure
  | some v => r depth v

def defaulted (a : α) (r : Reader α) (depth : Nat) : Option Value → Reading α
  | none => return a
  | some v => r depth v

end Reader

end Docsmith.Data
