import Docsmith.Example.Shape
import Docsmith.Random.Generator

/-!
# Example values

A synthesizer writes an expression for a field. Numbers come from one seeded generator; the member
of an enumeration is picked by a sequence of its own, so it uses up none of the generator's words.
-/

namespace Docsmith.Example

open Docsmith.Naming

/-- What the next example values depend on. -/
structure Synthesizer where
  generator : Random.Generator
  /-- The type that holds the description constants. -/
  descriptionsType : String
  /-- The picks for enumerations, to be scaled to their members. -/
  luck : Nat → Nat
  /-- How many picks have been used. -/
  picked : Nat

namespace Synthesizer

def ofSeed (seed : UInt64) (descriptionsType : String) (luck : Nat → Nat) : Synthesizer :=
  ⟨.ofSeed seed, descriptionsType, luck, 0⟩

/-- The seed of examples that ask for none. -/
def usualSeed : UInt64 := 1

/-- The member for a pick: the one before it, so never the last of several. -/
def memberAt (members : List String) (pick : Nat) : Option String :=
  members[pick % members.length - 1]?

/-- An expression for a field that has something to say, and the synthesizer behind it. -/
def value? (model field : String) (kind : FieldKind) (s : Synthesizer) :
    Option String × Synthesizer :=
  match kind with
  | .text =>
    if namesIdentifier field then (some "uuid::Uuid::new_v4().to_string()", s)
    else
      let constant := constantOf (shortName model) field
      (some s!"{s.descriptionsType}::{constant}.into()", s)
  | .boolean => (some "false", s)
  | .integer bound =>
    let (n, generator) := s.generator.below bound
    (some (toString n), { s with generator })
  | .dateTime => (some "chrono::Utc::now()", s)
  | .uuid => (some "uuid::Uuid::new_v4()", s)
  | .decimal => (some "rust_decimal::Decimal::ZERO", s)
  | .enumeration path members =>
    match memberAt members (s.luck s.picked) with
    | some member => (some s!"{path}::{member}", { s with picked := s.picked + 1 })
    | none => (none, s)
  | .other => (none, s)

/-- An expression for a field, and the synthesizer behind it. -/
def render (model field : String) (shape : Shape) (s : Synthesizer) : String × Synthesizer :=
  match s.value? model field shape.kind with
  | (some v, s) => (if shape.nullable then s!"Some({v})" else v, s)
  | (none, s) => ("Default::default()", s)

end Synthesizer

end Docsmith.Example
