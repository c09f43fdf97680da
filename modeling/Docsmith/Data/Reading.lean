import Docsmith.Data.Value

/-!
# Reading

Reading data may fail, and may follow a limited number of aliases.
-/

namespace Docsmith.Data

/-- Reading may fail. Its state is the number of aliases it may still follow. -/
abbrev Reading := StateT Nat Option

/-- Takes a value, and the number of containers that may still be entered. -/
abbrev Reader (α : Type) := Nat → Value → Reading α

/-- Follows one alias. -/
def Reading.follow : Reading Unit := fun
  | 0 => none
  | links + 1 => some ((), links)

/-- Enters a container. -/
def Reading.enter {α : Type} (depth : Nat) (read : Nat → Reading α) : Reading α :=
  match depth with
  | 0 => failure
  | depth + 1 => read depth

/-- The value itself, or what an alias stands for. -/
def Value.resolved : Value → Reading Value
  | .alias v => do Reading.follow; return v
  | v => return v

/-- What a reader makes of the data of a text. -/
def Reader.read? {α : Type} (r : Reader α) (format : Format) (root : Root) : Option α :=
  (r format.depth root.value).run' root.links

end Docsmith.Data
