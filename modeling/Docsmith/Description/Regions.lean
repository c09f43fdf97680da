import Docsmith.Data.Table
import Docsmith.Description.Constants

/-!
# Regions of constants

Constants that a run has found, by the region they are to be declared in. Each is described by its
own name until someone writes a better text.
-/

namespace Docsmith.Description

open Docsmith.Source

/-- Regions in the order they were first recorded, each with its constants. -/
structure Regions where
  byName : Table String (Table String String)
  deriving DecidableEq, Repr

namespace Regions

def empty : Regions := ⟨.empty⟩

/-- Adds constants to a region, which may be new. -/
def record (r : Regions) (region : String) (constants : List String) : Regions :=
  ⟨r.byName.update region fun known =>
    constants.foldl (fun t name => t.put name name) (known.getD .empty)⟩

def isEmpty (r : Regions) : Bool := r.byName.values.all Table.isEmpty

/-- Declares the constants of regions in order, each region on what the one before has left. -/
def declareEach (typeName : String) : List (String × Table String String) → Revision →
    Except Error Revision
  | [], done => .ok done
  | (region, constants) :: rest, done => do
    let step ← declareConstants done.after typeName region constants
    declareEach typeName rest ⟨done.before, step.after⟩

/-- Declares all constants in the last inherent impl of a type. -/
def declareIn (r : Regions) (source typeName : String) : Except Error Revision :=
  declareEach typeName (r.byName.entries.filter (!·.2.isEmpty)) (.unchanged source)

end Regions

end Docsmith.Description
