import Docsmith.Data.Table
import Docsmith.Error
import Docsmith.Source.Declaration
import Docsmith.Source.Layout
import Docsmith.Source.Revision
import Docsmith.Text.Quoted

/-!
# Description constants

The constants that attributes name are declared in an impl of one type, in blocks between the
comments of a region. A constant that some impl of the type declares already is left out.
-/

namespace Docsmith.Description

open Docsmith.Source

/-- The names of the constants declared in the impls of a type. -/
def declaredIn (impls : List Located) : List String :=
  (impls.filterMap (·.child? .assocItemList)).flatMap fun list =>
    list.members.filterMap fun m => if m.is .constItem then m.name? else none

/-- The constants some inherent impl of a type declares. -/
def declared (source : String) (typeName : String) : List String :=
  declaredIn ((File.read source).ownImpls typeName)

def constantLine (indent : List Char) (constant : String × String) : List Char :=
  '\n' :: indent ++ s!"pub const {constant.1}: &str = {Text.quote constant.2};".toList

/-- A region with constants, each line indented. -/
def regionBlock (indent : List Char) (region : String) (constants : List (String × String)) :
    List Char :=
  '\n' :: indent ++ s!"// region: {region}".toList ++ constants.flatMap (constantLine indent)
    ++ '\n' :: indent ++ s!"// endregion: {region}".toList

def noImpl (typeName : String) : Error :=
  .parse s!"No inherent impl of '{typeName}' found"

def openImpl (typeName : String) : Error :=
  .parse s!"Impl of '{typeName}' is missing '\x7d'"

/-- Declares the constants that are missing in the last inherent impl of a type. -/
def declareConstants (source typeName region : String) (constants : Table String String) :
    Except Error Revision := do
  let f := File.read source
  let impls := f.ownImpls typeName
  let missing := constants.entries.filter fun c => !(declaredIn impls).contains c.1
  if missing.isEmpty then return .unchanged source
  let some list := impls.getLast?.bind (·.child? .assocItemList) | throw (noImpl typeName)
  let some closing := list.token? .rCurly | throw (openImpl typeName)
  let cs := source.toList
  let outer := indentAt cs closing.start
  let first := list.members.head?
  let indent := (first.bind f.indentOf?).getD (outer ++ fourBlanks)
  let gap := if first.isSome then ['\n'] else []
  let edit := f.insertBlock closing.start outer (gap ++ regionBlock indent region missing)
  return ⟨source, String.ofList (Edit.applyAll cs [edit])⟩

end Docsmith.Description
