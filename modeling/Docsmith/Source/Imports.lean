import Docsmith.Source.Declaration
import Docsmith.Source.Edit
import Docsmith.Source.Revision

/-!
# Imports

New imports of a file go behind its last one, or to its top. Two imports are the same when their
paths differ in letter case only.
-/

namespace Docsmith.Source

open Docsmith.Text

/-- The path of an import, which may be written with its keyword and semicolons. -/
def importedName (written : String) : String :=
  let path := trimWhile isWhite (dropEndWhile (· = ';') (trimWhile isWhite written.toList))
  match afterStart? "use ".toList path with
  | some rest => String.ofList (trimWhile isWhite rest)
  | none => String.ofList path

/-- The paths not among `known` in lower case, each once. -/
def newImports : List String → List String → List String
  | _, [] => []
  | known, i :: rest =>
    let path := importedName i
    if path.isEmpty || known.contains (toLower path) then newImports known rest
    else path :: newImports (toLower path :: known) rest

namespace File

def imports (f : File) : List Located := f.root.childrenOf .useItem

/-- The imported trees as written. -/
def importTrees (f : File) : List String :=
  f.imports.filterMap fun u => (u.child? .useTree).map Located.text

end File

/-- Adds the imports a file lacks. -/
def addImports (source : String) (imports : List String) : Revision :=
  let f := File.read source
  let missing := newImports (f.importTrees.map toLower) imports
  if missing.isEmpty then .unchanged source
  else
    let edit : Edit :=
      match f.imports.getLast? with
      | some last => .insert last.stop (missing.flatMap fun p => s!"\nuse {p};".toList)
      | none => .insert 0 (missing.flatMap fun p => s!"use {p};\n".toList)
    ⟨source, String.ofList (Edit.applyAll source.toList [edit])⟩

end Docsmith.Source
