import Docsmith.Naming
import Docsmith.Text.SnakeCase

/-!
# Example documents

A new document that provides the example of a model, with a literal that has no fields yet.
-/

namespace Docsmith.Example

open Docsmith.Naming Docsmith.Text

/-- What example documents import, and where they are put. -/
structure Template where
  /-- The path of the trait an example implements. -/
  providerPath : String
  /-- The path of the type that holds the description constants. -/
  descriptionsImport : String
  folders : List String
  deriving DecidableEq, Repr

namespace Template

def standard : Template :=
  ⟨"crate::swagger::ExamplesProvider", "crate::docs::Descriptions",
    ["swagger", "response_examples"]⟩

/-- The file name of the example of a model. -/
def fileName (model : String) : String :=
  snakeCase (shortName model) ++ "_response_example.rs"

/-- The example document of the model at a path. A path of one segment is not imported. -/
def render (t : Template) (modelPath : String) : String :=
  let model := shortName modelPath
  let provider := shortName t.providerPath
  let imports := (if occurs colons modelPath.toList then [s!"use {modelPath};"] else [])
    ++ [s!"use {t.providerPath};", s!"use {t.descriptionsImport};"]
  let lines := imports ++ [
    "",
    "/// Example payload for [" ++ "\x60" ++ model ++ "\x60" ++ "].",
    s!"pub struct {model}ResponseExample;",
    "",
    s!"impl {provider}<{model}> for {model}ResponseExample \x7b",
    "    fn get_examples(&self) -> " ++ model ++ " \x7b",
    s!"        {model} \x7b \x7d",
    "    \x7d",
    "\x7d",
    ""]
  "\n".intercalate lines

end Template

end Docsmith.Example
