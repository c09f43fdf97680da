import Docsmith.Data.Decode
import Docsmith.Data.Json
import Docsmith.Data.Yaml
import Docsmith.Error

/-!
# Data in texts

Reads a text of a known format into a type.
-/

namespace Docsmith.Data

/-- The format of a file, which its name tells. -/
def Format.ofExtension : Option String → Format
  | some "yaml" | some "yml" => .yaml
  | _ => .json

/-- The data a text holds. -/
def Format.read? (format : Format) (text : String) : Option Root :=
  match format with
  | .json => (Json.read? text).map fun v => ⟨v, 0⟩
  | .yaml => Yaml.read? text

/-- A text that does not hold what was asked for. -/
def Format.fault : Format → Error
  | .json => .json "the text does not hold the expected data"
  | .yaml => .yaml "the text does not hold the expected data"

/-- Reads a text as a type. -/
def Format.decode {α : Type} (format : Format) (reader : Reader α) (text : String) :
    Except Error α :=
  match (format.read? text).bind (reader.read? format) with
  | some a => .ok a
  | none => .error format.fault

end Docsmith.Data
