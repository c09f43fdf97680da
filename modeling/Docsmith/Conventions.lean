import Docsmith.Data.Decode
import Docsmith.Description.Annotation
import Docsmith.Discovery.Catalog
import Docsmith.Example.Synthesizer
import Docsmith.Example.Template

/-!
# Conventions

What the program takes for granted about the project it documents. What a text of conventions does
not give has its standard value.
-/

namespace Docsmith

open Docsmith.Data Docsmith.Description Docsmith.Discovery Docsmith.Example

/-- Names, places and the seed that a project agrees on. -/
structure Conventions where
  /-- The short name of the base of every controller. -/
  controllerBase : String
  /-- The short name of the attribute that declares a response. -/
  responseAttribute : String
  /-- An attribute that holds this text marks an operation. -/
  operationMarker : String
  /-- How the names of owned modules start, besides the target. -/
  families : List String
  /-- The type that holds the description constants. -/
  descriptionsType : String
  /-- The file name of the document that declares it. -/
  descriptionsDocument : String
  /-- The file name of the document with the registry of types. -/
  registryDocument : String
  /-- The name the registry is bound to. -/
  registryVariable : String
  /-- The path of the trait an example implements. -/
  examplesProvider : String
  /-- The path examples import the description constants by. -/
  descriptionsImport : String
  /-- The folders of new examples. -/
  exampleFolders : List String
  /-- The seed of the numbers in examples. -/
  seed : UInt64
  deriving DecidableEq, Repr

namespace Conventions

def standard : Conventions where
  controllerBase := CatalogConventions.standard.controllerBase
  responseAttribute := CatalogConventions.standard.responseAttribute
  operationMarker := MarkOptions.standard.operationMarker
  families := CatalogConventions.standard.families
  descriptionsType := MarkOptions.standard.descriptionsType
  descriptionsDocument := "descriptions.rs"
  registryDocument := "external_models.rs"
  registryVariable := "external_model_types"
  examplesProvider := Template.standard.providerPath
  descriptionsImport := Template.standard.descriptionsImport
  exampleFolders := Template.standard.folders
  seed := Synthesizer.usualSeed

def discovery (c : Conventions) : CatalogConventions :=
  ⟨c.controllerBase, c.responseAttribute, c.families⟩

def annotator (c : Conventions) (decorateParameters : Bool) : MarkOptions :=
  ⟨c.descriptionsType, c.operationMarker, decorateParameters⟩

def template (c : Conventions) : Template :=
  ⟨c.examplesProvider, c.descriptionsImport, c.exampleFolders⟩

/-! ## Reading -/

def fieldNames : List String :=
  ["controller_base", "response_attribute", "operation_marker", "allowed_module_prefixes",
    "descriptions_type", "descriptions_document", "registry_document", "registry_variable",
    "examples_provider", "descriptions_import", "example_folders", "seed"]

def reader (format : Format) : Reader Conventions :=
  .fields format fieldNames fun
    | depth, [controllerBase, responseAttribute, operationMarker, families, descriptionsType,
        descriptionsDocument, registryDocument, registryVariable, examplesProvider,
        descriptionsImport, exampleFolders, seed] => do
      let text (default : String) (v : Option Value) : Reading String :=
        Reader.defaulted default Reader.text depth v
      let texts (default : List String) (v : Option Value) : Reading (List String) :=
        Reader.defaulted default (.list Reader.text) depth v
      return {
        controllerBase := ← text standard.controllerBase controllerBase
        responseAttribute := ← text standard.responseAttribute responseAttribute
        operationMarker := ← text standard.operationMarker operationMarker
        families := ← texts standard.families families
        descriptionsType := ← text standard.descriptionsType descriptionsType
        descriptionsDocument := ← text standard.descriptionsDocument descriptionsDocument
        registryDocument := ← text standard.registryDocument registryDocument
        registryVariable := ← text standard.registryVariable registryVariable
        examplesProvider := ← text standard.examplesProvider examplesProvider
        descriptionsImport := ← text standard.descriptionsImport descriptionsImport
        exampleFolders := ← texts standard.exampleFolders exampleFolders
        seed := ← Reader.defaulted standard.seed Reader.unsigned depth seed }
    | _, _ => failure

end Conventions

end Docsmith
