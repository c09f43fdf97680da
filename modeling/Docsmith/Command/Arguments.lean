import Docsmith.Command.Option
import Docsmith.Conventions

/-!
# Arguments

What the program is told to do: where the metadata and the project are, which conventions differ,
and which of two kinds of run to make.
-/

namespace Docsmith.Command

/-- What to do about which types. -/
structure Selection where
  controller : Option String
  type : Option String
  version : String
  /-- Documents are shown, not written. -/
  trial : Bool
  deriving DecidableEq, Repr

/-- The kinds of runs. -/
inductive Task where
  /-- Describes types, with imports for changed documents and other names of the documents that
  declare constants and register types. -/
  | describe (selection : Selection) (imports : List String)
      (descriptionsDocument registryDocument : Option String)
  /-- Makes examples. -/
  | samples (selection : Selection)
  deriving DecidableEq, Repr

/-- The conventions that differ from those of the project. -/
structure Overrides where
  controllerBase : Option String
  responseAttribute : Option String
  families : List String
  seed : Option UInt64
  deriving DecidableEq, Repr

/-- What the program is told. -/
structure Arguments where
  snapshot : String
  project : String
  /-- The file of conventions, if not the usual one. -/
  config : Option String
  overrides : Overrides
  task : Task
  deriving DecidableEq, Repr

def Overrides.apply (o : Overrides) (c : Conventions) : Conventions :=
  { c with
    controllerBase := o.controllerBase.getD c.controllerBase
    responseAttribute := o.responseAttribute.getD c.responseAttribute
    families := if o.families.isEmpty then c.families else o.families
    seed := o.seed.getD c.seed }

/-! ## Options -/

def anyText (_ : String) : Bool := true

def isPath (text : String) : Bool := !text.isEmpty

/-- A whole number of 64 bits, which may have a plus sign. -/
def seed? (text : String) : Option UInt64 :=
  let digits := match text.toList with
    | '+' :: cs => cs
    | cs => cs
  match Data.natOf? 10 digits with
  | some n => if n < UInt64.size then some n.toUInt64 else none
  | none => none

def option (name : String) (arity : Arity) (fallback : String)
    (accepts : String → Bool) : OptionSpec :=
  ⟨name, none, arity, some fallback, accepts⟩

def commonOptions : List OptionSpec := [
  option "snapshot" .single "APIDOC_SNAPSHOT" isPath,
  option "project" .single "APIDOC_PROJECT" isPath,
  option "config" .single "APIDOC_CONFIG" isPath,
  ⟨"verbose", some 'v', .mark, none, anyText⟩,
  ⟨"quiet", some 'q', .mark, none, anyText⟩,
  option "controller-base" .single "APIDOC_CONTROLLER_BASE" anyText,
  option "response-attribute" .single "APIDOC_RESPONSE_ATTRIBUTE" anyText,
  option "allowed-prefix" .gathered "APIDOC_ALLOWED_PREFIXES" anyText,
  option "seed" .single "APIDOC_SEED" fun text => (seed? text).isSome]

def selectionOptions : List OptionSpec := [
  option "controller" .single "APIDOC_CONTROLLER" anyText,
  option "type" .single "APIDOC_TYPE" anyText,
  option "controller-version-prefix" .single "APIDOC_VERSION_PREFIX" anyText,
  option "dry" .mark "APIDOC_DRY_RUN" anyText]

def describeOptions : List OptionSpec := selectionOptions ++ [
  option "use" .gathered "APIDOC_IMPORTS" anyText,
  option "descriptions-document" .single "APIDOC_DESCRIPTIONS_DOCUMENT" anyText,
  option "registry-document" .single "APIDOC_REGISTRY_DOCUMENT" anyText]

/-- The commands with their options. -/
def commands : List (String × List OptionSpec) :=
  [("describe", describeOptions), ("samples", selectionOptions)]

/-! ## Reading -/

def selectionOf (g : Given) : Selection :=
  ⟨g.value? "controller", g.value? "type", (g.value? "controller-version-prefix").getD "",
    g.isMarked "dry"⟩

def taskOf (command : String) (g : Given) : Task :=
  if command = "describe" then
    .describe (selectionOf g) (g.values "use") (g.value? "descriptions-document")
      (g.value? "registry-document")
  else .samples (selectionOf g)

def overridesOf (g : Given) : Overrides :=
  ⟨g.value? "controller-base", g.value? "response-attribute", g.values "allowed-prefix",
    (g.value? "seed").bind seed?⟩

/-- The options and the command of a command line. -/
def Arguments.read (args : List String) (environment : List (String × String)) :
    Except Refusal Arguments := do
  let heard ← scan ⟨commonOptions, commands.map (·.1), true⟩ none args .empty
  let some (name, args) := heard.command | throw .invalid
  let options := (commands.lookup name).getD []
  let own ← fillIn environment options (← (← scan ⟨options, [], false⟩ none args .empty).given)
  let common ← fillIn environment commonOptions (← heard.given)
  let some snapshot := common.value? "snapshot" | throw .invalid
  if common.isMarked "verbose" && common.isMarked "quiet" then throw .invalid
  return {
    snapshot
    project := (common.value? "project").getD "."
    config := common.value? "config"
    overrides := overridesOf common
    task := taskOf name own }

end Docsmith.Command
