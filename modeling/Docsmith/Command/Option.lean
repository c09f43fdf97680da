import Docsmith.Data.Table
import Docsmith.Text.Search

/-!
# Options

Options of a command line by their names. Values come from the command line, or else from the
environment. A mark or a value may be given once only, unless an option gathers values.
-/

namespace Docsmith.Command

open Docsmith.Text

/-- What an option takes. -/
inductive Arity where
  /-- Nothing: it is given or not. -/
  | mark
  /-- One value. -/
  | single
  /-- Values separated by commas, as often as wanted. -/
  | gathered
  deriving DecidableEq, Repr

/-- An option of a command line. -/
structure OptionSpec where
  name : String
  letter : Option Char
  arity : Arity
  /-- The environment variable that stands in for it. -/
  fallback : Option String
  /-- The values it takes. -/
  accepts : String → Bool

/-- Why a command line is not carried out. -/
inductive Refusal where
  /-- The use of the program is asked for. -/
  | help
  /-- The version of the program is asked for. -/
  | version
  /-- The arguments are wrong. -/
  | invalid
  deriving DecidableEq, Repr

/-- The options of a command, and the commands that may follow them. -/
structure Usage where
  options : List OptionSpec
  commands : List String
  hasVersion : Bool

/-- What comes of asking for help: it is about everything or about one command. -/
def Usage.helpOn (s : Usage) : List String → Refusal
  | [] => .help
  | [command] => if command = "help" || s.commands.contains command then .help else .invalid
  | _ => .invalid

/-- The values given for options. -/
abbrev Given := Table String (List String)

/-- A value for marks that are given. -/
def markValue : String := "true"

def isTruth (value : String) : Bool := value = "true" || value = "false"

/-! ## Reading -/

/-- The values an option gets from one text. -/
def OptionSpec.values (o : OptionSpec) (text : String) : List String :=
  match o.arity with
  | .gathered => (piecesBy (· = ',') text.toList).map String.ofList
  | _ => [text]

/-- Adds a value from the command line. -/
def OptionSpec.give (o : OptionSpec) (text : String) (given : Given) : Except Refusal Given :=
  let values := o.values text
  if !values.all o.accepts then .error .invalid
  else
    match o.arity, given.find? o.name with
    | _, none => .ok (given.put o.name values)
    | .gathered, some known => .ok (given.put o.name (known ++ values))
    | _, some _ => .error .invalid

/-- The parts of a long option: its name, and the value that follows an equals sign. -/
def longParts (cs : List Char) : String × Option String :=
  let name := cs.takeWhile (· ≠ '=')
  match cs.dropWhile (· ≠ '=') with
  | [] => (String.ofList name, none)
  | _ :: value => (String.ofList name, some (String.ofList value))

/-- Marks written as letters behind one hyphen. -/
def letters (s : Usage) : List Char → Given → Except Refusal Given
  | [], given => .ok given
  | c :: cs, given =>
    match s.options.find? (·.letter = some c) with
    | some o => do letters s cs (← o.give markValue given)
    | none =>
      if c = 'h' then .error .help
      else if c = 'V' && s.hasVersion then .error .version
      else .error .invalid

/-- An argument that cannot be the value of an option before it. -/
def looksLikeOption (arg : String) : Bool := arg.startsWith "-" && arg ≠ "-"

/-- The command that the arguments begin with, and the arguments behind it. -/
def Usage.command? (s : Usage) : List String → Except Refusal (Option (String × List String))
  | [] => .ok none
  | arg :: args =>
    if s.commands.contains arg then .ok (some (arg, args))
    else if arg = "help" && !s.commands.isEmpty then .error (s.helpOn args)
    else .ok none

/-- What stands before a command or the end, and the command with the arguments behind it. A value
right before a command is checked after the arguments of the command, so what is wrong with it is
kept. -/
structure Heard where
  given : Except Refusal Given
  command : Option (String × List String)

/-- Reads options up to the end, or up to a command. An option may be waiting for its value. -/
def scan (s : Usage) : Option OptionSpec → List String → Given → Except Refusal Heard
  | some _, [], _ => .error .invalid
  | some o, value :: args, given =>
    if looksLikeOption value then .error .invalid
    else do
      match ← s.command? args with
      | some command => .ok ⟨o.give value given, some command⟩
      | none => scan s none args (← o.give value given)
  | none, [], given => .ok ⟨.ok given, none⟩
  | none, arg :: args, given =>
    match arg.toList with
    | ['-', '-'] => if args.isEmpty then .ok ⟨.ok given, none⟩ else .error .invalid
    | '-' :: '-' :: long =>
      let (name, value) := longParts long
      match s.options.find? (·.name = name) with
      | none =>
        if name = "help" && value.isNone then .error .help
        else if name = "version" && value.isNone && s.hasVersion then .error .version
        else .error .invalid
      | some o =>
        match o.arity, value with
        | .mark, none => do scan s none args (← o.give markValue given)
        | .mark, some _ => .error .invalid
        | _, some value => do scan s none args (← o.give value given)
        | _, none => scan s (some o) args given
    | '-' :: c :: cs => do scan s none args (← letters s (c :: cs) given)
    | _ => do
      match ← s.command? (arg :: args) with
      | some command => .ok ⟨.ok given, some command⟩
      | none => .error .invalid

/-- Fills in the values of the environment for options that are not given. -/
def fillIn (environment : List (String × String)) : List OptionSpec → Given → Except Refusal Given
  | [], given => .ok given
  | o :: rest, given =>
    match given.find? o.name, o.fallback.bind fun v => environment.lookup v with
    | none, some text => do
      if o.arity = .mark && !isTruth text then throw .invalid
      fillIn environment rest (← o.give text given)
    | _, _ => fillIn environment rest given

namespace Given

/-- The value of an option that takes one. -/
def value? (g : Given) (name : String) : Option String := (g.find? name).bind (·.head?)

def values (g : Given) (name : String) : List String := (g.find? name).getD []

def isMarked (g : Given) (name : String) : Bool := g.value? name = some markValue

end Given

end Docsmith.Command
