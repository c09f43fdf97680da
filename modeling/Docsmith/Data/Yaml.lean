import Docsmith.Data.Value
import Docsmith.Data.Yaml.Lexer
import Docsmith.Data.Yaml.Node

/-!
# YAML

`Yaml.read?` reads a text that holds one document. An alias stands for the node with its anchor.
-/

namespace Docsmith.Data.Yaml

/-! ## Anchors -/

/-- The numbers of anchors. A name that is used again gets the number of names in use. -/
abbrev Numbers := List (String × Nat)

def assign (numbers : Numbers) (name : String) : Nat × Numbers :=
  let n := numbers.length
  if (numbers.lookup name).isSome then
    (n, numbers.map fun f => if f.1 = name then (name, n) else f)
  else (n, (name, n) :: numbers)

def numberProperties (numbers : Numbers) (p : Properties String) : Properties Nat × Numbers :=
  match p.anchor with
  | none => (⟨none, p.tag⟩, numbers)
  | some name =>
    let (n, numbers) := assign numbers name
    (⟨some n, p.tag⟩, numbers)

mutual

/-- A node with numbers for anchors, in the order of the text. An alias must follow its anchor. -/
def number? (numbers : Numbers) : Node String → Option (Node Nat × Numbers)
  | .scalar p text style =>
    let (p, numbers) := numberProperties numbers p
    some (.scalar p text style, numbers)
  | .alias name => (numbers.lookup name).map fun n => (.alias n, numbers)
  | .list p items =>
    let (p, numbers) := numberProperties numbers p
    (numberAll? numbers items).map fun (items, numbers) => (.list p items, numbers)
  | .record p entries =>
    let (p, numbers) := numberProperties numbers p
    (numberEntries? numbers entries).map fun (entries, numbers) => (.record p entries, numbers)

def numberAll? (numbers : Numbers) : List (Node String) → Option (List (Node Nat) × Numbers)
  | [] => some ([], numbers)
  | n :: ns => do
    let (n, numbers) ← number? numbers n
    let (ns, numbers) ← numberAll? numbers ns
    return (n :: ns, numbers)

def numberEntries? (numbers : Numbers) :
    List (Node String × Node String) → Option (List (Node Nat × Node Nat) × Numbers)
  | [] => some ([], numbers)
  | (k, v) :: es => do
    let (k, numbers) ← number? numbers k
    let (v, numbers) ← number? numbers v
    let (es, numbers) ← numberEntries? numbers es
    return ((k, v) :: es, numbers)

end

mutual

/-- The nodes with anchors, each before those inside it. -/
def anchored : Node Nat → List (Nat × Node Nat)
  | .scalar p text style => (p.anchor.map fun n => (n, .scalar p text style)).toList
  | .alias _ => []
  | .list p items => (p.anchor.map fun n => (n, .list p items)).toList ++ anchoredAll items
  | .record p entries =>
    (p.anchor.map fun n => (n, .record p entries)).toList ++ anchoredEntries entries

def anchoredAll : List (Node Nat) → List (Nat × Node Nat)
  | [] => []
  | n :: ns => anchored n ++ anchoredAll ns

def anchoredEntries : List (Node Nat × Node Nat) → List (Nat × Node Nat)
  | [] => []
  | (k, v) :: es => anchored k ++ anchored v ++ anchoredEntries es

end

/-! ## Values -/

def withTag (tag : Option Tag) (v : Value) : Value :=
  match tag with
  | some t => .tagged t v
  | none => v

mutual

/-- The value of a node, given those of anchors. -/
def toValue (values : List (Nat × Value)) : Node Nat → Value
  | .scalar p text style => withTag p.tag (.scalar style text)
  | .alias n => .alias ((values.lookup n).getD .unreadable)
  | .list p items => withTag p.tag (.list (toValues values items))
  | .record p entries => withTag p.tag (.record (toFields values entries))

def toValues (values : List (Nat × Value)) : List (Node Nat) → List Value
  | [] => []
  | n :: ns => toValue values n :: toValues values ns

def toFields (values : List (Nat × Value)) : List (Node Nat × Node Nat) → List (Value × Value)
  | [] => []
  | (k, v) :: es => (toValue values k, toValue values v) :: toFields values es

end

/-- The values of anchors, with aliases inside them followed to a depth. A node that is its own
alias cannot be read at any depth. -/
def anchorValues (targets : List (Nat × Node Nat)) : Nat → List (Nat × Value)
  | 0 => []
  | depth + 1 =>
    let inner := anchorValues targets depth
    targets.reverse.map fun (n, node) => (n, toValue inner node)

/-- Reading may follow so many aliases for each part of a document. -/
def linksPerPart : Nat := 100

/-- Reads a text that holds one document. -/
def read? (text : String) : Option Root := do
  let node ← Node.ofTokens? (← Token.ofText? text)
  let (node, _) ← number? [] node
  return {
    value := toValue (anchorValues (anchored node) Format.yaml.depth) node
    links := linksPerPart * node.size }

end Docsmith.Data.Yaml
