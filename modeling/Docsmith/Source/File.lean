import Docsmith.Source.Grammar
import Docsmith.Source.Preamble

/-!
# Source files

A file is read into a tree whose nodes and tokens are found with their positions, counted in
characters. Faults do not stop the reading.

* `File.text_read`: the tree's text is the source.
-/

namespace Docsmith.Source

/-- A token at its position. -/
structure Leaf where
  start : Nat
  kind : TokenKind
  text : String
  deriving Repr, DecidableEq

/-- A tree at its position. -/
structure Located where
  start : Nat
  tree : Tree
  deriving Repr, Inhabited

namespace Tree

mutual

/-- The number of characters of a tree. -/
def width : Tree → Nat
  | .token _ s => s.length
  | .node _ cs => widthAll cs

def widthAll : List Tree → Nat
  | [] => 0
  | t :: ts => t.width + widthAll ts

end

mutual

/-- The tokens of a tree in order. A node that holds no token at all shows as `none`. -/
def leavesFrom : Nat → Tree → List (Option Leaf)
  | n, .token k s => [some ⟨n, k, s⟩]
  | _, .node _ [] => [none]
  | n, .node _ (t :: ts) => leavesFrom n t ++ leavesAllFrom (n + t.width) ts

def leavesAllFrom : Nat → List Tree → List (Option Leaf)
  | _, [] => []
  | n, t :: ts => leavesFrom n t ++ leavesAllFrom (n + t.width) ts

end

mutual

/-- The nodes of a tree, each before those inside it. -/
def nodesFrom : Nat → Tree → List Located
  | _, .token _ _ => []
  | n, .node k cs => ⟨n, .node k cs⟩ :: nodesAllFrom n cs

def nodesAllFrom : Nat → List Tree → List Located
  | _, [] => []
  | n, t :: ts => nodesFrom n t ++ nodesAllFrom (n + t.width) ts

end

end Tree

namespace Located

def locate : Nat → List Tree → List Located
  | _, [] => []
  | n, t :: ts => ⟨n, t⟩ :: locate (n + t.width) ts

/-- What stands directly inside a node. -/
def children (l : Located) : List Located :=
  match l.tree with
  | .token _ _ => []
  | .node _ cs => locate l.start cs

def stop (l : Located) : Nat := l.start + l.tree.width

def chars (l : Located) : List Char := l.tree.text

def text (l : Located) : String := String.ofList l.chars

def kind? (l : Located) : Option NodeKind :=
  match l.tree with
  | .token _ _ => none
  | .node k _ => some k

def tokenKind? (l : Located) : Option TokenKind :=
  match l.tree with
  | .token k _ => some k
  | .node _ _ => none

def is (k : NodeKind) (l : Located) : Bool := l.kind? = some k

/-- The nodes inside a node, itself first. -/
def nodes (l : Located) : List Located := l.tree.nodesFrom l.start

/-- The nodes of a kind inside a node. -/
def nodesOf (k : NodeKind) (l : Located) : List Located := l.nodes.filter (is k)

def childrenOf (k : NodeKind) (l : Located) : List Located := l.children.filter (is k)

def child? (k : NodeKind) (l : Located) : Option Located := l.children.find? (is k)

def childWhere? (p : NodeKind → Bool) (l : Located) : Option Located :=
  l.children.find? fun c => c.kind?.any p

def childrenWhere (p : NodeKind → Bool) (l : Located) : List Located :=
  l.children.filter fun c => c.kind?.any p

/-- The first token of a kind directly inside a node. -/
def token? (k : TokenKind) (l : Located) : Option Leaf :=
  l.children.findSome? fun c =>
    match c.tree with
    | .token k' s => if k' = k then some ⟨c.start, k', s⟩ else none
    | .node _ _ => none

/-- The token a node starts with, unless an empty node comes first. -/
def firstLeaf (l : Located) : Option Leaf :=
  (l.tree.leavesFrom l.start).head?.join

end Located

/-- A source file that has been read. -/
structure File where
  tree : Tree
  faults : List String
  /-- The tokens of the tree, found once. -/
  leaves : List (Option Leaf) := tree.leavesFrom 0
  leaves_eq : leaves = tree.leavesFrom 0 := by rfl

namespace File

/-- Reads a source file. -/
def read (source : String) : File :=
  let tokens := Token.ofSource source
  let (outlines, faults) := Grammar.outlineOf (Grammar.Input.ofTokens false tokens)
  { tree := Tree.ofOutline outlines tokens
    faults := (tokens.filter (!·.sound)).map (·.text) ++ faults }

theorem text_read (source : String) : (read source).tree.text = source.toList := by
  simp only [read, Tree.text_ofOutline, Token.concat_ofSource]

/-- The file can be read without a fault. -/
def WellFormed (source : String) : Prop := (read source).faults = []

def root (f : File) : Located := ⟨0, f.tree⟩

def nodes (f : File) : List Located := f.root.nodes

/-- What precedes the token at a position, nearest first. -/
def before (f : File) (position : Nat) : List (Option Leaf) :=
  (f.leaves.takeWhile fun l => l.all (·.start ≠ position)).reverse

/-- The token in front of the one at a position. -/
def previous? (f : File) (position : Nat) : Option Leaf :=
  (f.before position).head?.join

end File

end Docsmith.Source
