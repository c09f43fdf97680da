/-!
# Edits

An edit replaces a stretch of a text; an insertion replaces an empty one. Positions count
characters. `Edit.applyAll` makes several edits of one text, from its end to its start, so that
positions stay valid.
-/

namespace Docsmith.Source

/-- Put `text` in the place of the characters from `start` up to `stop`. -/
structure Edit where
  start : Nat
  stop : Nat
  text : List Char
  deriving DecidableEq, Repr

namespace Edit

def insert (position : Nat) (text : List Char) : Edit :=
  ⟨position, position, text⟩

/-- One edit of a text. -/
def apply (cs : List Char) (e : Edit) : List Char :=
  cs.take e.start ++ e.text ++ cs.drop e.stop

/-- Edits in the order of their starts; those with one start keep their order. -/
def sorted (es : List Edit) : List Edit :=
  es.mergeSort fun a b => a.start ≤ b.start

/-- All edits of a text. Those at one position appear there in the order given. -/
def applyAll (cs : List Char) (es : List Edit) : List Char :=
  (sorted es).reverse.foldl apply cs

theorem applyAll_nil (cs : List Char) : applyAll cs [] = cs := by
  simp [applyAll, sorted]

end Edit

end Docsmith.Source
