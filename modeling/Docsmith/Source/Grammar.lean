import Docsmith.Source.Grammar.Item

/-!
# The grammar

`Grammar.solve` answers every goal by its rule. Rules nest no deeper than the tokens they take, so
`Grammar.outlineOf` gives the nesting a bound that no input reaches.
-/

namespace Docsmith.Source.Grammar

def plain (r : Rule Unit) : Rule Outcome := do
  r
  return .plain

/-- The rule of a goal. -/
def ruleOf : Goal → Rule Outcome
  | .tokenTree => plain tokenTree
  | .attrs inner => plain (if inner then innerAttrs else outerAttrs)
  | .useTree top => useTree top
  | .anyType withBounds => plain (anyType withBounds)
  | .pathType withBounds => plain (pathType withBounds)
  | .genericArgs => plain genericArgs
  | .forBinder => plain forBinder
  | .pattern stop => plain (pattern stop)
  | .onePattern stop => plain (onePattern stop)
  | .expr limits power => exprWithAttrs limits power
  | .exprHere limits power => exprHere limits power
  | .ifExpr => plain ifExpr
  | .statements => plain statements
  | .item inBraces inExtern => plain (item inBraces inExtern)

/-- Answers goals that nest at most `depth` deep. -/
def solve : Nat → Goal → Step Outcome
  | 0, _ => fun s => (.nothing, { s with faults := "too many rules" :: s.faults })
  | depth + 1, g => ruleOf g (solve depth)

/-- The outlines of a file's items, and its faults. -/
def outlineOf (input : List Input) : List Outline × List String :=
  let depth := 8 * (input.length + 2)
  let (_, s) := (fileItems (solve depth)) ⟨input, [], []⟩
  (s.siblings.reverse, s.faults.reverse)

end Docsmith.Source.Grammar
