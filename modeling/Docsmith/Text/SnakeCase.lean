import Docsmith.Text.LetterCase
import Docsmith.Text.Search

/-!
# Snake case

Words are separated by anything that is neither a letter nor a number. Inside a run of letters a
word ends before an upper case letter that follows a lower case one, and before the last of several
upper case letters when a lower case one follows it.
-/

namespace Docsmith.Text.SnakeCase

/-- What the word has been made of so far. -/
inductive Mode where
  | boundary | lower | upper
  deriving DecidableEq

/-- The words of a run of letters and numbers. `word` is the current one, newest first. -/
def words : Mode → List Char → List Char → List (List Char)
  | _, word, [] => if word.isEmpty then [] else [word.reverse]
  | _, word, [c] => [(c :: word).reverse]
  | mode, word, c :: next :: rest =>
    let following :=
      if isLower c then Mode.lower else if isUpper c then .upper else mode
    if following = .lower && isUpper next then
      (c :: word).reverse :: words .boundary [] (next :: rest)
    else if mode = .upper && isUpper c && isLower next then
      word.reverse :: words .boundary [c] (next :: rest)
    else words following (c :: word) (next :: rest)

/-- A word in lower case. A capital sigma at its end gets the final form. -/
def lowerWord : List Char → List Char
  | [] => []
  | [c] => if c = 'Σ' then ['ς'] else lowerChar c
  | c :: cs => lowerChar c ++ lowerWord cs

end SnakeCase

/-- A name in lower case with an underscore between its words. -/
def snakeCase (s : String) : String :=
  let runs := piecesBy (!isAlphanumeric ·) s.toList
  let words := (runs.flatMap (SnakeCase.words .boundary [])).map SnakeCase.lowerWord
  String.ofList (words.intersperse ['_']).flatten

end Docsmith.Text
