/-!
# Searching and splitting

Pieces of a list of characters between occurrences of a separator, read from the left or from the
right. The two differ where occurrences overlap.
-/

namespace Docsmith.Text

/-- The rest of a text behind a given beginning. -/
def afterStart? : List Char → List Char → Option (List Char)
  | [], cs => some cs
  | _ :: _, [] => none
  | p :: ps, c :: cs => if p = c then afterStart? ps cs else none

def beginsWith (start cs : List Char) : Bool :=
  (afterStart? start cs).isSome

def endsWith (finish cs : List Char) : Bool :=
  beginsWith finish.reverse cs.reverse

/-- The needle occurs somewhere in the text. -/
def occurs (needle : List Char) : List Char → Bool
  | [] => needle.isEmpty
  | c :: cs => beginsWith needle (c :: cs) || occurs needle cs

/-- Adds a character to the first piece. -/
def pushHead (c : Char) : List (List Char) → List (List Char)
  | [] => [[c]]
  | p :: ps => (c :: p) :: ps

/-- The pieces of a text between the occurrences of a separator, found from the left. The first
`skip` characters are the rest of an occurrence. -/
def piecesFrom (sep : List Char) : Nat → List Char → List (List Char)
  | _, [] => [[]]
  | skip + 1, _ :: cs => piecesFrom sep skip cs
  | 0, c :: cs =>
    if beginsWith sep (c :: cs) then [] :: piecesFrom sep (sep.length - 1) cs
    else pushHead c (piecesFrom sep 0 cs)

def pieces (sep cs : List Char) : List (List Char) :=
  piecesFrom sep 0 cs

/-- The pieces between the characters of a class. -/
def piecesBy (p : Char → Bool) : List Char → List (List Char)
  | [] => [[]]
  | c :: cs => if p c then [] :: piecesBy p cs else pushHead c (piecesBy p cs)

/-- What follows the rightmost occurrence of a separator, or the whole text. -/
def afterLast (sep : List Char) : List Char → List Char
  | [] => []
  | c :: cs =>
    if occurs sep cs then afterLast sep cs
    else (afterStart? sep (c :: cs)).getD (c :: cs)

/-- A text with every occurrence of a needle replaced, found from the left. -/
def replaceAll (needle new cs : List Char) : List Char :=
  (pieces needle cs).intersperse new |>.flatten

theorem afterStart?_append (start cs : List Char) : afterStart? start (start ++ cs) = some cs := by
  induction start with
  | nil => rfl
  | cons c start ih => simp [afterStart?, ih]

theorem eq_append_of_afterStart? {start cs rest : List Char}
    (h : afterStart? start cs = some rest) : cs = start ++ rest := by
  induction start generalizing cs with
  | nil => simpa [afterStart?] using h
  | cons p ps ih =>
    cases cs with
    | nil => simp [afterStart?] at h
    | cons c cs =>
      simp only [afterStart?] at h
      split at h
      · rename_i hc; subst hc; rw [ih h]; rfl
      · simp at h

end Docsmith.Text
