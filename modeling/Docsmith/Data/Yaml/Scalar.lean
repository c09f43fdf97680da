import Docsmith.Data.Yaml.Cursor

/-!
# Scalars

Plain, quoted and block scalars. In plain and quoted scalars a line break between words stands for
a blank, and further breaks stand for themselves. Each reader answers the text and where it ends.
-/

namespace Docsmith.Data.Yaml

/-! ## Gaps -/

/-- The blanks and breaks between two words. -/
structure Gap where
  blanks : List Char
  breaks : List Char
  /-- A tab stands on a line behind the first, left of the given column. -/
  badTab : Bool

def Gap.isBroken (g : Gap) : Bool := !g.breaks.isEmpty

/-- What line breaks between words stand for. -/
def foldBreaks : List Char → List Char
  | ['\n'] => [' ']
  | '\n' :: more => more
  | breaks => breaks

def Gap.folded (g : Gap) : List Char := if g.isBroken then foldBreaks g.breaks else g.blanks

/-- The gap a text starts with, and the rest. -/
def gap (indent : Nat) : Nat → List Char → Gap → Gap × List Char
  | _, [], g => (g, [])
  | column, c :: cs, g =>
    if isBlank c then
      if g.isBroken then
        gap indent (column + 1) cs { g with badTab := g.badTab || (c = '\t' && column < indent) }
      else gap indent (column + 1) cs { g with blanks := g.blanks ++ [c] }
    else if isBreak c then gap indent 0 cs { g with breaks := g.breaks ++ [c] }
    else (g, c :: cs)

def noGap : Gap := ⟨[], [], false⟩

/-! ## Plain scalars -/

def isFlowIndicator (c : Char) : Bool :=
  c = ',' || c = '[' || c = ']' || c = '{' || c = '}'

/-- A word of a plain scalar and the rest, unless a colon in it cannot stand there. -/
def plainWord? (inFlow : Bool) : List Char → Option (List Char × List Char)
  | [] => some ([], [])
  | c :: cs =>
    if isBlank c || isBreak c then some ([], c :: cs)
    else if inFlow && c = ':' && cs.head?.any (fun d => isFlowIndicator d || d = '?') then none
    else if (c = ':' && endsWord cs) || (inFlow && isFlowIndicator c) then some ([], c :: cs)
    else (plainWord? inFlow cs).map fun (w, rest) => (c :: w, rest)

/-- A plain scalar behind the text read so far. Whether a line break follows its last word is
answered as well. -/
def plainFrom? (inFlow : Bool) (indent : Nat) :
    Nat → Cursor → List Char → Gap → Option (List Char × Bool × Cursor)
  | 0, _, _, _ => none
  | fuel + 1, c, text, before =>
    if c.atDocumentMark || c.rest.head? = some '#' then some (text, before.isBroken, c)
    else do
      let (word, rest) ← plainWord? inFlow c.rest
      let text := if word.isEmpty then text else text ++ before.folded ++ word
      let before := if word.isEmpty then before else noGap
      let c := c.moveTo rest
      if rest.head?.any fun d => isBlank d || isBreak d then
        let (g, rest) := gap indent c.column rest noGap
        if g.badTab then none
        else
          let c := c.moveTo rest
          if !inFlow && c.column < indent then some (text, g.isBroken, c)
          else plainFrom? inFlow indent fuel c text g
      else some (text, before.isBroken, c)

/-- A plain scalar whose further lines start at the given column at least. -/
def plain? (inFlow : Bool) (indent : Nat) (c : Cursor) : Option (String × Bool × Cursor) :=
  (plainFrom? inFlow indent (c.rest.length + 1) c [] noGap).map fun (text, broken, c) =>
    (String.ofList text, broken, c)

/-! ## Quoted scalars -/

def hexDigit? (c : Char) : Option Nat :=
  if c.isDigit then some (c.toNat - 48)
  else if 'a' ≤ c && c ≤ 'f' then some (c.toNat - 87)
  else if 'A' ≤ c && c ≤ 'F' then some (c.toNat - 55)
  else none

/-- The character with a number of hexadecimal digits, and the rest. -/
def codePoint? (digits : Nat) (cs : List Char) : Option (Char × List Char) := do
  let ds := cs.take digits
  if ds.length < digits then none
  else
    let n ← ds.foldlM (fun n c => (hexDigit? c).map (n * 16 + ·)) 0
    if 0x10FFFF < n || (0xD800 ≤ n && n ≤ 0xDFFF) then none
    else some (Char.ofNat n, cs.drop digits)

/-- The character an escape stands for, and the rest. -/
def escape? : List Char → Option (Char × List Char)
  | [] => none
  | c :: cs =>
    match c with
    | '0' => some ('\x00', cs)
    | 'a' => some ('\x07', cs)
    | 'b' => some ('\x08', cs)
    | 't' | '\t' => some ('\t', cs)
    | 'n' => some ('\n', cs)
    | 'v' => some ('\x0b', cs)
    | 'f' => some ('\x0c', cs)
    | 'r' => some ('\r', cs)
    | 'e' => some ('\x1b', cs)
    | ' ' => some (' ', cs)
    | '"' => some ('"', cs)
    | '/' => some ('/', cs)
    | '\\' => some ('\\', cs)
    | 'N' => some ('\u0085', cs)
    | '_' => some ('\u00a0', cs)
    | 'L' => some ('\u2028', cs)
    | 'P' => some ('\u2029', cs)
    | 'x' => codePoint? 2 cs
    | 'u' => codePoint? 4 cs
    | 'U' => codePoint? 8 cs
    | _ => none

/-- How a word inside quotes ends. -/
inductive WordEnd where
  /-- Before a blank, a break or the closing quote. -/
  | plain
  /-- At a line break that is escaped. -/
  | joined

/-- A word inside single quotes. Two quotes stand for one. -/
def singleWord : List Char → List Char × List Char
  | [] => ([], [])
  | '\'' :: '\'' :: cs => let (w, rest) := singleWord cs; ('\'' :: w, rest)
  | c :: cs =>
    if c = '\'' || isBlank c || isBreak c then ([], c :: cs)
    else let (w, rest) := singleWord cs; (c :: w, rest)

/-- A word inside double quotes. -/
def doubleWord? : Nat → List Char → Option (List Char × WordEnd × List Char)
  | 0, _ => none
  | _, [] => some ([], .plain, [])
  | fuel + 1, c :: cs =>
    if c = '"' || isBlank c || isBreak c then some ([], .plain, c :: cs)
    else if c = '\\' then
      match cs with
      | [] => none
      | d :: ds =>
        if isBreak d then some ([], .joined, ds)
        else do
          let (e, rest) ← escape? (d :: ds)
          (doubleWord? fuel rest).map fun (w, stop, rest) => (e :: w, stop, rest)
    else (doubleWord? fuel cs).map fun (w, stop, rest) => (c :: w, stop, rest)

/-- The breaks behind an escaped one, which stand for themselves. -/
def laterBreaks (cs : List Char) : List Char × List Char :=
  let (space, rest) := spanChars (fun c => isBlank c || isBreak c) cs
  (space.filter isBreak, rest)

/-- A quoted scalar behind the text read so far. -/
def quotedFrom? (quote : Char) : Nat → Cursor → List Char → Option (List Char × Cursor)
  | 0, _, _ => none
  | fuel + 1, c, text =>
    if c.atDocumentMark then none
    else do
      let (word, stop, rest) ←
        if quote = '"' then doubleWord? (c.rest.length + 1) c.rest
        else let (w, rest) := singleWord c.rest; some (w, WordEnd.plain, rest)
      let text := text ++ word
      match stop, rest with
      | .joined, rest =>
        let (breaks, after) := laterBreaks rest
        if after.head? = some quote then some (text ++ breaks, c.moveTo (after.drop 1))
        else quotedFrom? quote fuel (c.moveTo after) (text ++ breaks)
      | .plain, [] => none
      | .plain, d :: ds =>
        if d = quote then some (text, c.moveTo ds)
        else
          let (g, after) := gap 0 0 (d :: ds) noGap
          quotedFrom? quote fuel (c.moveTo after) (text ++ g.folded)

/-- A quoted scalar, with the cursor behind its opening quote. -/
def quoted? (quote : Char) (c : Cursor) : Option (String × Cursor) :=
  (quotedFrom? quote (c.rest.length + 1) c []).map fun (text, c) => (String.ofList text, c)

/-! ## Block scalars -/

/-- What becomes of the line breaks at the end of a block scalar. -/
inductive Chomping where
  | strip | clip | keep
  deriving DecidableEq

/-- The header of a block scalar: its chomping, and its indentation if given. -/
structure BlockHeader where
  chomping : Chomping
  increment : Option Nat

def chomping? : Char → Option Chomping
  | '+' => some .keep
  | '-' => some .strip
  | _ => none

/-- A header, and what follows it. The indentation is not zero. -/
def blockHeader? : List Char → Option (BlockHeader × List Char)
  | [] => some (⟨.clip, none⟩, [])
  | c :: cs =>
    match chomping? c with
    | some chomping =>
      match cs with
      | d :: ds =>
        if d = '0' then none
        else if d.isDigit then some (⟨chomping, some (d.toNat - 48)⟩, ds)
        else some (⟨chomping, none⟩, d :: ds)
      | [] => some (⟨chomping, none⟩, [])
    | none =>
      if c = '0' then none
      else if c.isDigit then
        match cs with
        | d :: ds =>
          match chomping? d with
          | some chomping => some (⟨chomping, some (c.toNat - 48)⟩, ds)
          | none => some (⟨.clip, some (c.toNat - 48)⟩, d :: ds)
        | [] => some (⟨.clip, some (c.toNat - 48)⟩, [])
      else some (⟨.clip, none⟩, c :: cs)

/-- The empty lines in front of a line of a block: their breaks, the widest indentation, and where
the line starts. Without an indentation all blanks are skipped. -/
def blockBreaks? (indent : Option Nat) : Nat → Cursor → List Char → Nat →
    Option (List Char × Nat × Cursor)
  | 0, _, _, _ => none
  | fuel + 1, c, breaks, widest =>
    let blanks := c.rest.takeWhile (· = ' ')
    let count := match indent with
      | some n => min blanks.length (n - c.column)
      | none => blanks.length
    let c := c.skip count
    let widest := max widest c.column
    match c.rest with
    | [] => some (breaks, widest, c)
    | d :: _ =>
      if d = '\t' && indent.all (c.column < ·) then none
      else if isBreak d then blockBreaks? indent fuel c.next (breaks ++ [d]) widest
      else some (breaks, widest, c)

/-- The lines of a block scalar: the text so far, its last line break, the breaks behind that, and
whether its last line starts with a blank. -/
structure BlockText where
  text : List Char
  lastBreak : List Char
  breaks : List Char
  blankStart : Bool

def blockLines? (literal : Bool) (indent : Nat) : Nat → Cursor → BlockText →
    Option (BlockText × Cursor)
  | 0, _, _ => none
  | fuel + 1, c, t =>
    if c.column ≠ indent || c.rest.isEmpty then some (t, c)
    else do
      let blank := c.rest.head?.any isBlank
      let folds := !literal && t.lastBreak = ['\n'] && !t.blankStart && !blank
      let between :=
        if folds then (if t.breaks.isEmpty then [' '] else []) else t.lastBreak
      let (line, rest) := spanChars (!isBreak ·) c.rest
      let lastBreak := rest.take 1
      let c := c.moveTo (rest.drop 1)
      let (breaks, _, c) ← blockBreaks? (some indent) (c.rest.length + 1) c [] 0
      blockLines? literal indent fuel c
        ⟨t.text ++ between ++ t.breaks ++ line, lastBreak, breaks, blank⟩

/-- A block scalar inside a block of the given indentation, with the cursor behind its
indicator. -/
def block? (literal : Bool) (outer : Int) (c : Cursor) : Option (String × Cursor) := do
  let (header, rest) ← blockHeader? c.rest
  let rest ← lineEnd? rest
  let c := c.moveTo (rest.drop 1)
  let given := header.increment.map fun n => (max outer 0).toNat + n
  let (breaks, widest, c) ← blockBreaks? given (c.rest.length + 1) c [] 0
  let indent := given.getD (max widest (max (outer + 1) 1).toNat)
  let (t, c) ← blockLines? literal indent (c.rest.length + 1) c ⟨[], [], breaks, false⟩
  let tail :=
    match header.chomping with
    | .strip => []
    | .clip => t.lastBreak
    | .keep => t.lastBreak ++ t.breaks
  return (String.ofList (t.text ++ tail), c)

end Docsmith.Data.Yaml
