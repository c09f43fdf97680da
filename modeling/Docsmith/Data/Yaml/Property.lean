import Docsmith.Data.Yaml.Scalar
import Docsmith.Data.Yaml.Token

/-!
# Directives, anchors and tags

What is said about a document or a node besides its content.
-/

namespace Docsmith.Data.Yaml

/-! ## Anchors and aliases -/

def endsAnchor (cs : List Char) : Bool :=
  endsWord cs || cs.head?.any fun c => "?:,]\x7d%@\x60".toList.contains c

/-- The name of an anchor or an alias, and the rest. -/
def anchorName? (cs : List Char) : Option (String × List Char) :=
  let (name, rest) := spanChars isNameChar cs
  if name.isEmpty || !endsAnchor rest then none else some (String.ofList name, rest)

/-! ## Tags -/

def isTagChar (verbatim : Bool) (c : Char) : Bool :=
  isNameChar c || ";/?:@&=+$.%!~*'()".toList.contains c
    || (verbatim && (c = ',' || c = '[' || c = ']'))

/-- The number of further bytes behind the first byte of a character. -/
def trailingBytes? (first : Nat) : Option Nat :=
  if first < 0x80 then some 0
  else if 0xC0 ≤ first && first < 0xE0 then some 1
  else if 0xE0 ≤ first && first < 0xF0 then some 2
  else if 0xF0 ≤ first && first < 0xF8 then some 3
  else none

/-- A byte written as an escape, and the rest. -/
def escapedByte? : List Char → Option (Nat × List Char)
  | '%' :: a :: b :: cs => do return ((← hexDigit? a) * 16 + (← hexDigit? b), cs)
  | _ => none

def escapedBytes? : Nat → List Char → Option (List UInt8 × List Char)
  | 0, cs => some ([], cs)
  | n + 1, cs => do
    let (b, cs) ← escapedByte? cs
    if b / 64 ≠ 2 then none
    else
      let (bs, cs) ← escapedBytes? n cs
      return (b.toUInt8 :: bs, cs)

/-- The bytes a row of escapes stands for, as many as the first tells, and the rest. -/
def escapedChar? (cs : List Char) : Option (List UInt8 × List Char) := do
  let (first, cs) ← escapedByte? cs
  let (more, cs) ← escapedBytes? (← trailingBytes? first) cs
  return (first.toUInt8 :: more, cs)

/-- The bytes of a tag with its escapes resolved, and the rest. -/
def tagText? (verbatim : Bool) : Nat → List Char → Option (List UInt8 × List Char)
  | 0, _ => none
  | _, [] => some ([], [])
  | fuel + 1, c :: cs =>
    if !isTagChar verbatim c then some ([], c :: cs)
    else if c = '%' then do
      let (d, rest) ← escapedChar? (c :: cs)
      (tagText? verbatim fuel rest).map fun (t, rest) => (d ++ t, rest)
    else (tagText? verbatim fuel cs).map fun (t, rest) => (c.toNat.toUInt8 :: t, rest)

/-- A handle: an exclamation mark, and a name between two of them if the second is there. -/
def tagHandle (cs : List Char) : List Char × List Char :=
  let (name, rest) := spanChars isNameChar (cs.drop 1)
  match rest with
  | '!' :: rest => ('!' :: name ++ ['!'], rest)
  | rest => ('!' :: name, rest)

/-- A handle that ends with a mark of its own. -/
def isWholeHandle (handle : List Char) : Bool :=
  1 < handle.length && handle.getLast? = some '!'

/-- A tag at its exclamation mark, and the rest. Behind a handle without a second mark nothing is
left to be a suffix if a null byte comes first. -/
def tag? (inFlow : Bool) (cs : List Char) : Option (Token × List Char) := do
  let (handle, suffix, rest) ←
    match cs with
    | '!' :: '<' :: cs => do
      let (text, rest) ← tagText? true (cs.length + 1) cs
      match text, rest with
      | [], _ => none
      | text, '>' :: rest => some ("", text, rest)
      | _, _ => none
    | cs => do
      let (handle, rest) := tagHandle cs
      let (text, rest) ← tagText? false (rest.length + 1) rest
      if isWholeHandle handle then
        if text.isEmpty then none else some (String.ofList handle, text, rest)
      else
        match Tag.upToNull ((String.ofList (handle.drop 1)).toUTF8.toList ++ text) with
        | [] => some ("", Tag.unspecific.bytes, rest)
        | suffix => some ("!", suffix, rest)
  if endsWord rest || (inFlow && rest.head? = some ',') then some (.tag handle suffix, rest)
  else none

/-! ## Directives -/

/-- A number of at most nine digits, and the rest. -/
def versionNumber? (cs : List Char) : Option (Nat × List Char) :=
  let (ds, rest) := spanChars Char.isDigit cs
  if ds.isEmpty || 9 < ds.length then none
  else some (ds.foldl (fun n c => n * 10 + (c.toNat - 48)) 0, rest)

def versionDirective? (cs : List Char) : Option (Token × List Char) := do
  let (major, rest) ← versionNumber? (cs.dropWhile isBlank)
  let '.' :: rest := rest | none
  let (minor, rest) ← versionNumber? rest
  return (.version major minor, rest)

def tagDirective? (cs : List Char) : Option (Token × List Char) := do
  let '!' :: cs := cs.dropWhile isBlank | none
  let (handle, rest) := tagHandle ('!' :: cs)
  if handle ≠ ['!'] && !isWholeHandle handle then none
  else if !rest.head?.any isBlank then none
  else
    let rest := rest.dropWhile isBlank
    let (meaning, rest) ← tagText? true (rest.length + 1) rest
    if meaning.isEmpty || !endsWord rest then none
    else some (.tagHandle (String.ofList handle) meaning, rest)

/-- A directive behind its percent sign, and the rest of the text from the end of its line. -/
def directive? (cs : List Char) : Option (Token × List Char) := do
  let (name, rest) := spanChars isNameChar cs
  if name.isEmpty || !endsWord rest then none
  else
    let (token, rest) ←
      if name = "YAML".toList then versionDirective? rest
      else if name = "TAG".toList then tagDirective? rest
      else none
    return (token, ← lineEnd? rest)

end Docsmith.Data.Yaml
