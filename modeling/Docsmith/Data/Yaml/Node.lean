import Docsmith.Data.Yaml.Token

/-!
# Nodes

The tree that the tokens of a document describe. A node may have an anchor, by which an alias names
it, and a tag.
-/

namespace Docsmith.Data.Yaml

/-- What is said about a node besides its content. -/
structure Properties (α : Type) where
  anchor : Option α
  tag : Option Tag
  deriving Repr

def noProperties {α : Type} : Properties α := ⟨none, none⟩

/-- A node of a document. `α` names anchors. -/
inductive Node (α : Type) where
  | scalar (properties : Properties α) (text : String) (style : Style)
  | list (properties : Properties α) (items : List (Node α))
  | record (properties : Properties α) (entries : List (Node α × Node α))
  | alias (name : α)

namespace Node

def empty {α : Type} : Node α := .scalar noProperties "" .plain

/-! ## Size -/

mutual

/-- The number of aliases, scalars, and starts and ends of containers. -/
def size {α : Type} : Node α → Nat
  | .scalar _ _ _ | .alias _ => 1
  | .list _ items => sizeAll items + 2
  | .record _ entries => sizeEntries entries + 2

def sizeAll {α : Type} : List (Node α) → Nat
  | [] => 0
  | n :: ns => size n + sizeAll ns

def sizeEntries {α : Type} : List (Node α × Node α) → Nat
  | [] => 0
  | (k, v) :: es => size k + size v + sizeEntries es

end

/-! ## Properties -/

/-- What handles of tags stand for. -/
abbrev Handles := List (String × List UInt8)

def standardHandles : Handles :=
  [("!", Tag.unspecific.bytes), ("!!", (Tag.ofText "tag:yaml.org,2002:").bytes)]

/-- The tag with its handle replaced by what that stands for. -/
def resolveTag? (handles : Handles) (handle : String) (suffix : List UInt8) : Option Tag :=
  if handle.isEmpty then some (.ofParts [] suffix)
  else (handles.lookup handle).map (Tag.ofParts · suffix)

/-- The properties in front of a node, in either order, and the rest. -/
def properties? (handles : Handles) : List Token → Option (Properties String × List Token)
  | .anchor name :: .tag h s :: ts => do return (⟨name, ← resolveTag? handles h s⟩, ts)
  | .tag h s :: .anchor name :: ts => do return (⟨name, ← resolveTag? handles h s⟩, ts)
  | .anchor name :: ts => some (⟨name, none⟩, ts)
  | .tag h s :: ts => do return (⟨none, ← resolveTag? handles h s⟩, ts)
  | ts => some (noProperties, ts)

/-- Where no content follows, properties are those of an empty scalar. -/
def bare? (p : Properties String) (ts : List Token) : Option (Node String × List Token) :=
  if p.anchor.isSome || p.tag.isSome then some (.scalar p "" .plain, ts) else none

/-! ## Content -/

/-- A node is missing in front of a token of the kinds given. -/
def missingBefore (stops : List Token) (ts : List Token) : Bool :=
  ts.head?.any stops.contains

mutual

/-- A node and the rest. A list may lack its own indentation where a key or a value stands. -/
def node? (handles : Handles) : Nat → Bool → Bool → List Token → Option (Node String × List Token)
  | 0, _, _, _ => none
  | _, _, _, .alias name :: ts => some (.alias name, ts)
  | fuel + 1, block, unindented, ts => do
    let (p, ts) ← properties? handles ts
    match ts with
    | .scalar text style :: ts => some (.scalar p text style, ts)
    | .flowSequenceStart :: ts =>
      (flowItems? handles fuel true ts).map fun (items, ts) => (.list p items, ts)
    | .flowMappingStart :: ts =>
      (flowEntries? handles fuel true ts).map fun (entries, ts) => (.record p entries, ts)
    | .blockEntry :: rest =>
      if unindented then
        (unindentedItems? handles fuel (.blockEntry :: rest)).map fun (items, ts) =>
          (.list p items, ts)
      else bare? p (.blockEntry :: rest)
    | .blockSequenceStart :: rest =>
      if block then (blockItems? handles fuel rest).map fun (items, ts) => (.list p items, ts)
      else bare? p (.blockSequenceStart :: rest)
    | .blockMappingStart :: rest =>
      if block then
        (blockEntries? handles fuel rest).map fun (entries, ts) => (.record p entries, ts)
      else bare? p (.blockMappingStart :: rest)
    | ts => bare? p ts

/-- A node, or an empty one in front of certain tokens. -/
def nodeBefore? (handles : Handles) : Nat → Bool → Bool → List Token → List Token →
    Option (Node String × List Token)
  | 0, _, _, _, _ => none
  | fuel + 1, block, unindented, stops, ts =>
    if missingBefore stops ts then some (empty, ts) else node? handles fuel block unindented ts

/-- A value, if its mark is there. -/
def valueBefore? (handles : Handles) : Nat → Bool → List Token → List Token →
    Option (Node String × List Token)
  | 0, _, _, _ => none
  | fuel + 1, block, stops, .value :: ts => nodeBefore? handles fuel block block stops ts
  | _, _, _, ts => some (empty, ts)

def blockItems? (handles : Handles) : Nat → List Token → Option (List (Node String) × List Token)
  | 0, _ => none
  | _, .blockEnd :: ts => some ([], ts)
  | fuel + 1, .blockEntry :: ts => do
    let (item, ts) ← nodeBefore? handles fuel true false [.blockEntry, .blockEnd] ts
    let (items, ts) ← blockItems? handles fuel ts
    return (item :: items, ts)
  | _, _ => none

def unindentedItems? (handles : Handles) : Nat → List Token →
    Option (List (Node String) × List Token)
  | 0, _ => none
  | fuel + 1, .blockEntry :: ts => do
    let (item, ts) ←
      nodeBefore? handles fuel true false [.blockEntry, .key, .value, .blockEnd] ts
    let (items, ts) ← unindentedItems? handles fuel ts
    return (item :: items, ts)
  | _, ts => some ([], ts)

def blockEntries? (handles : Handles) : Nat → List Token →
    Option (List (Node String × Node String) × List Token)
  | 0, _ => none
  | _, .blockEnd :: ts => some ([], ts)
  | fuel + 1, .key :: ts => do
    let stops := [Token.key, .value, .blockEnd]
    let (key, ts) ← nodeBefore? handles fuel true true stops ts
    let (value, ts) ← valueBefore? handles fuel true stops ts
    let (entries, ts) ← blockEntries? handles fuel ts
    return ((key, value) :: entries, ts)
  | _, _ => none

def flowItems? (handles : Handles) : Nat → Bool → List Token →
    Option (List (Node String) × List Token)
  | 0, _, _ => none
  | _, _, .flowSequenceEnd :: ts => some ([], ts)
  | fuel + 1, false, .flowEntry :: ts => flowItems? handles fuel true ts
  | _, false, _ => none
  | fuel + 1, true, .key :: ts => do
    let (pair, ts) ← flowPair? handles fuel ts
    let (items, ts) ← flowItems? handles fuel false ts
    return (.record noProperties [pair] :: items, ts)
  | fuel + 1, true, ts => do
    let (item, ts) ← node? handles fuel false false ts
    let (items, ts) ← flowItems? handles fuel false ts
    return (item :: items, ts)

/-- A key with its value as an item of a list. Where the key is missing, the next token is passed
over. -/
def flowPair? (handles : Handles) : Nat → List Token →
    Option ((Node String × Node String) × List Token)
  | 0, _ => none
  | fuel + 1, ts => do
    let stops := [Token.flowEntry, .flowSequenceEnd]
    let (key, ts) ←
      if missingBefore (.value :: stops) ts then some (empty, ts.drop 1)
      else node? handles fuel false false ts
    let (value, ts) ← valueBefore? handles fuel false stops ts
    return ((key, value), ts)

def flowEntries? (handles : Handles) : Nat → Bool → List Token →
    Option (List (Node String × Node String) × List Token)
  | 0, _, _ => none
  | _, _, .flowMappingEnd :: ts => some ([], ts)
  | fuel + 1, false, .flowEntry :: ts => flowEntries? handles fuel true ts
  | _, false, _ => none
  | fuel + 1, true, .key :: ts => do
    let stops := [Token.flowEntry, .flowMappingEnd]
    let (key, ts) ← nodeBefore? handles fuel false false (.value :: stops) ts
    let (value, ts) ← valueBefore? handles fuel false stops ts
    let (entries, ts) ← flowEntries? handles fuel false ts
    return ((key, value) :: entries, ts)
  | fuel + 1, true, ts => do
    let (key, ts) ← node? handles fuel false false ts
    let (entries, ts) ← flowEntries? handles fuel false ts
    return ((key, empty) :: entries, ts)

end

/-! ## Documents -/

/-- The directives of a document, and what follows them. -/
def directives? (version : Bool) (handles : Handles) : List Token →
    Option (Handles × List Token)
  | .version major minor :: ts =>
    if version || major ≠ 1 || (minor ≠ 1 && minor ≠ 2) then none
    else directives? true handles ts
  | .tagHandle handle meaning :: ts =>
    if (handles.lookup handle).isSome then none
    else directives? version ((handle, meaning) :: handles) ts
  | ts => some (handles, ts)

def startsDocument : Token → Bool
  | .version _ _ | .tagHandle _ _ | .documentStart => true
  | _ => false

/-- The content of a document behind its mark. -/
def content? (handles : Handles) (ts : List Token) : Option (Node String × List Token) :=
  if ts.head?.all (fun t => startsDocument t || t = .documentEnd) then some (empty, ts)
  else node? handles (4 * ts.length + 4) true false ts

/-- The only document of a text, which is an empty scalar where there is none. -/
def ofTokens? : List Token → Option (Node String)
  | [] => some empty
  | t :: ts => do
    let (node, rest) ←
      if startsDocument t then do
        let (handles, rest) ← directives? false [] (t :: ts)
        match rest with
        | .documentStart :: rest => content? (handles ++ standardHandles) rest
        | _ => none
      else node? standardHandles (4 * (t :: ts).length + 4) true false (t :: ts)
    if rest.all (· = .documentEnd) then some node else none

end Node

end Docsmith.Data.Yaml
