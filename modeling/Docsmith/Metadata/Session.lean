import Docsmith.Metadata.Model

/-!
# Sessions

A session holds the types of the snapshots added to it, in order, and the place of each name among
them. The first snapshot's module is the target, and the first definition of a name is kept.
-/

namespace Docsmith.Metadata

/-- The types that have been loaded, no two of one name, and where each name stands among them. -/
structure Session where
  target : String
  types : List DescribedType
  index : Table String Nat
  indexed : index.entries = (types.map (·.name)).zipIdx
  deriving Repr

/-- The type with the module it is declared in, if it names none. -/
def DescribedType.inherit (d : DescribedType) (module : String) : DescribedType :=
  { d with module := if d.module.isEmpty then module else d.module }

namespace Session

def empty : Session := ⟨"", [], .empty, rfl⟩

instance : Inhabited Session := ⟨empty⟩

def declares (s : Session) (name : String) : Bool := (s.index.find? name).isSome

theorem keys_index (s : Session) : s.index.keys = s.types.map (·.name) := by
  rw [Table.keys, s.indexed, List.zipIdx_map_fst]

theorem nodup (s : Session) : (s.types.map (·.name)).Nodup :=
  s.keys_index ▸ s.index.nodup

/-- A type goes to the end together with its place. -/
theorem indexed_put {s : Session} {name : String} (d : DescribedType)
    (h : ¬s.declares name = true) (hn : d.name = name) :
    (s.index.put name s.types.length).entries = ((s.types ++ [d]).map (·.name)).zipIdx := by
  rw [declares, Option.not_isSome_iff_eq_none, Table.find?_eq_none_iff] at h
  rw [Table.entries_put_of_not_mem _ h, s.indexed, List.map_append, List.zipIdx_append]
  simp [hn]

/-- Adds a type of a module, unless its name is taken. -/
def addType (module : String) (s : Session) (d : DescribedType) : Session :=
  if h : s.declares d.name then s
  else
    { s with
      types := s.types ++ [d.inherit module]
      index := s.index.put d.name s.types.length
      indexed := indexed_put (d.inherit module) h rfl }

/-- Adds the types of a snapshot. -/
def add (s : Session) (snapshot : Snapshot) : Session :=
  snapshot.types.foldl (addType snapshot.module)
    { s with target := if s.target.isEmpty then snapshot.module else s.target }

def ofSnapshots (snapshots : List Snapshot) : Session := snapshots.foldl add empty

/-- The place of the type of a name, or of a name inside the target module. -/
def place? (s : Session) (name : String) : Option Nat :=
  s.index.find? name <|> s.index.find? (s.target ++ "::" ++ name)

/-- The type of a name, or of a name inside the target module. -/
def find? (s : Session) (name : String) : Option DescribedType := do
  s.types[← s.place? name]?

/-- The type a reference names. Only plain names do. -/
def resolve? (s : Session) : TypeReference → Option DescribedType
  | .named name => s.find? name
  | _ => none

theorem mem_of_find? {s : Session} {name : String} {d : DescribedType} (h : s.find? name = some d) :
    d ∈ s.types := by
  obtain ⟨i, -, hi⟩ := Option.bind_eq_some_iff.1 h
  exact List.mem_of_getElem? hi

end Session

end Docsmith.Metadata
