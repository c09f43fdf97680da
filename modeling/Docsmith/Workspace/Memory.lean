import Docsmith.Workspace.DocumentStore

/-!
# Documents in memory

A set that is nothing but its documents. Paths with the same components name one document, which
keeps the path it was added with.
-/

namespace Docsmith

/-- A document held in memory. -/
structure HeldDocument where
  document : Document
  text : String
  deriving DecidableEq, Repr

def HeldDocument.key (h : HeldDocument) : List String := h.document.key

/-- Documents, no two at one path. -/
structure Memory where
  files : List HeldDocument
  nodup : (files.map HeldDocument.key).Nodup
  deriving DecidableEq, Repr

namespace Memory

def empty : Memory := ⟨[], .nil⟩

def documents (m : Memory) : List Document := m.files.map (·.document)

def find? (m : Memory) (d : Document) : Option HeldDocument := m.files.find? (·.key = d.key)

/-- The text at a path. -/
def text? (m : Memory) (path : String) : Option String := (m.find? ⟨path⟩).map (·.text)

/-- Puts a text under the path of a document. -/
def hold (d : Document) (text : String) : List HeldDocument → List HeldDocument
  | [] => [⟨d, text⟩]
  | h :: hs => if h.key = d.key then { h with text } :: hs else h :: hold d text hs

theorem map_key_hold (d : Document) (text : String) (hs : List HeldDocument) :
    (hold d text hs).map HeldDocument.key =
      if d.key ∈ hs.map HeldDocument.key then hs.map HeldDocument.key
      else hs.map HeldDocument.key ++ [d.key] := by
  induction hs with
  | nil => simp [hold, HeldDocument.key]
  | cons h hs ih =>
    by_cases e : h.key = d.key
    · have : ({ h with text } : HeldDocument).key = h.key := rfl
      simp [hold, e, this]
    · have e' : ¬d.key = h.key := fun x => e x.symm
      simp only [hold, e, ite_false, List.map_cons, List.mem_cons, e', false_or, ih]
      split <;> simp_all

theorem nodup_hold {d : Document} {text : String} {hs : List HeldDocument}
    (h : (hs.map HeldDocument.key).Nodup) : ((hold d text hs).map HeldDocument.key).Nodup := by
  rw [map_key_hold]
  split
  · exact h
  · rename_i hk
    exact List.nodup_append.2 ⟨h, by simp, fun x hx y hy e => hk (by simp_all)⟩

def put (m : Memory) (d : Document) (text : String) : Memory :=
  ⟨hold d text m.files, nodup_hold m.nodup⟩

def ofList (files : List (String × String)) : Memory :=
  files.foldl (fun m f => m.put ⟨f.1⟩ f.2) empty

def read (m : Memory) (d : Document) : Except Error String :=
  match m.find? d with
  | some held => .ok held.text
  | none => .error (.documentNotFound d.path)

def write (m : Memory) (d : Document) (text : String) : Except Error Unit × Memory :=
  match m.find? d with
  | some _ => (.ok (), m.put d text)
  | none => (.error (.documentNotFound d.path), m)

def add (m : Memory) (name : String) (folders : List String) (text : String) :
    Except Error Document × Memory :=
  let d : Document := ⟨Path.join (Path.joinAll folders) name⟩
  (.ok d, m.put d text)

instance : DocumentStore Memory := ⟨documents, read, write, add⟩

end Memory

end Docsmith
