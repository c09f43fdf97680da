import Docsmith.Workspace.Document

/-!
# Sets of documents

What runs need of the documents they work on. A failed change may still have changed the set.
-/

namespace Docsmith

/-- A set of documents that can be changed. -/
class DocumentStore (σ : Type) where
  /-- All documents in a fixed order. -/
  documents : σ → List Document
  /-- The text of a document. -/
  read : σ → Document → Except Error String
  /-- Replaces the text of a document. -/
  write : σ → Document → String → Except Error Unit × σ
  /-- Adds a document of the given name and folders. -/
  add : σ → String → List String → String → Except Error Document × σ

end Docsmith
