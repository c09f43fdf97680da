import Docsmith.Workspace.Memory
import Mathlib.Data.List.Nodup

/-!
# Lawful sets of documents

What runs rely on beyond the operations of a set: a document that can be read can be written, its
text is then the one written, and other documents keep theirs. Two documents of a set may lie at
one place, as two paths can lead to one file; these share a text.

* `LawfulStore`: the laws;
* `Memory` follows them.
-/

namespace Docsmith

/-- A set of documents whose texts are where they were put. -/
class LawfulStore (σ : Type) [DocumentStore σ] where
  /-- Where a document is looked for. -/
  place : σ → Document → Option (List String)
  /-- Documents at one place have one text. -/
  read_of_place {s : σ} {d e : Document} {text : String} (h : DocumentStore.read s d = .ok text)
    (hp : place s e = place s d) : DocumentStore.read s e = .ok text
  /-- What can be read can be written. All documents at its place then have the new text, the
  others stay as they are. -/
  write_of_read {s : σ} {d : Document} {old : String} (text : String)
    (h : DocumentStore.read s d = .ok old) :
    ∃ s', DocumentStore.write s d text = (.ok (), s') ∧
      DocumentStore.documents s' = DocumentStore.documents s ∧
      (∀ e, place s' e = place s e) ∧
      ∀ e, DocumentStore.read s' e =
        if place s e = place s d then .ok text else DocumentStore.read s e
  /-- An added document has its path and its text. -/
  add_eq {s s' : σ} {name text : String} {folders : List String} {d : Document}
    (h : DocumentStore.add s name folders text = (.ok d, s')) :
    d = ⟨Path.join (Path.joinAll folders) name⟩ ∧ DocumentStore.read s' d = .ok text
  /-- It is the only one that is new. -/
  mem_documents_add {s s' : σ} {name text : String} {folders : List String} {d e : Document}
    (h : DocumentStore.add s name folders text = (.ok d, s'))
    (he : e ∈ DocumentStore.documents s') : e ∈ DocumentStore.documents s ∨ e = d
  /-- No document is lost, and a new path makes a new document. -/
  documents_add {s s' : σ} {name text : String} {folders : List String} {d : Document}
    (h : DocumentStore.add s name folders text = (.ok d, s')) :
    (∀ e ∈ DocumentStore.documents s, e ∈ DocumentStore.documents s') ∧
      ((∀ e ∈ DocumentStore.documents s, e.key ≠ d.key) → d ∈ DocumentStore.documents s')
  /-- What keeps a document from being added is no fault of the input. -/
  isInput_add {s s' : σ} {name text : String} {folders : List String} {e : Error}
    (h : DocumentStore.add s name folders text = (.error e, s')) : e.isInput = false
  /-- Documents of other names keep their texts. -/
  read_add {s s' : σ} {name text old : String} {folders : List String} {d e : Document}
    (h : DocumentStore.add s name folders text = (.ok d, s'))
    (he : DocumentStore.read s e = .ok old) (hn : e.name ≠ d.name) :
    DocumentStore.read s' e = .ok old

/-- No other document of a set lies where one lies that can be read. -/
def Separate {σ : Type} [DocumentStore σ] [LawfulStore σ] (docs : σ) : Prop :=
  ∀ d ∈ DocumentStore.documents docs, ∀ e ∈ DocumentStore.documents docs, ∀ text,
    DocumentStore.read docs d = .ok text →
      LawfulStore.place docs e = LawfulStore.place docs d → e = d

/-- The name of a document is told by its key. -/
theorem Document.name_eq (d : Document) :
    d.name = (d.key.getLast?.filter Path.isName).getD "" := rfl

/-! ## Documents in memory -/

namespace Memory

variable {m : Memory} {h : HeldDocument} {d e : Document} {text : String}

theorem find?_hold (d : Document) (text : String) (hs : List HeldDocument) (key : List String) :
    (hold d text hs).find? (·.key = key) =
      if key = d.key then
        some ⟨((hs.find? (·.key = d.key)).map (·.document)).getD d, text⟩
      else hs.find? (·.key = key) := by
  induction hs with
  | nil =>
    by_cases hk : key = d.key
    · subst hk
      simp [hold, HeldDocument.key]
    · have hk' : ¬d.key = key := fun h => hk h.symm
      simp [hold, HeldDocument.key, hk, hk']
  | cons h hs ih =>
    have hsame : ({ h with text } : HeldDocument).key = h.key := rfl
    by_cases he : h.key = d.key
    · rw [hold, if_pos he]
      by_cases hk : key = d.key
      · subst hk
        simp [hsame, he]
      · have hk' : ¬d.key = key := fun h => hk h.symm
        simp [hsame, he, hk, hk']
    · rw [hold, if_neg he, List.find?_cons, List.find?_cons, List.find?_cons, ih]
      by_cases hk : h.key = key
      · have hd : ¬key = d.key := fun h' => he (hk.trans h')
        simp [hk, hd]
      · simp [hk, he]

theorem find?_put (m : Memory) (d e : Document) (text : String) :
    (m.put d text).find? e =
      if e.key = d.key then some ⟨((m.find? d).map (·.document)).getD d, text⟩ else m.find? e :=
  find?_hold d text m.files e.key

theorem read_put (m : Memory) (d e : Document) (text : String) :
    (m.put d text).read e = if e.key = d.key then .ok text else m.read e := by
  rw [read, find?_put]
  by_cases hk : e.key = d.key
  · rw [if_pos hk, if_pos hk]
  · rw [if_neg hk, if_neg hk, read]

theorem map_document_hold (d : Document) (text : String) (hs : List HeldDocument) :
    (hold d text hs).map (·.document) =
      if d.key ∈ hs.map HeldDocument.key then hs.map (·.document)
      else hs.map (·.document) ++ [d] := by
  induction hs with
  | nil => simp [hold]
  | cons h hs ih =>
    by_cases he : h.key = d.key
    · simp [hold, he]
    · have he' : ¬d.key = h.key := fun h => he h.symm
      simp only [hold, he, if_false, List.map_cons, List.mem_cons, he', false_or, ih]
      split <;> rfl

/-- Putting a text under a path adds a document if there is none at that path. -/
theorem documents_put (m : Memory) (d : Document) (text : String) :
    (m.put d text).documents =
      if d.key ∈ m.documents.map Document.key then m.documents else m.documents ++ [d] := by
  have hk : m.documents.map Document.key = m.files.map HeldDocument.key := by
    rw [documents, List.map_map]
    rfl
  rw [hk]
  exact map_document_hold d text m.files

theorem find?_isSome_iff : (m.find? d).isSome ↔ d.key ∈ m.documents.map Document.key := by
  rw [find?, List.find?_isSome, documents, List.map_map, List.mem_map]
  exact exists_congr fun _ => and_congr_right fun _ => decide_eq_true_iff

theorem write_of_find? {held : HeldDocument} (h : m.find? d = some held) (text : String) :
    m.write d text = (.ok (), m.put d text) := by
  rw [write, h]

instance : LawfulStore Memory where
  place _ d := some d.key
  read_of_place {m d e text} h hp := by
    refine Eq.trans ?_ (show m.read d = .ok text from h)
    change m.read e = m.read d
    cases hd : m.find? d with
    | none =>
      have h : m.read d = .ok text := h
      rw [read, hd] at h
      simp at h
    | some held =>
      have he : m.find? e = m.find? d := by rw [find?, find?, Option.some.inj hp]
      rw [read, read, he, hd]
  write_of_read {m d old} text h := by
    cases hf : m.find? d with
    | none =>
      have h : m.read d = .ok old := h
      rw [read, hf] at h
      simp at h
    | some held =>
      refine ⟨m.put d text, write_of_find? hf text, ?_, fun _ => rfl, fun e => ?_⟩
      · have hk := find?_isSome_iff.1 (Option.isSome_iff_exists.2 ⟨held, hf⟩)
        exact (documents_put m d text).trans (if_pos hk)
      · simp only [Option.some.injEq]
        exact read_put m d e text
  add_eq {m m' name text folders d} h := by
    obtain ⟨hd, rfl⟩ := Prod.mk.inj h
    obtain rfl := Except.ok.inj hd
    exact ⟨rfl, (read_put m _ _ text).trans (if_pos rfl)⟩
  mem_documents_add {m m' name text folders d e} h he := by
    obtain ⟨hd, rfl⟩ := Prod.mk.inj h
    obtain rfl := Except.ok.inj hd
    have he : e ∈ (m.put _ text).documents := he
    rw [documents_put] at he
    split at he
    · exact .inl he
    · exact (List.mem_append.1 he).imp_right List.mem_singleton.1
  documents_add {m m' name text folders d} h := by
    obtain ⟨hd, rfl⟩ := Prod.mk.inj h
    obtain rfl := Except.ok.inj hd
    have hp := documents_put m ⟨Path.join (Path.joinAll folders) name⟩ text
    refine ⟨fun e he => ?_, fun hn => ?_⟩
    · refine (congrArg (e ∈ ·) hp).mpr ?_
      split
      · exact he
      · exact List.mem_append_left _ he
    · refine (congrArg (_ ∈ ·) hp).mpr ?_
      rw [if_neg]
      · simp
      · intro hk
        obtain ⟨e, he, hek⟩ := List.mem_map.1 hk
        exact hn e he hek
  isInput_add {m m' name text folders e} h := nomatch (Prod.mk.inj h).1
  read_add {m m' name text old folders d e} h he hn := by
    obtain ⟨hd, rfl⟩ := Prod.mk.inj h
    obtain rfl := Except.ok.inj hd
    refine (read_put m _ e text).trans ((if_neg fun hk => hn ?_).trans he)
    rw [Document.name_eq, Document.name_eq, hk]

theorem find?_eq_some_iff : m.find? d = some h ↔ h ∈ m.files ∧ h.key = d.key := by
  constructor
  · intro hf
    exact ⟨List.mem_of_find?_eq_some hf, by simpa using List.find?_some hf⟩
  · rintro ⟨hm, hk⟩
    cases hf : m.find? d with
    | none => exact absurd hk (by simpa using List.find?_eq_none.1 hf h hm)
    | some h' =>
      have hk' : h'.key = d.key := by simpa using List.find?_some hf
      rw [List.inj_on_of_nodup_map m.nodup (List.mem_of_find?_eq_some hf) hm (hk'.trans hk.symm)]

theorem mem_files_iff : h ∈ m.files ↔ m.find? h.document = some h := by
  rw [find?_eq_some_iff]
  exact (and_iff_left rfl).symm

/-- No two documents in memory are at one path. -/
theorem separate (m : Memory) : Separate m := by
  intro d hd e he _ _ hp
  obtain ⟨h, hh, rfl⟩ := List.mem_map.1 hd
  obtain ⟨h', hh', rfl⟩ := List.mem_map.1 he
  rw [List.inj_on_of_nodup_map m.nodup hh' hh (Option.some.inj hp)]

theorem read_of_mem (hm : h ∈ m.files) : m.read h.document = .ok h.text := by
  rw [read, mem_files_iff.1 hm]

theorem name_of_place (hp : LawfulStore.place m e = LawfulStore.place m d) : e.name = d.name := by
  rw [Document.name_eq, Document.name_eq, Option.some.inj hp]

end Memory

end Docsmith
