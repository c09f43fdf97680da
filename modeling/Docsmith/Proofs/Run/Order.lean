import Docsmith.Proofs.Run.Annotations
import Docsmith.Proofs.Run.Containment
import Docsmith.Proofs.Run.Simulation

/-!
# Order of documents

The order in which documents are held in memory does not matter. A run looks for documents by their
names and finds the same ones in any order; what it does follows the types it is asked for. Only the
candidates named by an ambiguity come in the order of the documents.

* `Memory.perm_iff_find?`: sets hold the same documents if and only if they answer alike;
* `runs_order`: runs on two such sets end alike.
-/

namespace Docsmith

namespace Memory

variable {m m' : Memory}

/-- Two sets hold the same documents if and only if they find the same at every path. -/
theorem perm_iff_find? : m.files.Perm m'.files ↔ ∀ d, m.find? d = m'.find? d := by
  constructor
  · intro hp d
    refine Option.ext fun h => ?_
    rw [find?_eq_some_iff, find?_eq_some_iff, hp.mem_iff]
  · intro hf
    refine (List.perm_ext_iff_of_nodup m.nodup.of_map m'.nodup.of_map).2 fun h => ?_
    rw [mem_files_iff, mem_files_iff, hf]

theorem put_perm (hp : m.files.Perm m'.files) (d : Document) (text : String) :
    (m.put d text).files.Perm (m'.put d text).files := by
  rw [perm_iff_find?] at hp ⊢
  intro e
  rw [find?_put, find?_put, hp, hp]

/-- The same documents, and the same text at every path. -/
structure SameTexts (m m' : Memory) : Prop where
  files : m.files.Perm m'.files
  text (path : String) : m.text? path = m'.text? path

theorem SameTexts.of_perm (hp : m.files.Perm m'.files) : SameTexts m m' :=
  ⟨hp, fun path => by rw [text?, text?, perm_iff_find?.1 hp]⟩

end Memory

namespace Run

open Docsmith.Metadata

/-- Sets in memory that hold the same documents are read and written alike. -/
theorem mirrors_memory :
    Mirrors (fun _ => True) fun m m' : Memory => m.files.Perm m'.files where
  read {m m' d} hp _ := by
    change m.read d = m'.read d
    rw [Memory.read, Memory.read, Memory.perm_iff_find?.1 hp]
  write {m m' d} text hp _ := by
    have hf := Memory.perm_iff_find?.1 hp d
    cases hd : m.find? d with
    | some held =>
      refine ⟨.ok (), m.put d text, m'.put d text, Memory.write_of_find? hd text,
        Memory.write_of_find? (hf.symm.trans hd) text, Memory.put_perm hp d text⟩
    | none =>
      refine ⟨.error (.documentNotFound d.path), m, m', ?_, ?_, hp⟩
      · change m.write d text = _
        rw [Memory.write, hd]
      · change m'.write d text = _
        rw [Memory.write, ← hf, hd]

theorem extends_memory (folders : List String) :
    Extends folders (fun _ => True) fun m m' : Memory => m.files.Perm m'.files :=
  fun {_ _ name} text hp _ => .inr
    ⟨_, ⟨Path.join (Path.joinAll folders) name⟩, _, _, rfl, rfl, Memory.put_perm hp _ text⟩

/-- Runs on the same documents in different orders have the same texts at all paths in the end. They
show the same lines and report the same outcomes of the same subjects, but for the order of the
candidates that the text of an ambiguity names. -/
theorem runs_order (session : Session) (c : Conventions) (luck : String → Nat → Nat)
    (describe : DescribeRequest) (sample : ExampleRequest) {m m' : Memory}
    (h : m.files.Perm m'.files) :
    RunsAlike List.Perm Memory.SameTexts ((annotateTypes session c describe).run m)
        ((annotateTypes session c describe).run m') ∧
      RunsAlike List.Perm Memory.SameTexts ((sampleTypes session c luck sample).run m)
        ((sampleTypes session c luck sample).run m') := by
  have hdocuments : SameDocuments List.Perm (DocumentStore.documents m)
      (DocumentStore.documents m') := .of_perm (h.map _)
  have hsame : ∀ {x y}, RunsAlike List.Perm (fun s t : Memory => s.files.Perm t.files) x y →
      RunsAlike List.Perm Memory.SameTexts x y :=
    fun hr => ⟨hr.answer, hr.lines, .of_perm hr.docs⟩
  refine ⟨hsame (Matches.run ?_ ?_), hsame (Matches.run ?_ ?_)⟩
  · exact annotateTypes_simulates session c describe mirrors_memory hdocuments
      (fun _ _ => trivial) h
  · exact (annotateTypes_contains session c describe).isInput_of_memory m
  · exact sampleTypes_simulates session c luck sample mirrors_memory
      (extends_memory c.template.folders) hdocuments (fun _ _ _ => trivial) (fun _ _ => trivial) h
  · exact (sampleTypes_contains session c luck sample).isInput_of_memory m

/-- Two documents that may declare one type. -/
def twoVersions : Memory :=
  (Memory.empty.put ⟨"v1/a.rs"⟩ "struct A\x7bb:u8\x7d").put ⟨"v2/a.rs"⟩ "struct A\x7bb:u8\x7d"

def twoVersionsTurned : Memory :=
  (Memory.empty.put ⟨"v2/a.rs"⟩ "struct A\x7bb:u8\x7d").put ⟨"v1/a.rs"⟩ "struct A\x7bb:u8\x7d"

/-- The reports name the candidates in the order of the documents, and are alike otherwise. -/
theorem runs_order_versions :
    let run (m : Memory) := (annotateTypes .empty shortConventions (describeType "A" false)).run m
    let report (paths : List String) : Report := ⟨[⟨"A", .skipped (severalReason paths)⟩]⟩
    (run twoVersions).1 = .ok (report ["v1/a.rs", "v2/a.rs"]) ∧
      (run twoVersionsTurned).1 = .ok (report ["v2/a.rs", "v1/a.rs"]) ∧
      AnswerAlike List.Perm (ReportAlike List.Perm) (run twoVersions).1
        (run twoVersionsTurned).1 := by
  intro run report
  refine ⟨by decide +kernel, by decide +kernel, ?_⟩
  have hperm : twoVersions.files.Perm twoVersionsTurned.files := .swap ..
  exact (runs_order .empty shortConventions (fun _ _ => 0) (describeType "A" false)
    ⟨none, none, "", false⟩ hperm).1.answer

end Run

end Docsmith
