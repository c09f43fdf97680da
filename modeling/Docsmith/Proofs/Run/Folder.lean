import Docsmith.Proofs.Run.Annotations
import Docsmith.Proofs.Run.Containment
import Docsmith.Proofs.Run.Simulation
import Docsmith.Proofs.Workspace.Project

/-!
# Folders and memory

A run on the documents of a folder and a run on the same documents in memory end alike. The two sets
list, write and add documents in different ways: the one by the files that paths lead to, the other
by the paths alone. For documents that can be read this comes to the same, as no two of those that a
run writes lie at one place.

* `Twins`: sets with the same documents and the same texts;
* `Parallel`: twins in which some documents lie apart from all others, which runs keep;
* `runs_folder`: runs on a folder that has been opened and in memory.
-/

namespace Docsmith.Run

open Docsmith.Example Docsmith.Metadata Docsmith.Workspace

/-! ## Twins -/

section

variable {σ τ : Type} [DocumentStore σ] [DocumentStore τ]

/-- Two sets with the same documents, which all can be read and have the same texts. -/
structure Twins (s : σ) (t : τ) : Prop where
  mem (d : Document) : d ∈ DocumentStore.documents s ↔ d ∈ DocumentStore.documents t
  read {d : Document} : d ∈ DocumentStore.documents s →
    ∃ text, DocumentStore.read s d = .ok text ∧ DocumentStore.read t d = .ok text

theorem Twins.symm {s : σ} {t : τ} (h : Twins s t) : Twins t s := by
  refine ⟨fun d => (h.mem d).symm, fun {d} hd => ?_⟩
  obtain ⟨text, hs, ht⟩ := h.read ((h.mem d).2 hd)
  exact ⟨text, ht, hs⟩

variable [LawfulStore σ] [LawfulStore τ]

/-- No other document of a set lies where this one does. -/
def Alone (s : σ) (d : Document) : Prop :=
  ∀ e ∈ DocumentStore.documents s, LawfulStore.place s e = LawfulStore.place s d → e = d

/-- Twins in which some documents lie apart from all others. -/
structure Parallel (old : Document → Prop) (s : σ) (t : τ) : Prop extends Twins s t where
  held (d : Document) : old d → d ∈ DocumentStore.documents s
  left (d : Document) : old d → Alone s d
  right (d : Document) : old d → Alone t d

/-- Writing a document that lies apart from all others. -/
theorem Alone.write {s : σ} {d : Document} {old : String} (h : Alone s d)
    (hr : DocumentStore.read s d = .ok old) (text : String) :
    ∃ s', DocumentStore.write s d text = (.ok (), s') ∧
      DocumentStore.documents s' = DocumentStore.documents s ∧
      (∀ e, Alone s e → Alone s' e) ∧
      ∀ e ∈ DocumentStore.documents s, DocumentStore.read s' e =
        if e = d then .ok text else DocumentStore.read s e := by
  obtain ⟨s', hw, hdocs, hplace, hread⟩ := LawfulStore.write_of_read text hr
  refine ⟨s', hw, hdocs, fun e he f hf hp => ?_, fun e he => ?_⟩
  · rw [hplace, hplace] at hp
    exact he f (hdocs ▸ hf) hp
  · rw [hread]
    by_cases hed : e = d
    · rw [if_pos hed, if_pos (hed ▸ rfl)]
    · rw [if_neg hed, if_neg fun hp => hed (h e he hp)]

variable {s : σ} {t : τ} {old : Document → Prop} {d : Document}

/-- Writing a document that lies apart does the same to both sets. -/
theorem Parallel.write (h : Parallel old s t) (hd : old d) (text : String) :
    ∃ s' t', DocumentStore.write s d text = (.ok (), s') ∧
      DocumentStore.write t d text = (.ok (), t') ∧ Parallel old s' t' ∧
      DocumentStore.documents s' = DocumentStore.documents s := by
  have hmem := h.held d hd
  obtain ⟨before, hs, ht⟩ := h.read hmem
  obtain ⟨s', hws, hdocs, halone, hread⟩ := (h.left d hd).write hs text
  obtain ⟨t', hwt, hdocs', halone', hread'⟩ := (h.right d hd).write ht text
  refine ⟨s', t', hws, hwt, ⟨⟨fun e => ?_, fun {e} he => ?_⟩, fun e he => ?_,
    fun e he => halone e (h.left e he), fun e he => halone' e (h.right e he)⟩, hdocs⟩
  · rw [hdocs, hdocs', h.mem]
  · rw [hdocs] at he
    rw [hread e he, hread' e ((h.mem e).1 he)]
    split
    · exact ⟨text, rfl, rfl⟩
    · exact h.read he
  · rw [hdocs]
    exact h.held e he

theorem Parallel.mirrors (old : Document → Prop) :
    Mirrors old (Parallel old : σ → τ → Prop) where
  read {s t d} h hd := by
    obtain ⟨text, hs, ht⟩ := h.read (h.held d hd)
    rw [hs, ht]
  write {s t d} text h hd := by
    obtain ⟨s', t', hs, ht, h', -⟩ := h.write hd text
    exact ⟨.ok (), s', t', hs, ht, h'⟩

/-! ## Added documents -/

variable {s' : σ} {t' : τ} {name text : String} {folders : List String} {e : Document}

/-- An added document is the only one that is new, unless it is there already. -/
theorem mem_documents_of_add (h : DocumentStore.add s name folders text = (.ok d, s'))
    (hn : ∀ e ∈ DocumentStore.documents s, e.name = d.name → e = d) :
    e ∈ DocumentStore.documents s' ↔ e ∈ DocumentStore.documents s ∨ e = d := by
  obtain ⟨hkept, hnew⟩ := LawfulStore.documents_add h
  constructor
  · exact LawfulStore.mem_documents_add h
  · rintro (he | rfl)
    · exact hkept e he
    · by_cases hd : e ∈ DocumentStore.documents s
      · exact hkept e hd
      · exact hnew fun f hf hk => hd (hn f hf (Document.name_congr hk) ▸ hf)

/-- Twins to which one document is added are twins. -/
theorem Twins.add (h : Twins s t) (hs : DocumentStore.add s name folders text = (.ok d, s'))
    (ht : DocumentStore.add t name folders text = (.ok d, t'))
    (hn : ∀ e ∈ DocumentStore.documents s, e.name = d.name → e = d) : Twins s' t' := by
  have hn' : ∀ e ∈ DocumentStore.documents t, e.name = d.name → e = d :=
    fun e he => hn e ((h.mem e).2 he)
  refine ⟨fun e => ?_, fun {e} he => ?_⟩
  · rw [mem_documents_of_add hs hn, mem_documents_of_add ht hn', h.mem]
  · by_cases hed : e = d
    · rw [hed]
      exact ⟨text, (LawfulStore.add_eq hs).2, (LawfulStore.add_eq ht).2⟩
    · have hmem := ((mem_documents_of_add hs hn).1 he).resolve_right hed
      have hne : e.name ≠ d.name := fun h => hed (hn e hmem h)
      obtain ⟨old, hrs, hrt⟩ := h.read hmem
      exact ⟨old, LawfulStore.read_add hs hrs hne, LawfulStore.read_add ht hrt hne⟩

end

/-! ## Sets that get samples -/

/-- The only document of its name. -/
def Sole (documents : List Document) (d : Document) : Prop :=
  ∃ name, Document.single documents name = .ok d

theorem Sole.mem {documents : List Document} {d : Document} (h : Sole documents d) :
    d ∈ documents :=
  mem_of_single h.choose_spec

theorem Sole.eq {documents : List Document} {d e : Document} (h : Sole documents d)
    (he : e ∈ documents) (hn : e.name = d.name) : e = d := by
  obtain ⟨name, hs⟩ := h
  rw [Document.single] at hs
  split at hs
  · cases hs
  · rename_i d' hf
    obtain rfl := Except.ok.inj hs
    have hd : d' ∈ documents.filter fun x => x.name = name := by
      rw [hf]
      exact List.mem_singleton_self d'
    have hmem : e ∈ documents.filter fun x => x.name = name :=
      List.mem_filter.2 ⟨he, by rw [hn]; exact (List.mem_filter.1 hd).2⟩
    rw [hf] at hmem
    exact List.mem_singleton.1 hmem
  · cases hs

/-- Twins to which samples have been added for models that had no document. -/
structure Sampling (t : Template) (documents : List Document) (p : Project) (m : Memory) : Prop
    extends Twins p m where
  held : ∀ d ∈ documents, d ∈ p.documents
  fresh : ∀ d ∈ p.documents, d ∈ documents ∨
    ∃ model, lacksSample documents model = true ∧ d = samplePlace t model

section

variable {t : Template} {documents : List Document} {p : Project} {m : Memory} {d e : Document}

/-- A document that was the only one of its name still is. -/
theorem Sampling.eq_of_name (h : Sampling t documents p m) (hd : Sole documents d)
    (he : e ∈ p.documents) (hn : e.name = d.name) : e = d := by
  rcases h.fresh e he with he | ⟨model, hl, rfl⟩
  · exact hd.eq he hn
  · rw [name_samplePlace] at hn
    exact absurd hn.symm (lacksSample_iff.1 hl d hd.mem)

theorem Sampling.parallel (h : Sampling t documents p m) : Parallel (Sole documents) p m where
  toTwins := h.toTwins
  held d hd := h.held d hd.mem
  left d hd e he hp := by
    obtain ⟨text, hr, -⟩ := h.read (h.held d hd.mem)
    exact h.eq_of_name hd he (Project.name_of_place hr hp)
  right d hd e he hp := h.eq_of_name hd ((h.mem e).2 he) (Memory.name_of_place hp)

theorem Sampling.mirrors (t : Template) (documents : List Document) :
    Mirrors (Sole documents) (Sampling t documents) where
  read h hd := (Parallel.mirrors _).read h.parallel hd
  write {p m d} text h hd := by
    obtain ⟨p', m', hp, hm, h', hdocs⟩ := h.parallel.write hd text
    replace hdocs : p'.documents = p.documents := hdocs
    refine ⟨.ok (), p', m', hp, hm, h'.toTwins, fun e he => ?_, fun e he => ?_⟩
    · exact hdocs ▸ h.held e he
    · exact h.fresh e (hdocs ▸ he)

/-- A sample is added to both sets in one place, which was not taken or was that of a sample. -/
theorem Sampling.extends (t : Template) (documents : List Document) :
    Extends t.folders
      (fun name => ∃ model, name = Template.fileName model ∧ lacksSample documents model = true)
      (Sampling t documents) := by
  rintro p m _ text h ⟨model, rfl, hl⟩
  cases ha : DocumentStore.add p (Template.fileName model) t.folders text with
  | mk answer p' =>
    cases answer with
    | error e => exact .inl ⟨e, p', rfl, LawfulStore.isInput_add ha⟩
    | ok d =>
      obtain ⟨rfl, -⟩ := LawfulStore.add_eq ha
      have hn : ∀ e ∈ p.documents, e.name = (samplePlace t model).name →
          e = samplePlace t model := by
        intro e he hn
        rw [name_samplePlace] at hn
        rcases h.fresh e he with he | ⟨model', -, rfl⟩
        · exact absurd hn (lacksSample_iff.1 hl e he)
        · rw [name_samplePlace] at hn
          rw [samplePlace, samplePlace, hn]
      refine .inr ⟨_, samplePlace t model, p', _, rfl, rfl, h.toTwins.add ha rfl hn, ?_, ?_⟩
      · exact fun e he => (mem_documents_of_add ha hn).2 (.inl (h.held e he))
      · intro e he
        rcases (mem_documents_of_add ha hn).1 he with he | rfl
        · exact h.fresh e he
        · exact .inr ⟨model, hl, rfl⟩

end

/-! ## Runs -/

/-- All documents of a project, which are texts, are held in memory in their order. -/
def Holds (m : Memory) (p : Project) : Prop :=
  m.files.map (fun h => (h.document, Except.ok h.text)) = p.documents.map fun d => (d, p.read d)

/-- Two runs with one answer that have shown the same lines, on sets that are twins after them. -/
structure SameRun {σ τ : Type} [DocumentStore σ] [DocumentStore τ]
    (x : Except Error Report × Progress σ) (y : Except Error Report × Progress τ) : Prop where
  answer : x.1 = y.1
  lines : x.2.lines = y.2.lines
  docs : Twins x.2.docs y.2.docs

section

variable {m : Memory} {p : Project}

theorem Holds.documents (h : Holds m p) : m.documents = p.documents := by
  have hd := congrArg (List.map Prod.fst) h
  rw [List.map_map, List.map_map] at hd
  exact hd.trans (List.map_id _)

theorem Holds.twins (h : Holds m p) : Twins p m := by
  refine ⟨fun d => ?_, fun {d} hd => ?_⟩
  · change d ∈ p.documents ↔ d ∈ m.documents
    rw [h.documents]
  · have hmem : (d, p.read d) ∈ m.files.map fun x => (x.document, Except.ok x.text) :=
      h ▸ List.mem_map.2 ⟨d, hd, rfl⟩
    obtain ⟨x, hx, heq⟩ := List.mem_map.1 hmem
    obtain ⟨rfl, hr⟩ := Prod.mk.inj heq
    exact ⟨x.text, hr.symm, Memory.read_of_mem hx⟩

/-- The documents of a folder that has just been opened lie apart. -/
theorem Holds.parallel (h : Holds m p) (hs : Separate p) : Parallel (· ∈ m.documents) m p where
  toTwins := h.twins.symm
  held d hd := hd
  left d hd e he hp := by
    obtain ⟨text, hr, -⟩ := h.twins.symm.read hd
    exact Memory.separate m d hd e he text hr hp
  right d hd e he hp := by
    obtain ⟨text, -, hr⟩ := h.twins.symm.read hd
    exact hs d ((h.twins.mem d).2 hd) e he text hr hp

theorem Holds.sampling (h : Holds m p) (t : Template) : Sampling t p.documents p m :=
  ⟨h.twins, fun _ hd => hd, fun _ hd => .inl hd⟩

end

/-- A run on a folder that has been opened and a run on the same documents in memory give the same
answer, show the same lines and leave the same documents with the same texts. This holds of every
annotation run. It holds of a sample run in which no operation on the files fails. -/
theorem runs_folder (session : Session) (c : Conventions) (luck : String → Nat → Nat)
    (describe : DescribeRequest) (sample : ExampleRequest) {tree : Entry} {root : String}
    {p : Project} {m : Memory} (ht : tree.Plain)
    (hp : Project.openFolder tree.files root = Except.ok p) (hm : Holds m p) :
    SameRun ((annotateTypes session c describe).run p) ((annotateTypes session c describe).run m) ∧
      ((∀ e, ((sampleTypes session c luck sample).run p).1 = .error e → e.isInput = true) →
        SameRun ((sampleTypes session c luck sample).run p)
          ((sampleTypes session c luck sample).run m)) := by
  obtain ⟨way, entries, -, hg, rfl⟩ := Project.openFolder_eq_ok.1 hp
  have hs := Project.separate_ofFolder root tree way (ht.get? hg)
  constructor
  · -- memory refuses nothing, so the files do not either
    have h := (annotateTypes_simulates session c describe (Parallel.mirrors _)
      (.of_eq hm.documents) (fun _ hd => hd) (hm.parallel hs)).run
        ((annotateTypes_contains session c describe).isInput_of_memory m)
    exact ⟨h.answer.eq.symm, h.lines.symm, h.docs.toTwins.symm⟩
  · intro hok
    have h := (sampleTypes_simulates session c luck sample (Sampling.mirrors c.template _)
      (Sampling.extends c.template _) (.of_eq hm.documents.symm) (fun model d hd => ⟨_, hd⟩)
      (fun model hl => ⟨model, rfl, hl⟩) (hm.sampling c.template)).run hok
    exact ⟨h.answer.eq, h.lines, h.docs.toTwins⟩

/-- What is in a folder with one source file beside what has been built from it. -/
def smallEntries : List (String × Entry) :=
  [("a.rs", .file (.text "struct A\x7bb:u8\x7d")),
    ("target", .folder [("b.rs", .file (.text "built"))])]

def smallTree : Entry := .folder [("small", .folder smallEntries)]

def smallProject : Project := ⟨"small", smallTree, ["small"], [⟨"a.rs"⟩], []⟩

theorem plain_smallTree : smallTree.Plain := by
  refine Entry.plain_folder (by decide +kernel) fun x hx => ?_
  obtain rfl := List.mem_singleton.1 hx
  refine Entry.plain_folder (by decide +kernel) fun x hx => ?_
  rcases List.mem_pair.1 hx with rfl | rfl
  · exact .file _
  · refine Entry.plain_folder (by decide +kernel) fun x hx => ?_
    obtain rfl := List.mem_singleton.1 hx
    exact .file _

/-- The folder of built files is left out. -/
theorem sources_smallEntries : sources (.folder smallEntries) = [["a.rs"]] := by
  have hsorted : (Entry.folder smallEntries).sorted = .folder smallEntries := by
    rw [smallEntries, Entry.sorted, Entry.sortedAll_eq_map]
    refine congrArg Entry.folder ((List.mergeSort_of_pairwise ?_).trans ?_)
    · decide
    · simp [Entry.sorted, Entry.sortedAll]
  rw [sources, hsorted]
  decide +kernel

theorem openFolder_smallTree :
    Project.openFolder smallTree.files "small" = Except.ok smallProject := by
  refine Project.openFolder_eq_ok.2 ⟨["small"], smallEntries, by decide +kernel, rfl, ?_⟩
  rw [Project.ofFolder, sources_smallEntries]
  rfl

theorem add_smallProject : ∃ d p, DocumentStore.add smallProject
    (Template.fileName "acme::v1::User") Conventions.standard.template.folders
      (bareSample "acme::v1::User") = (.ok d, p) := by
  have hok : (DocumentStore.add smallProject (Template.fileName "acme::v1::User")
      Conventions.standard.template.folders (bareSample "acme::v1::User")).1.isOk = true := by
    decide +kernel
  generalize DocumentStore.add smallProject (Template.fileName "acme::v1::User")
    Conventions.standard.template.folders (bareSample "acme::v1::User") = result at hok
  obtain ⟨answer, p⟩ := result
  cases answer with
  | ok d => exact ⟨d, p, rfl⟩
  | error e => cases hok

/-- No operation on the files fails when the example of a model is added to the folder. -/
theorem sampleTypes_smallProject (luck : String → Nat → Nat) :
    ((sampleTypes userSession .standard luck firstUserRequest).run smallProject).1 =
      .ok ⟨[⟨"v1::User", .created⟩]⟩ := by
  obtain ⟨d, p, ha⟩ := add_smallProject
  have hall : sampleAll userSession .standard luck false [⟨"a.rs"⟩] [("acme::v1::User", [])]
      .empty (⟨smallProject, []⟩ : Progress Project) =
        .ok ⟨[⟨"v1::User", .created⟩]⟩ ⟨p, []⟩ := by
    refine (sampleAll_cons_of_ok (sampleModel_bare ?_ ha)).trans ?_
    · decide +kernel
    · rw [shownName_user.1]
      rfl
  have hm : modelsOf userSession .standard firstUserRequest = [("acme::v1::User", [])] := rfl
  exact congrArg Prod.fst
    (sampleTypes_of_sampleAll (modelsOf userSession .standard firstUserRequest) rfl (hm ▸ hall))

/-- A structure in the folder is annotated and an example is added, as in memory. -/
theorem runs_folder_small :
    SameRun ((annotateTypes userSession .standard (describeType "A" false)).run smallProject)
        ((annotateTypes userSession .standard (describeType "A" false)).run plainDocument) ∧
      SameRun
        ((sampleTypes userSession .standard (fun _ _ => 0) firstUserRequest).run smallProject)
        ((sampleTypes userSession .standard (fun _ _ => 0) firstUserRequest).run
          plainDocument) := by
  have hholds : Holds plainDocument smallProject := by
    unfold Holds
    decide +kernel
  obtain ⟨hannotate, hsample⟩ := runs_folder userSession .standard (fun _ _ => 0)
    (describeType "A" false) firstUserRequest plain_smallTree openFolder_smallTree hholds
  refine ⟨hannotate, hsample fun e he => ?_⟩
  rw [sampleTypes_smallProject] at he
  cases he

end Docsmith.Run
