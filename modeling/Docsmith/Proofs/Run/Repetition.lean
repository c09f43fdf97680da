import Docsmith.Proofs.Run.Annotations

/-!
# Running twice

A run that writes is made again with the same inputs, on the documents the first one has left.

* `annotateTypes_again_iff`: the second run changes no document if and only if none of the changes
  it tries counts;
* `annotateTypes_again_skips`: a document that the first run has written can be skipped by the
  second one;
* `annotateTypes_described`: constants of attributes that are there already are not declared.
-/

namespace Docsmith.Run

open Docsmith.Description Docsmith.Metadata Docsmith.Source

variable {as : List Attempt} {d : Document}

/-- A document stays if none of its changes counts for it. -/
theorem inTurn_eq_iff (hg : ∀ a ∈ as, a.Gains) (text : String) :
    inTurn as d text = text ↔ ∀ a ∈ as, a.document = d → a.change text = none := by
  refine not_iff_not.1 ((inTurn_ne_iff hg text).1.trans (not_congr ?_))
  rw [lastAlone?, List.getLast?_eq_none_iff, List.filterMap_eq_nil_iff]
  simp only [List.mem_filter, decide_eq_true_eq, and_imp]

/-- Both runs see the same documents. The second run leaves every document as the first one has
left it, if and only if no change it tries does anything to its document. -/
theorem annotateTypes_again_iff (session : Session) (c : Conventions) (r : DescribeRequest)
    (docs : Memory) :
    let act : Action Memory Report := annotateTypes session c { r with trial := false }
    let once := (act.run docs).2.docs
    let twice := (act.run once).2.docs
    DocumentStore.documents twice = DocumentStore.documents docs ∧
      ((∀ d ∈ DocumentStore.documents docs,
          DocumentStore.read twice d = DocumentStore.read once d) ↔
        ∀ a ∈ attempts session c r once, ∀ text,
          DocumentStore.read once a.document = .ok text → a.change text = none) := by
  intro act once twice
  have hfirst : Stands docs (attempts session c r docs) false (act.run docs).2 :=
    annotateTypes_stands session c { r with trial := false } docs (Memory.separate docs)
  have hagain : Stands once (attempts session c r once) false (act.run once).2 :=
    annotateTypes_stands session c { r with trial := false } once (Memory.separate once)
  have honce : DocumentStore.documents once = DocumentStore.documents docs := hfirst.documents
  have hspec := attempts_spec session c r once
  have hgains : ∀ a ∈ attempts session c r once, a.Gains := fun a ha => (hspec a ha).2
  have hread : ∀ d ∈ DocumentStore.documents docs, DocumentStore.read twice d =
      (DocumentStore.read once d).map (inTurn (attempts session c r once) d) :=
    fun d hd => hagain.read (honce ▸ hd)
  refine ⟨hagain.documents.trans honce, fun h a ha text ht => ?_, fun h d hd => ?_⟩
  · have hd : a.document ∈ DocumentStore.documents docs := honce ▸ (hspec a ha).1
    have hsame := (hread _ hd).symm.trans (h _ hd)
    rw [ht] at hsame
    exact (inTurn_eq_iff hgains text).1 (Except.ok.inj hsame) a ha rfl
  · rw [hread d hd]
    cases ht : DocumentStore.read once d with
    | error e => rfl
    | ok text =>
      refine congrArg Except.ok ((inTurn_eq_iff hgains text).2 fun a ha hda => ?_)
      exact h a ha text (hda ▸ ht)

/-! ## A comment in a list -/

/-- A session with one type, which has a property. -/
def lenderSession : Session :=
  .ofSnapshots [⟨"bank", [],
    [⟨"Lender", "", .structured, none, [⟨"id", .named "u8"⟩], [], [], []⟩]⟩]

/-- A registry whose last entry is followed by a comment. -/
def commentedRegistry : Memory :=
  Memory.empty.put ⟨"external_models.rs"⟩ "const EXTERNAL_MODEL_TYPES: [A; 1] = [A // a\n];"

/-- The comma behind the last entry goes into the comment, so the array that the first run has
written cannot be read to its end by the second run. -/
theorem annotateTypes_again_skips :
    let act : Action Memory Report :=
      annotateTypes lenderSession .standard (describeType "Lender" false)
    let report (registry : Outcome) : Report :=
      ⟨[⟨"Lender", .skipped "no matching document"⟩,
        ⟨"descriptions.rs", .skipped "Document 'descriptions.rs' not found"⟩,
        ⟨"external_models.rs", registry⟩]⟩
    (act.run commentedRegistry).1 = .ok (report .written) ∧
      (act.run (act.run commentedRegistry).2.docs).1 = .ok (report
        (.skipped "Parse Error: Array bound to 'external_model_types' is missing ']'")) := by
  intro act report
  unfold act annotateTypes registerTypes File.appendItems
  simp only [File.insertBlock_eq]
  clear act
  decide +kernel

/-! ## Descriptions that come later -/

/-- Annotating changes nothing where it finds no constant. -/
theorem annotate_eq_of_nil {o : MarkOptions} {source : String}
    (h : (annotate o source).constants = []) : (annotate o source).revision.differs = false := by
  rw [annotate] at h ⊢
  dsimp only at h ⊢
  generalize marks o (File.read source) = found at h ⊢
  cases found with
  | nil => simp [Edit.applyAll_nil, Revision.differs]
  | cons m ms => simp [List.eraseDups_cons] at h

/-- Nothing is found where no attribute is new. -/
theorem foundConstants_of_nil {c : Conventions} {docs : Memory} {ss : List Subject}
    (h : ∀ s ∈ ss, ∀ text, DocumentStore.read docs s.document = .ok text →
      (annotate (c.annotator s.document.holdsController) text).constants = [])
    (recorded : Regions) : foundConstants c docs recorded ss = recorded := by
  induction ss generalizing recorded with
  | nil => rfl
  | cons s ss ih =>
    obtain ⟨hs, hss⟩ := List.forall_mem_cons.1 h
    have hone : foundConstants c docs recorded [s] = recorded := by
      rw [foundConstants, List.foldl_cons, List.foldl_nil]
      split
      · rename_i text ht
        simp only [hs text ht, List.isEmpty_nil, ite_true]
      · rfl
    rw [foundConstants_cons, hone, ih hss]

/-- A run declares the constants of attributes it inserts itself, and those of types without a
document. So where all types have a document and no attribute is new it changes nothing, also if
descriptions have come since the attributes were inserted. -/
theorem annotateTypes_described (session : Session) (c : Conventions) (r : DescribeRequest)
    (docs : Memory)
    (hplaces : ∀ names, subjectNames ⟨session, c.discovery⟩ r = .ok names → ∀ name ∈ names,
      (plan ⟨session, c.discovery⟩ (DocumentStore.documents docs) name).target ≠ .nowhere)
    (hnone : ∀ d ∈ DocumentStore.documents docs, ∀ text, DocumentStore.read docs d = .ok text →
      (annotate (c.annotator d.holdsController) text).constants = []) :
    ∀ d ∈ DocumentStore.documents docs,
      DocumentStore.read ((annotateTypes session c { r with trial := false }).run docs).2.docs d =
        DocumentStore.read docs d := by
  have hstands : Stands docs (attempts session c r docs) false _ :=
    annotateTypes_stands session c { r with trial := false } docs (Memory.separate docs)
  have hidle : ∀ a ∈ attempts session c r docs, ∀ text,
      DocumentStore.read docs a.document = .ok text → a.change text = none := by
    intro a ha text ht
    rw [attempts] at ha
    split at ha
    · next names hn =>
      have ha := (List.takeWhile_sublist _).mem ha
      have hsubjects := (documents_subjects (targetsIn_plans ⟨session, c.discovery⟩
        (DocumentStore.documents docs) names)).1
      have houtside : externals ⟨session, c.discovery⟩
          (names.map (plan ⟨session, c.discovery⟩ (DocumentStore.documents docs))) = [] := by
        refine List.filterMap_eq_nil_iff.2 fun p hp => ?_
        obtain ⟨name, hname, rfl⟩ := List.mem_map.1 hp
        simp [hplaces names hn name hname]
      have hfound := foundConstants_of_nil (c := c)
        (fun s hs => hnone s.document (hsubjects s hs))
      simp only [attemptsFor, houtside, List.foldl_nil, hfound] at ha
      -- nothing is recorded, so only the documents of types are left
      obtain ⟨s, hs, rfl⟩ := List.mem_map.1 ((List.mem_append.1 ha).resolve_right List.not_mem_nil)
      have hsame := annotate_eq_of_nil (hnone s.document (hsubjects s hs) text ht)
      simp [describing, hsame]
    · cases ha
  intro d hd
  rw [hstands.read hd]
  cases ht : DocumentStore.read docs d with
  | error e => rfl
  | ok text =>
    have hgains := fun a ha => (attempts_spec session c r docs a ha).2
    refine congrArg Except.ok ((inTurn_eq_iff hgains text).2 fun a ha hda => ?_)
    exact hidle a ha text (hda ▸ ht)

/-- The descriptions were not there when a structure got its attribute. They have come, but the
constant that the attribute names is not declared by another run. -/
theorem annotateTypes_late_descriptions :
    let act : Action Memory Report :=
      annotateTypes .empty shortConventions (describeType "A" false)
    let early := act.run plainDocument
    let late := act.run (early.2.docs.put ⟨"d.rs"⟩ "impl D\x7b\x7d")
    early.1 = .ok ⟨[⟨"A", .written⟩, ⟨"d.rs", .skipped "Document 'd.rs' not found"⟩]⟩ ∧
      DocumentStore.read early.2.docs ⟨"a.rs"⟩ =
        .ok "struct A\x7b#[schema(description = D::AB)] b:u8\x7d" ∧
      late.1 = .ok ⟨[⟨"A", .unchanged⟩]⟩ ∧
      DocumentStore.read late.2.docs ⟨"d.rs"⟩ = .ok "impl D\x7b\x7d" ∧
      declared "impl D\x7b\x7d" "D" = [] := by
  decide +kernel

end Docsmith.Run
