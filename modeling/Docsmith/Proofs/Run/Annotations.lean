import Docsmith.Proofs.Run.Attempts

/-!
# Trials of annotation runs

A trial shows a document for each change it would make. What it shows is what a run that writes
makes of the documents, as long as no document is changed twice in a run: a document that holds a
type to annotate can be the one that declares the constants, or the one that registers types.

* `lastShown?`: the text in which lines show a document last;
* `annotateTypes_trial_iff`: a trial shows the documents that a run changes, and shows them last as
  the run leaves them if and only if the changes of each document end in turn in what the last of
  them that counts makes of it alone.
-/

namespace Docsmith.Run

open Docsmith.Description Docsmith.Discovery Docsmith.Metadata Docsmith.Naming Docsmith.Source

/-! ## Shown documents -/

/-- The documents that lines show, by their titles. -/
def shownIn : List String → List (String × String)
  | opening :: title :: text :: closing :: rest =>
    if opening = rule ∧ closing = rule then (title, text) :: shownIn rest else []
  | _ => []

/-- The text in which lines show a document last. -/
def lastShown? (lines : List String) (path : String) : Option String :=
  ((shownIn lines).filter fun m => m.1 = path).getLast?.map (·.2)

theorem shownIn_framed (ms : List (Document × String)) :
    shownIn (ms.flatMap fun m => framed m.1.path m.2) = ms.map fun m => (m.1.path, m.2) := by
  induction ms with
  | nil => rfl
  | cons m ms ih =>
    rw [List.flatMap_cons, framed, List.map_cons, List.cons_append, List.cons_append,
      List.cons_append, List.cons_append, List.nil_append, shownIn, if_pos ⟨rfl, rfl⟩, ih]

/-! ## Changes of one document -/

/-- What the last of the attempts that change a document makes of it alone. -/
def lastAlone? (as : List Attempt) (d : Document) (text : String) : Option String :=
  ((as.filter fun a => a.document = d).filterMap fun a => a.change text).getLast?

/-- The changes of a document end in turn in what the last one that counts makes of it alone. -/
def Settled (as : List Attempt) (d : Document) (text : String) : Prop :=
  ∀ new, lastAlone? as d text = some new → inTurn as d text = new

/-- What changes a text adds to it. -/
def Attempt.Gains (a : Attempt) : Prop :=
  ∀ text new, a.change text = some new → weight text.toList < weight new.toList

variable {as : List Attempt} {d : Document}

theorem inTurn_eq_foldl (as : List Attempt) (d : Document) (text : String) :
    inTurn as d text = (as.filter fun a => a.document = d).foldl
      (fun text a => (a.change text).getD text) text := by
  induction as generalizing text with
  | nil => rfl
  | cons a as ih =>
    rw [inTurn, List.foldl_cons, List.filter_cons]
    by_cases h : a.document = d
    · rw [if_pos h, if_pos (decide_eq_true h), List.foldl_cons]
      exact ih _
    · rw [if_neg h, if_neg (by simpa using h)]
      exact ih _

/-- A document with one change at most is settled. -/
theorem settled_of_length_le_one (h : (as.filter fun a => a.document = d).length ≤ 1)
    (text : String) : Settled as d text := by
  intro new hnew
  rw [lastAlone?] at hnew
  rw [inTurn_eq_foldl]
  generalize (as.filter fun a => a.document = d) = bs at h hnew
  cases bs with
  | nil => cases hnew
  | cons a bs =>
    have hnil : bs = [] := List.eq_nil_of_length_eq_zero (by rw [List.length_cons] at h; omega)
    subst hnil
    rw [List.filterMap_cons] at hnew
    rw [List.foldl_cons, List.foldl_nil]
    cases hc : a.change text with
    | none =>
      rw [hc] at hnew
      cases hnew
    | some t =>
      rw [hc] at hnew
      exact Option.some.inj hnew

/-- A document is changed in turn if one of the changes counts for it alone. -/
theorem inTurn_ne_iff (hg : ∀ a ∈ as, a.Gains) (text : String) :
    (inTurn as d text ≠ text ↔ lastAlone? as d text ≠ none) ∧
      weight text.toList ≤ weight (inTurn as d text).toList := by
  rw [lastAlone?, inTurn_eq_foldl]
  have hg' : ∀ a ∈ as.filter fun a => a.document = d, a.Gains :=
    fun a ha => hg a (List.mem_filter.1 ha).1
  generalize as.filter _ = bs at hg'
  induction bs generalizing text with
  | nil => exact ⟨by simp, Nat.le_refl _⟩
  | cons b bs ih =>
    obtain ⟨hb, hbs⟩ := List.forall_mem_cons.1 hg'
    rw [List.foldl_cons]
    cases hc : b.change text with
    | none =>
      rw [List.filterMap_cons, hc]
      exact ih text hbs
    | some new =>
      have hlt := hb text new hc
      have hle := (ih new hbs).2
      rw [Option.getD_some]
      refine ⟨iff_of_true (fun he => ?_) ?_, by omega⟩
      · rw [he] at hle
        omega
      · rw [List.filterMap_cons, hc]
        simp

/-! ## Attempts of a run -/

theorem gains_describing (c : Conventions) (r : DescribeRequest) (d : Document) :
    (describing c r d).Gains := by
  intro text new h
  rw [describing] at h
  dsimp only at h
  split at h
  · rename_i hd
    obtain rfl := Option.some.inj h
    have hlt : weight text.toList < _ :=
      (gains_annotate (c.annotator d.holdsController) text).lt hd
    have hle := (gains_addImports (annotate (c.annotator d.holdsController) text).revision.after
      r.imports).le
    rw [before_addImports] at hle
    omega
  · cases h

theorem gains_of_change {change : String → Except Error Revision}
    (hc : ∀ text revision, change text = .ok revision → revision.before = text ∧ revision.Gains)
    (d : Document) : Attempt.Gains ⟨d, fun text => effect? (change text)⟩ := by
  intro text new h
  dsimp only at h
  cases hr : change text with
  | ok revision =>
    rw [hr, effect?] at h
    obtain ⟨rfl, hg⟩ := hc text revision hr
    split at h
    · rename_i hd
      obtain rfl := Option.some.inj h
      exact hg.lt hd
    · cases h
  | error e =>
    rw [hr, effect?] at h
    cases h

theorem mem_namedAttempts {cause : Bool} {documents : List Document} {name : String}
    {change : String → Except Error Revision} {a : Attempt}
    (h : a ∈ namedAttempts cause documents name change) :
    a.document ∈ documents ∧ a = ⟨a.document, fun text => effect? (change text)⟩ := by
  rw [namedAttempts] at h
  split at h
  · cases hd : Document.single documents name with
    | ok d =>
      rw [hd] at h
      obtain rfl := List.mem_singleton.1 h
      exact ⟨mem_of_single hd, rfl⟩
    | error e =>
      rw [hd] at h
      cases h
  · cases h

variable {σ : Type} [DocumentStore σ]

/-- The attempts of a run are made of documents that are there, and add to them. -/
theorem attempts_spec (session : Session) (c : Conventions) (r : DescribeRequest) (docs : σ) :
    ∀ a ∈ attempts session c r docs, a.document ∈ DocumentStore.documents docs ∧ a.Gains := by
  intro a ha
  rw [attempts] at ha
  split at ha
  · rename_i names _
    have ha := (List.takeWhile_sublist _).mem ha
    rw [attemptsFor] at ha
    rcases List.mem_append.1 ha with ha | ha
    · obtain ⟨s, hs, rfl⟩ := List.mem_map.1 ha
      exact ⟨(documents_subjects (targetsIn_plans _ _ names)).1 s hs, gains_describing c r s.document⟩
    · rcases List.mem_append.1 ha with ha | ha
      · obtain ⟨hd, he⟩ := mem_namedAttempts ha
        rw [he]
        exact ⟨hd, gains_of_change (fun _ _ => gains_declareIn) _⟩
      · obtain ⟨hd, he⟩ := mem_namedAttempts ha
        rw [he]
        exact ⟨hd, gains_of_change (fun _ _ => gains_registerTypes) _⟩
  · cases ha

/-! ## Trials and runs that write -/

/-- What a document shows as after some attempts. -/
theorem lastShown?_madeAlone (docs : σ) (as : List Attempt) (d : Document) :
    lastShown? ((madeAlone docs as).flatMap fun m => framed m.1.path m.2) d.path =
      (DocumentStore.read docs d).toOption.bind (lastAlone? as d) := by
  have hmade : (((madeAlone docs as).map fun m => (m.1.path, m.2)).filter
      fun m => m.1 = d.path).map (·.2) =
        (as.filter fun a => a.document = d).filterMap fun a =>
          (DocumentStore.read docs d).toOption.bind a.change := by
    induction as with
    | nil => rfl
    | cons a as ih =>
      rw [madeAlone, List.filterMap_cons, List.filter_cons]
      by_cases hd : a.document = d
      · subst hd
        rw [if_pos (decide_eq_true rfl), List.filterMap_cons]
        cases (DocumentStore.read docs a.document).toOption.bind a.change with
        | none => exact ih
        | some new =>
          rw [Option.map_some]
          dsimp only
          rw [List.map_cons, List.filter_cons, if_pos (decide_eq_true rfl), List.map_cons]
          exact congrArg (new :: ·) ih
      · have hp : a.document.path ≠ d.path := fun h => hd (congrArg Document.mk h)
        rw [if_neg (by simpa using hd)]
        cases (DocumentStore.read docs a.document).toOption.bind a.change with
        | none => exact ih
        | some new =>
          rw [Option.map_some]
          dsimp only
          rw [List.map_cons, List.filter_cons, if_neg (by simpa using hp)]
          exact ih
  rw [lastShown?, shownIn_framed, ← List.getLast?_map, hmade]
  cases (DocumentStore.read docs d).toOption with
  | none =>
    have hnil : (as.filter fun a => a.document = d).filterMap
        (fun a => (none : Option String).bind a.change) = [] :=
      List.filterMap_eq_nil_iff.2 fun _ _ => rfl
    rw [hnil]
    rfl
  | some text => rfl

/-- A document is shown if it is the document of an attempt. -/
theorem mem_shownIn_madeAlone {docs : σ} {as : List Attempt} {m : String × String}
    (h : m ∈ shownIn ((madeAlone docs as).flatMap fun m => framed m.1.path m.2)) :
    ∃ a ∈ as, a.document.path = m.1 := by
  rw [shownIn_framed] at h
  obtain ⟨m', hm', rfl⟩ := List.mem_map.1 h
  obtain ⟨a, ha, hm'⟩ := List.mem_filterMap.1 hm'
  obtain ⟨new, -, rfl⟩ := Option.map_eq_some_iff.1 hm'
  exact ⟨a, ha, rfl⟩

variable [LawfulStore σ]

/-- A trial leaves the documents as they are. It shows the documents that a run changes, and no
others. It shows each document last as the run leaves it, if and only if the changes of every
document end in turn in what the last one that counts makes of it alone. -/
theorem annotateTypes_trial_iff (session : Session) (c : Conventions) (r : DescribeRequest)
    (docs : σ) (hs : Separate docs) :
    let shown := ((annotateTypes session c { r with trial := true }).run docs).2
    let written := ((annotateTypes session c { r with trial := false }).run docs).2
    shown.docs = docs ∧
    (∀ m ∈ shownIn shown.lines, ∃ d ∈ DocumentStore.documents docs, d.path = m.1) ∧
    (∀ d ∈ DocumentStore.documents docs, lastShown? shown.lines d.path ≠ none ↔
      DocumentStore.read written.docs d ≠ DocumentStore.read docs d) ∧
    ((∀ d ∈ DocumentStore.documents docs, ∀ text, lastShown? shown.lines d.path = some text →
        DocumentStore.read written.docs d = .ok text) ↔
      ∀ d ∈ DocumentStore.documents docs, ∀ text, DocumentStore.read docs d = .ok text →
        Settled (attempts session c r docs) d text) := by
  intro shown written
  have hspec := attempts_spec session c r docs
  have hshown : Stands docs (attempts session c r docs) true shown :=
    annotateTypes_stands session c { r with trial := true } docs hs
  have hwritten : Stands docs (attempts session c r docs) false written :=
    annotateTypes_stands session c { r with trial := false } docs hs
  generalize attempts session c r docs = as at hspec hshown hwritten
  generalize written = written at hwritten
  generalize shown = shown at hshown
  cases hshown
  cases hwritten with
  | real hdocs hplace hread =>
    have hlast (d : Document) := lastShown?_madeAlone docs as d
    have hgains : ∀ a ∈ as, a.Gains := fun a ha => (hspec a ha).2
    refine ⟨rfl, fun m hm => ?_, fun d hd => ?_, ?_⟩
    · obtain ⟨a, ha, hp⟩ := mem_shownIn_madeAlone hm
      exact ⟨a.document, (hspec a ha).1, hp⟩
    · rw [hlast, hread d hd]
      cases DocumentStore.read docs d with
      | error e => exact iff_of_false (fun h => h rfl) fun h => h rfl
      | ok text =>
        refine (inTurn_ne_iff hgains text).1.symm.trans (not_congr ?_)
        exact ⟨fun h => congrArg Except.ok h, fun h => Except.ok.inj h⟩
    · constructor
      · intro h d hd text hr new hnew
        have hnow := h d hd new (by rw [hlast, hr]; exact hnew)
        rw [hread d hd, hr] at hnow
        exact Except.ok.inj hnow
      · intro h d hd new hnew
        rw [hlast] at hnew
        rw [hread d hd]
        cases hr : DocumentStore.read docs d with
        | error e =>
          rw [hr] at hnew
          cases hnew
        | ok text =>
          rw [hr] at hnew
          exact congrArg Except.ok (h d hd text hr new hnew)

/-! ## A document in two roles -/

/-- Conventions under which a document `d.rs` holds the descriptions in a type `D`. -/
def shortConventions : Conventions :=
  { Conventions.standard with descriptionsType := "D", descriptionsDocument := "d.rs" }

def describeType (name : String) (trial : Bool) : DescribeRequest :=
  ⟨none, some name, "", [], trial⟩

/-- The only document holds the descriptions, and a structure that gets one. -/
def soleDocument : Memory := Memory.empty.put ⟨"d.rs"⟩ "struct A\x7bb:u8\x7dimpl D\x7b\x7d"

/-- The text that a trial shows last has the new constant, but not the attribute that names it. -/
theorem annotateTypes_trial_differs :
    ¬∀ d ∈ DocumentStore.documents soleDocument, ∀ text,
      lastShown? ((annotateTypes .empty shortConventions
        (describeType "D" true)).run soleDocument).2.lines d.path = some text →
      DocumentStore.read ((annotateTypes .empty shortConventions
        (describeType "D" false)).run soleDocument).2.docs d = .ok text := by
  intro h
  have hd : ⟨"d.rs"⟩ ∈ DocumentStore.documents soleDocument := List.mem_singleton_self _
  have hread := h _ hd ("struct A\x7bb:u8\x7dimpl D\x7b\n    // region: D\n" ++
    "    pub const AB: &str = \"AB\";\n    // endregion: D\n\x7d") (by decide +kernel)
  revert hread
  decide +kernel

/-- A document with a structure only. -/
def plainDocument : Memory := Memory.empty.put ⟨"a.rs"⟩ "struct A\x7bb:u8\x7d"

/-- It is shown as it is written. -/
theorem annotateTypes_trial_single :
    Separate plainDocument ∧
    ∀ d ∈ DocumentStore.documents plainDocument, ∀ text,
      lastShown? ((annotateTypes .empty shortConventions (describeType "A" true)).run
        plainDocument).2.lines d.path = some text →
      DocumentStore.read ((annotateTypes .empty shortConventions (describeType "A" false)).run
        plainDocument).2.docs d = .ok text := by
  have hs := Memory.separate plainDocument
  have hone : (attempts .empty shortConventions (describeType "A" true)
      plainDocument).length = 1 := by
    decide +kernel
  refine ⟨hs, ?_⟩
  refine (annotateTypes_trial_iff .empty shortConventions (describeType "A" true) _ hs).2.2.2.2 ?_
  intro d _ text _
  exact settled_of_length_le_one ((List.length_filter_le _ _).trans (Nat.le_of_eq hone)) text

end Docsmith.Run
