import Docsmith.Proofs.Description.Declaring
import Docsmith.Proofs.Run.Reports

/-!
# Constants that runs declare

A run that writes declares each constant that its new attributes name, and each that describes a
property of a type without a document, where the descriptions have no fault when it comes to them.

* `holds_calledFor`: the constants that a run calls for;
* `exists_declareIn`: what becomes of the document of the descriptions;
* `annotateTypes_declares`: the constants it declares at the end;
* `annotateTypes_not_declares`: three ways in which a constant gets lost.
-/

namespace Docsmith

open Docsmith.Source

/-! ## Constants in regions -/

namespace Table

variable {α : Type}

theorem mem_keys_foldl_put {κ : Type} [DecidableEq κ] {f : κ → α} {k : κ} (ks : List κ)
    (t : Table κ α) : k ∈ (ks.foldl (fun t k => t.put k (f k)) t).keys ↔ k ∈ t.keys ∨ k ∈ ks := by
  induction ks generalizing t with
  | nil => simp
  | cons k' ks ih =>
    rw [List.foldl_cons, ih, keys_put, List.mem_cons]
    split
    · rename_i h
      constructor
      · rintro (h | h)
        · exact .inl h
        · exact .inr (.inr h)
      · rintro (h | rfl | h)
        · exact .inl h
        · exact .inl ‹_›
        · exact .inr h
    · rw [List.mem_append, List.mem_singleton, or_assoc]

end Table

namespace Description.Regions

/-- Some region holds a constant. -/
def Holds (r : Regions) (name : String) : Prop :=
  ∃ region t, r.byName.find? region = some t ∧ name ∈ t.keys

theorem holds_record (r : Regions) (region : String) (constants : List String) (name : String) :
    (r.record region constants).Holds name ↔ r.Holds name ∨ name ∈ constants := by
  have hfind (other : String) : (r.record region constants).byName.find? other =
      if other = region then some (constants.foldl (fun t name => t.put name name)
        ((r.byName.find? region).getD .empty)) else r.byName.find? other :=
    Table.find?_put ..
  constructor
  · rintro ⟨other, t, ht, hname⟩
    rw [hfind] at ht
    split at ht
    · obtain rfl := Option.some.inj ht
      rw [Table.mem_keys_foldl_put] at hname
      refine hname.imp_left fun hname => ?_
      cases hr : r.byName.find? region with
      | none =>
        rw [hr] at hname
        cases hname
      | some t => exact ⟨region, t, hr, by rwa [hr] at hname⟩
    · exact .inl ⟨other, t, ht, hname⟩
  · intro h
    by_cases hregion : name ∈ ((r.byName.find? region).getD .empty).keys ∨ name ∈ constants
    · exact ⟨region, _, (hfind region).trans (if_pos rfl), (Table.mem_keys_foldl_put ..).2 hregion⟩
    · obtain ⟨other, t, ht, hname⟩ := h.resolve_right fun h => hregion (.inr h)
      refine ⟨other, t, (hfind other).trans ((if_neg ?_).trans ht), hname⟩
      rintro rfl
      rw [ht] at hregion
      exact hregion (.inl hname)

theorem not_holds_empty (name : String) : ¬Regions.empty.Holds name := by
  rintro ⟨_, _, h, -⟩
  cases h

theorem holds_foldl_record {α : Type} (region : α → String) (constants : α → List String)
    (xs : List α) (r : Regions) (name : String) :
    (xs.foldl (fun r x => r.record (region x) (constants x)) r).Holds name ↔
      r.Holds name ∨ ∃ x ∈ xs, name ∈ constants x := by
  induction xs generalizing r with
  | nil => simp
  | cons x xs ih =>
    rw [List.foldl_cons, ih, holds_record, or_assoc]
    simp

end Description.Regions

namespace Run

open Docsmith.Description Docsmith.Discovery Docsmith.Metadata Docsmith.Naming

/-! ## Constants a run calls for -/

section

variable {σ : Type} [DocumentStore σ]

/-- The regions of constants that a run declares. -/
def calledFor (session : Session) (c : Conventions) (docs : σ) (names : List String) : Regions :=
  let catalog : Catalog := ⟨session, c.discovery⟩
  let plans := names.map (plan catalog (DocumentStore.documents docs))
  foundConstants c docs ((externals catalog plans).foldl
    (fun regions e => regions.record e.1.shown e.2) Regions.empty) (subjects plans)

/-- A new attribute in the document of a subject names a constant. -/
def Subject.Names (c : Conventions) (docs : σ) (s : Subject) (name : String) : Prop :=
  ∃ text, DocumentStore.read docs s.document = .ok text ∧
    ∃ mark ∈ marks (c.annotator s.document.holdsController) (File.read text), mark.constant = name

/-- A constant that a new attribute names, or that describes a property of a type without a
document. -/
def Wanted (session : Session) (c : Conventions) (docs : σ) (names : List String) (name : String) :
    Prop :=
  let catalog : Catalog := ⟨session, c.discovery⟩
  let plans := names.map (plan catalog (DocumentStore.documents docs))
  (∃ s ∈ subjects plans, s.Names c docs name) ∨
    ∃ p ∈ plans, p.target = .nowhere ∧ name ∈ catalog.propertyConstants p.name

theorem mem_annotate_constants {o : MarkOptions} {text name : String} :
    name ∈ (annotate o text).constants ↔
      ∃ mark ∈ marks o (File.read text), mark.constant = name := by
  rw [annotate, List.mem_eraseDups, List.mem_map]

/-- Annotating one document more. -/
theorem holds_foundConstants_singleton (c : Conventions) (docs : σ) (recorded : Regions)
    (s : Subject) (name : String) : (foundConstants c docs recorded [s]).Holds name ↔
      recorded.Holds name ∨ s.Names c docs name := by
  rw [foundConstants, List.foldl_cons, List.foldl_nil, Subject.Names]
  cases DocumentStore.read docs s.document with
  | error e => simp
  | ok text =>
    simp only [Except.ok.injEq, exists_eq_left', ← mem_annotate_constants]
    split
    · rename_i hnil
      rw [List.isEmpty_iff.1 hnil]
      simp
    · rw [Regions.holds_record]

theorem holds_foundConstants (c : Conventions) (docs : σ) (recorded : Regions) (ss : List Subject)
    (name : String) : (foundConstants c docs recorded ss).Holds name ↔
      recorded.Holds name ∨ ∃ s ∈ ss, s.Names c docs name := by
  induction ss generalizing recorded with
  | nil => simp [foundConstants]
  | cons s ss ih =>
    rw [foundConstants_cons, ih, holds_foundConstants_singleton, or_assoc]
    simp

theorem mem_externals {catalog : Catalog} {plans : List Planned} {name : String} :
    (∃ e ∈ externals catalog plans, name ∈ e.2) ↔
      ∃ p ∈ plans, p.target = .nowhere ∧ name ∈ catalog.propertyConstants p.name := by
  constructor
  · rintro ⟨e, he, hname⟩
    obtain ⟨p, hp, he⟩ := List.mem_filterMap.1 he
    dsimp only at he
    split at he
    · rename_i htarget
      obtain rfl := Option.some.inj he
      exact ⟨p, hp, by simpa using (Bool.and_eq_true_iff.1 htarget).1, hname⟩
    · cases he
  · rintro ⟨p, hp, htarget, hname⟩
    refine ⟨(p, catalog.propertyConstants p.name), List.mem_filterMap.2 ⟨p, hp, ?_⟩, hname⟩
    dsimp only
    rw [htarget, if_pos]
    simp [List.ne_nil_of_mem hname]

/-- The regions hold the constants that are wanted, and no others. -/
theorem holds_calledFor (session : Session) (c : Conventions) (docs : σ) (names : List String)
    (name : String) :
    (calledFor session c docs names).Holds name ↔ Wanted session c docs names name := by
  rw [calledFor, Wanted, holds_foundConstants, Regions.holds_foldl_record, mem_externals, or_comm,
    or_iff_right (Regions.not_holds_empty name)]

end

/-! ## Outcomes -/

section

variable {σ : Type} [DocumentStore σ] {documents : List Document} {name : String}
  {change : String → Except Error Revision} {p q : Progress σ} {o : Outcome}

/-- A document was written, or held already what it should. -/
def Outcome.isDone : Outcome → Bool
  | written | unchanged => true
  | _ => false

/-- Where an update is done, the only document of the name could be changed. -/
theorem exists_of_updateNamed (hdone : o.isDone = true)
    (h : Action.skipInput (updateNamed false documents name change) p = .ok o q) :
    ∃ d text r, Document.single documents name = .ok d ∧ DocumentStore.read p.docs d = .ok text ∧
      change text = .ok r := by
  have hskipped {e : Error} (hw : updateNamed false documents name change p = .error e p) :
      False := by
    rw [Action.skipInput_of_error hw] at h
    split at h
    · cases h
      cases hdone
    · cases h
  cases hd : Document.single documents name with
  | error e =>
    refine (hskipped (e := e) ?_).elim
    rw [updateNamed, hd]
    rfl
  | ok d =>
    have hw : updateNamed false documents name change p =
        (Action.readDocument d >>= fun text => Action.ofExcept (change text) >>= fun revision =>
          if revision.differs then Action.emit false d revision.after else pure .unchanged) p := by
      rw [updateNamed, hd]
      rfl
    rw [Action.bind_eq] at hw
    rcases readDocument_cases d p with ⟨text, htext, hread⟩ | ⟨e, hread⟩
    · rw [hread] at hw
      dsimp only at hw
      cases hc : change text with
      | ok r => exact ⟨d, text, r, rfl, htext, hc⟩
      | error e =>
        rw [hc] at hw
        exact (hskipped hw).elim
    · rw [hread] at hw
      exact (hskipped hw).elim

/-- What an update adds to a report. -/
theorem exists_of_reportUpdate {cause : Bool} {report report' : Report}
    (h : reportUpdate cause false documents name change report p = .ok report' q) :
    (cause = false ∧ report' = report) ∨
      cause = true ∧ ∃ o, Action.skipInput (updateNamed false documents name change) p = .ok o q ∧
        report'.entries = report.entries ++ [⟨name, o⟩] := by
  cases cause with
  | false =>
    cases h
    exact .inl ⟨rfl, rfl⟩
  | true =>
    rw [reportUpdate, if_pos rfl, Action.bind_eq_ok] at h
    obtain ⟨o, p', hskip, h⟩ := h
    cases h
    exact .inr ⟨rfl, o, hskip, rfl⟩

/-- An entry of a report is there before an update, or tells of the update. -/
theorem mem_of_reportUpdate {cause : Bool} {report report' : Report} {n : Nat} {e : ReportLine}
    (h : reportUpdate cause false documents name change report p = .ok report' q)
    (he : e ∈ report'.entries.drop n) : e ∈ report.entries.drop n ∨ cause = true ∧
      e.subject = name ∧
      Action.skipInput (updateNamed false documents name change) p = .ok e.outcome q := by
  rcases exists_of_reportUpdate h with ⟨-, rfl⟩ | ⟨hcause, o, hskip, hentries⟩
  · exact .inl he
  · rw [hentries, List.drop_append, List.mem_append] at he
    refine he.imp_right fun he => ?_
    obtain rfl := List.mem_singleton.1 (List.mem_of_mem_drop he)
    exact ⟨hcause, rfl, hskip⟩

/-- What the attempt to change a document makes of its text. -/
theorem inTurn_namedAttempts {d : Document} {text : String} {r : Revision}
    (hd : Document.single documents name = .ok d) (hc : change text = .ok r)
    (hbefore : r.before = text) : inTurn (namedAttempts true documents name change) d text =
      r.after := by
  rw [namedAttempts, if_pos rfl, hd]
  dsimp only
  rw [inTurn, List.foldl_cons, List.foldl_nil, if_pos rfl]
  dsimp only
  rw [hc, effect?]
  split
  · rfl
  · rename_i hdiffers
    rw [Option.getD_none, ← hbefore]
    simpa [Revision.differs] using hdiffers

theorem inTurn_namedAttempts_of_ne {cause : Bool} {d : Document}
    (hd : Document.single documents name ≠ .ok d) (text : String) :
    inTurn (namedAttempts cause documents name change) d text = text := by
  refine inTurn_of_ne (fun a ha hda => hd ?_) text
  rw [namedAttempts] at ha
  split at ha
  · split at ha
    · rename_i hsingle
      rw [List.mem_singleton.1 ha] at hda
      rw [hsingle]
      exact congrArg Except.ok hda
    · cases ha
  · cases ha

end

/-! ## Whole runs -/

section

variable {session : Session} {c : Conventions} {r : DescribeRequest} {m : Memory}
  {names : List String} {report : Report} {final : Progress Memory} {d : Document}

/-- A document in memory can be read. -/
theorem exists_read (hd : d ∈ m.documents) : ∃ text, m.read d = .ok text := by
  obtain ⟨held, hheld, rfl⟩ := List.mem_map.1 hd
  exact ⟨held.text, Memory.read_of_mem hheld⟩

theorem inTurn_cat (as bs : List Attempt) (d : Document) (text : String) :
    inTurn (as ++ bs) d text = inTurn bs d (inTurn as d text) := List.foldl_append

theorem Tries.of_ok {σ α : Type} [DocumentStore σ] [LawfulStore σ] {docs : σ} {trial : Bool}
    {as bs : List Attempt} {Q : α → Prop} {x : α} {p : Progress σ}
    (h : Tries docs trial as bs Q (.ok x p)) : Q x ∧ Stands docs (as ++ bs) trial p := by
  cases h with
  | all hx _ hp => exact ⟨hx, hp⟩

/-- The attempts to describe documents. -/
def describings (session : Session) (c : Conventions) (r : DescribeRequest) (m : Memory)
    (names : List String) : List Attempt :=
  (subjects (names.map (plan ⟨session, c.discovery⟩ m.documents))).map
    fun s => describing c r s.document

/-- The text in which a run finds a document when it comes to declare constants. -/
def describedText (session : Session) (c : Conventions) (r : DescribeRequest) (m : Memory)
    (names : List String) (d : Document) (text : String) : String :=
  inTurn (describings session c r m names) d text

/-- The steps of a run that writes and gives a report, and where the run stands in front of the
second and behind the last. -/
theorem exists_steps (hr : r.trial = false)
    (h : (annotateTypes session c r).run m = (.ok report, final))
    (hnames : subjectNames ⟨session, c.discovery⟩ r = .ok names) :
    ∃ report₀ report₁ p₁ p₂ cause change, report₀.entries.length = names.length ∧
      let regions := calledFor session c m names
      let declare := fun text => regions.declareIn text c.descriptionsType
      Stands m (describings session c r m names) false p₁ ∧
      reportUpdate (!regions.isEmpty) false m.documents c.descriptionsDocument declare report₀ p₁ =
        .ok report₁ p₂ ∧
      reportUpdate cause false m.documents c.registryDocument change report₁ p₂ =
        .ok report final ∧
      Stands m (describings session c r m names ++
        namedAttempts (!regions.isEmpty) m.documents c.descriptionsDocument declare ++
        namedAttempts cause m.documents c.registryDocument change) false final := by
  have hs := Memory.separate m
  obtain ⟨names', done, report₁, p₁, p₂, hn, hall, hdesc, hreg⟩ :=
    annotateTypes_eq_ok (Action.eq_ok_of_run h)
  obtain rfl : names = names' := Except.ok.inj (hnames.symm.trans hn)
  obtain ⟨hmem, hnodup⟩ := documents_subjects
    (targetsIn_plans ⟨session, c.discovery⟩ (DocumentStore.documents m) names)
  have htries : Tries m r.trial [] _ _ (annotateAll c r _ ⟨.empty, (externals
      ⟨session, c.discovery⟩ (names.map (plan ⟨session, c.discovery⟩ (DocumentStore.documents m))))
        |>.foldl (fun regions e => regions.record e.1.shown e.2) Regions.empty⟩ _) :=
    annotateAll_tries hs (.start m r.trial) hmem hnodup (by simp)
  rw [hall] at htries
  obtain ⟨hfound, hstands₁⟩ := htries.of_ok
  replace hfound : done.constants = calledFor session c m names := hfound
  rw [hfound] at hdesc
  rw [hr] at hdesc hreg hstands₁
  have hstands₂ := (hdesc ▸ reportUpdate_tries hs hstands₁ rfl (local_declareIn _ _)).of_ok.2
  have hstands₃ := (hreg ▸ reportUpdate_tries hs hstands₂ rfl (local_registerTypes _ _)).of_ok.2
  exact ⟨_, report₁, p₁, p₂, _, _, by simp, hstands₁, hdesc, hreg, hstands₃⟩

/-- A run that writes leaves the descriptions as declaring the constants makes them. -/
theorem exists_declareIn (hr : r.trial = false)
    (h : (annotateTypes session c r).run m = (.ok report, final))
    (hnames : subjectNames ⟨session, c.discovery⟩ r = .ok names)
    (hother : ∀ d, Document.single m.documents c.descriptionsDocument = .ok d →
      Document.single m.documents c.registryDocument ≠ .ok d)
    (hdone : ∃ o : Outcome, o.isDone = true ∧
      ⟨c.descriptionsDocument, o⟩ ∈ report.entries.drop names.length) :
    ∃ d text revision, Document.single m.documents c.descriptionsDocument = .ok d ∧
      m.read d = .ok text ∧
      (calledFor session c m names).declareIn (describedText session c r m names d text)
        c.descriptionsType = .ok revision ∧
      final.docs.read d = .ok revision.after := by
  obtain ⟨o, ho, hmem⟩ := hdone
  obtain ⟨report₀, report₁, p₁, p₂, cause, change, hlength, hstands, hdesc, hreg, hfinal⟩ :=
    exists_steps hr h hnames
  rcases mem_of_reportUpdate hreg hmem with hmem | ⟨-, hname, hskip⟩
  · rcases mem_of_reportUpdate hdesc hmem with hmem | ⟨hcause, -, hskip⟩
    · rw [← hlength, List.drop_length] at hmem
      cases hmem
    · obtain ⟨d, text', revision, hsingle, hread, hrevision⟩ := exists_of_updateNamed ho hskip
      have hd : d ∈ m.documents := mem_of_single hsingle
      obtain ⟨text, htext⟩ := exists_read hd
      have hthen := hstands.read hd
      rw [hread, show DocumentStore.read m d = .ok text from htext] at hthen
      obtain rfl : text' = describedText session c r m names d text := Except.ok.inj hthen
      refine ⟨d, text, revision, hsingle, htext, hrevision, (hfinal.read hd).trans ?_⟩
      rw [show DocumentStore.read m d = .ok text from htext, hcause]
      refine congrArg Except.ok ?_
      rw [textThen, if_neg Bool.false_ne_true, inTurn_cat, inTurn_cat,
        inTurn_namedAttempts_of_ne (hother d hsingle)]
      exact inTurn_namedAttempts hsingle hrevision (gains_declareIn hrevision).1
  · -- the entry of the registry is no other one, as its document is another
    obtain ⟨d, -, -, hsingle, -⟩ := exists_of_updateNamed ho hskip
    dsimp only at hname
    exact absurd hsingle (hother d (hname ▸ hsingle))

/-- A run that writes declares the constants it calls for, if the document of the descriptions can
be read without a fault when it comes to that. -/
theorem annotateTypes_declares (hr : r.trial = false)
    (h : (annotateTypes session c r).run m = (.ok report, final))
    (hnames : subjectNames ⟨session, c.discovery⟩ r = .ok names)
    (hother : ∀ d, Document.single m.documents c.descriptionsDocument = .ok d →
      Document.single m.documents c.registryDocument ≠ .ok d)
    (hdone : ∃ o : Outcome, o.isDone = true ∧
      ⟨c.descriptionsDocument, o⟩ ∈ report.entries.drop names.length)
    (hregions : ∀ e ∈ (calledFor session c m names).byName.entries,
      '\n' ∉ e.1.toList ∧ ∀ constant ∈ e.2.entries, Token.IsIdentifier constant.1)
    (hfile : ∀ d text, Document.single m.documents c.descriptionsDocument = .ok d →
      m.read d = .ok text → Declarable (describedText session c r m names d text)) :
    ∃ d text, Document.single m.documents c.descriptionsDocument = .ok d ∧
      final.docs.read d = .ok text ∧
      ∀ name, Wanted session c m names name → name ∈ declared text c.descriptionsType := by
  obtain ⟨d, text, revision, hsingle, hread, hdeclare, hfinal⟩ :=
    exists_declareIn hr h hnames hother hdone
  refine ⟨d, revision.after, hsingle, hfinal, fun name hname => ?_⟩
  obtain ⟨region, t, ht, hmem⟩ := (holds_calledFor session c m names name).2 hname
  rw [Table.find?, Option.map_eq_some_iff] at ht
  obtain ⟨e, he, rfl⟩ := ht
  obtain ⟨constant, hconstant, rfl⟩ := List.mem_map.1 hmem
  exact (hfile d text hsingle hread).declareIn hregions hdeclare e (List.mem_of_find?_eq_some he)
    constant hconstant

end

/-! ## Constants that get lost -/

def describeWith (name : String) (imports : List String) : DescribeRequest :=
  ⟨none, some name, "", imports, false⟩

/-- The document of the descriptions gets an attribute, an import and the constant. -/
theorem annotateTypes_declares_sole :
    let run := (annotateTypes .empty shortConventions (describeWith "D" ["a"])).run soleDocument
    ∃ d text, Document.single soleDocument.documents "d.rs" = .ok d ∧
      run.2.docs.read d = .ok text ∧
      ∀ name, Wanted .empty shortConventions soleDocument ["D"] name → name ∈ declared text "D" := by
  intro run
  have hreport : run.1 = .ok ⟨[⟨"D", .written⟩, ⟨"d.rs", .written⟩]⟩ := by decide +kernel
  have hrun : run = (.ok _, run.2) := Prod.ext hreport rfl
  have hsingle : Document.single soleDocument.documents "d.rs" = .ok ⟨"d.rs"⟩ := by decide +kernel
  have hnames : subjectNames ⟨.empty, shortConventions.discovery⟩ (describeWith "D" ["a"]) =
      .ok ["D"] := rfl
  refine annotateTypes_declares rfl hrun hnames ?_ ?_ ?_ ?_
  · intro d _
    have hnone : Document.single soleDocument.documents shortConventions.registryDocument =
        .error (.documentNotFound "external_models.rs") := by decide +kernel
    rw [hnone]
    intro h
    cases h
  · exact ⟨.written, rfl, by decide +kernel⟩
  · decide +kernel
  · intro d text hd htext
    obtain rfl := Except.ok.inj (hsingle.symm.trans hd)
    have hread : soleDocument.read ⟨"d.rs"⟩ = .ok "struct A\x7bb:u8\x7dimpl D\x7b\x7d" := by
      decide +kernel
    obtain rfl := Except.ok.inj (hread.symm.trans htext)
    have hthen : describedText .empty shortConventions (describeWith "D" ["a"]) soleDocument ["D"]
        ⟨"d.rs"⟩ "struct A\x7bb:u8\x7dimpl D\x7b\x7d" =
          "use a;\nstruct A\x7b#[schema(description = D::AB)] b:u8\x7dimpl D\x7b\x7d" := by
      decide +kernel
    rw [hthen]
    exact ⟨by decide +kernel, by decide +kernel, by decide +kernel⟩

/-- Descriptions that have no fault before a run declare behind it what the run calls for. -/
def Declares (session : Session) (c : Conventions) (r : DescribeRequest) (m : Memory) : Prop :=
  ∀ names report final d before text, r.trial = false →
    (annotateTypes session c r).run m = (.ok report, final) →
    subjectNames ⟨session, c.discovery⟩ r = .ok names →
    Document.single m.documents c.descriptionsDocument = .ok d →
    Document.single m.documents c.registryDocument ≠ .ok d →
    (∃ o : Outcome, o.isDone = true ∧
      ⟨c.descriptionsDocument, o⟩ ∈ report.entries.drop names.length) →
    (∀ e ∈ (calledFor session c m names).byName.entries,
      '\n' ∉ e.1.toList ∧ ∀ constant ∈ e.2.entries, Token.IsIdentifier constant.1) →
    m.read d = .ok before → File.WellFormed before → final.docs.read d = .ok text →
    ∀ name, Wanted session c m names name → name ∈ declared text c.descriptionsType

/-- The lines that declare one constant. -/
def declaring (region constant : String) : String :=
  String.ofList (regionBlock fourBlanks region [(constant, constant)]) ++ "\n"

/-- An import that is none ends in front of the place where the constants come to stand. -/
def openImport : DescribeRequest := describeWith "D" ["a; impl D \x7b x!(\x7d /*"]

/-- The constants part the mark that stood first from the lines that closed it. -/
def fencedDocument : Memory :=
  (Memory.empty.put ⟨"a.rs"⟩ "struct A\x7bb:u8\x7d").put ⟨"d.rs"⟩
    "#!/**/[a] impl D \x7b\x7d /*\n---\n*/"

def genericSession : Session :=
  .ofSnapshots [⟨"m", [], [⟨"x<u8>::A", "", .structured, none,
    [⟨"b", .named "u8"⟩, ⟨"c", .named "u8"⟩], [], [], []⟩]⟩]

/-- The name of the type of the outer list is read from a text that the inner list is part of. -/
def nestedDocument : Memory := Memory.empty.put ⟨"d.rs"⟩
  "impl [u8; \x7b impl D \x7b\x7d let _: x::D<u8>; 0 \x7d] \x7b pub const AB: u8 = 0; \x7d"

section

variable {session : Session} {c : Conventions} {r : DescribeRequest} {m : Memory}
  (names : List String) (report : Report) (d : Document) (before text name : String)

theorem not_declares (hr : r.trial = false)
    (hrun : ((annotateTypes session c r).run m).1 = .ok report ∧
      ((annotateTypes session c r).run m).2.docs.read d = .ok text)
    (hnames : subjectNames ⟨session, c.discovery⟩ r = .ok names)
    (hsingle : Document.single m.documents c.descriptionsDocument = .ok d)
    (hother : Document.single m.documents c.registryDocument ≠ .ok d)
    (hdone : ⟨c.descriptionsDocument, .written⟩ ∈ report.entries.drop names.length)
    (hregions : ∀ e ∈ (calledFor session c m names).byName.entries,
      '\n' ∉ e.1.toList ∧ ∀ constant ∈ e.2.entries, Token.IsIdentifier constant.1)
    (hbefore : m.read d = .ok before) (hw : File.WellFormed before)
    (hname : (calledFor session c m names).Holds name)
    (hlost : name ∉ declared text c.descriptionsType) : ¬Declares session c r m := fun h =>
  hlost (h names report _ d before text hr (Prod.ext hrun.1 rfl) hnames hsingle hother
    ⟨.written, rfl, hdone⟩ hregions hbefore hw hrun.2 name ((holds_calledFor ..).1 hname))

end

/-- Constants get lost behind an import that is none, in front of a line that closes nothing any
more, and where one list stands in the head of another. -/
theorem annotateTypes_not_declares :
    ¬Declares .empty shortConventions openImport soleDocument ∧
    ¬Declares .empty shortConventions (describeType "A" false) fencedDocument ∧
    ¬Declares genericSession shortConventions (describeType "x<u8>::A" false) nestedDocument := by
  refine ⟨?imported, ?fenced, ?nested⟩
  case imported =>
    exact not_declares ["D"] ⟨[⟨"D", .written⟩, ⟨"d.rs", .written⟩]⟩ ⟨"d.rs"⟩
      "struct A\x7bb:u8\x7dimpl D\x7b\x7d"
      ("use a; impl D \x7b x!(\n" ++ declaring "D" "AB" ++
        "\x7d /*;\nstruct A\x7b#[schema(description = D::AB)] b:u8\x7dimpl D\x7b\x7d")
      "AB" rfl (by decide +kernel) rfl (by decide +kernel) (by decide +kernel)
      (by decide +kernel) (by decide +kernel) (by decide +kernel) (by decide +kernel)
      ⟨"D", Table.empty.put "AB" "AB", by decide +kernel, by decide +kernel⟩
      (by decide +kernel)
  case fenced =>
    exact not_declares ["A"] ⟨[⟨"A", .written⟩, ⟨"d.rs", .written⟩]⟩ ⟨"d.rs"⟩
      "#!/**/[a] impl D \x7b\x7d /*\n---\n*/"
      ("#!/**/[a] impl D \x7b" ++ declaring "A" "AB" ++ "\x7d /*\n---\n*/")
      "AB" rfl (by decide +kernel) rfl (by decide +kernel) (by decide +kernel)
      (by decide +kernel) (by decide +kernel) (by decide +kernel) (by decide +kernel)
      ⟨"A", Table.empty.put "AB" "AB", by decide +kernel, by decide +kernel⟩
      (by decide +kernel)
  case nested =>
    exact not_declares ["x<u8>::A"]
      ⟨[⟨"x<u8>::A", .skipped "no matching document"⟩, ⟨"d.rs", .written⟩,
        ⟨"external_models.rs", .skipped "Document 'external_models.rs' not found"⟩]⟩
      ⟨"d.rs"⟩
      ("impl [u8; \x7b impl D \x7b" ++ "\x7d let _: x::D<u8>; 0 \x7d] " ++
        "\x7b pub const AB: u8 = 0; \x7d")
      ("impl [u8; \x7b impl D \x7b" ++ declaring "x<u8>::A" "AC" ++
        "\x7d let _: x::D<u8>; 0 \x7d] \x7b pub const AB: u8 = 0; \x7d")
      "AB" rfl (by decide +kernel) (by decide +kernel) (by decide +kernel) (by decide +kernel)
      (by decide +kernel) (by decide +kernel) (by decide +kernel) (by decide +kernel)
      ⟨"x<u8>::A", (Table.empty.put "AB" "AB").put "AC" "AC", by decide +kernel, by decide +kernel⟩
      (by decide +kernel)

end Run

end Docsmith
