import Docsmith.Proofs.Description.Gain
import Docsmith.Proofs.Run.Action
import Docsmith.Proofs.Workspace.Lawful
import Docsmith.Run.Annotations
import Mathlib.Data.List.Nodup

/-!
# What annotation runs try

A run tries a list of changes, each of one document: it annotates every document that is the only
place for some type, then declares constants in one document and registers types in another. The
list is told by the documents at the start. A trial shows what each change makes of its document as
it was at the start; a run that writes makes them in turn.

* `attempts`: the changes, up to the first whose document cannot be read at all;
* `Stands`: where a run stands when it has made some of them;
* `annotateTypes_stands`: a run makes them all, be it a trial or not.
-/

namespace Docsmith.Run

open Docsmith.Description Docsmith.Discovery Docsmith.Metadata Docsmith.Naming Docsmith.Source

/-! ## Attempts -/

/-- A change of a document, with what it makes of a text if it changes it. -/
structure Attempt where
  document : Document
  change : String → Option String

/-- What a revision has made of its text if that is something else. -/
def effect? : Except Error Revision → Option String
  | .ok r => if r.differs then some r.after else none
  | .error _ => none

/-- Describing the fields and parameters in a document. -/
def describing (c : Conventions) (r : DescribeRequest) (d : Document) : Attempt :=
  ⟨d, fun text =>
    let revision := (annotate (c.annotator d.holdsController) text).revision
    if revision.differs then some (addImports revision.after r.imports).after else none⟩

/-- Changing the only document of a name if there is cause to. -/
def namedAttempts (cause : Bool) (documents : List Document) (name : String)
    (change : String → Except Error Revision) : List Attempt :=
  if cause then
    match Document.single documents name with
    | .ok d => [⟨d, fun text => effect? (change text)⟩]
    | .error _ => []
  else []

variable {σ : Type} [DocumentStore σ]

/-- The constants of new attributes, added to those of types without a document. -/
def foundConstants (c : Conventions) (docs : σ) (recorded : Regions) (ss : List Subject) :
    Regions :=
  ss.foldl (fun regions s =>
    match DocumentStore.read docs s.document with
    | .ok text =>
      let constants := (annotate (c.annotator s.document.holdsController) text).constants
      if constants.isEmpty then regions
      else regions.record (shortName (s.shown.headD "")) constants
    | .error _ => regions) recorded

/-- The changes for some types. -/
def attemptsFor (session : Session) (c : Conventions) (r : DescribeRequest) (docs : σ)
    (names : List String) : List Attempt :=
  let catalog : Catalog := ⟨session, c.discovery⟩
  let documents := DocumentStore.documents docs
  let plans := names.map (plan catalog documents)
  let outside := externals catalog plans
  let recorded := outside.foldl (fun regions e => regions.record e.1.shown e.2) Regions.empty
  let regions := foundConstants c docs recorded (subjects plans)
  (subjects plans).map (fun s => describing c r s.document) ++
    (namedAttempts (!regions.isEmpty) documents c.descriptionsDocument
        (fun text => regions.declareIn text c.descriptionsType) ++
      namedAttempts (!outside.isEmpty) documents c.registryDocument
        (fun text => registerTypes text c.registryVariable
          (outside.map fun e => rootedPath e.1.name session.target)))

/-- An error that does not concern this document only keeps it from being read. -/
def endsRun (docs : σ) (a : Attempt) : Bool :=
  match DocumentStore.read docs a.document with
  | .ok _ => false
  | .error e => !e.isInput

/-- The attempts in front of the first that ends the run. -/
def untilEnd (docs : σ) (as : List Attempt) : List Attempt :=
  as.takeWhile fun a => !endsRun docs a

/-- The changes a run tries. -/
def attempts (session : Session) (c : Conventions) (r : DescribeRequest) (docs : σ) :
    List Attempt :=
  match subjectNames ⟨session, c.discovery⟩ r with
  | .ok names => untilEnd docs (attemptsFor session c r docs names)
  | .error _ => []

/-! ## What attempts make of a text -/

/-- What attempts make of a document in turn. -/
def inTurn (as : List Attempt) (d : Document) (text : String) : String :=
  as.foldl (fun text a => if a.document = d then (a.change text).getD text else text) text

/-- The documents that attempts change, each as its attempt alone makes it. -/
def madeAlone (docs : σ) (as : List Attempt) : List (Document × String) :=
  as.filterMap fun a =>
    ((DocumentStore.read docs a.document).toOption.bind a.change).map (a.document, ·)

theorem inTurn_append (as : List Attempt) (a : Attempt) (d : Document) (text : String) :
    inTurn (as ++ [a]) d text =
      if a.document = d then (a.change (inTurn as d text)).getD (inTurn as d text)
      else inTurn as d text := by
  rw [inTurn, List.foldl_append]
  rfl

theorem inTurn_of_ne {as : List Attempt} {d : Document} (h : ∀ a ∈ as, a.document ≠ d)
    (text : String) : inTurn as d text = text := by
  induction as generalizing text with
  | nil => rfl
  | cons a as ih =>
    rw [inTurn, List.foldl_cons, if_neg (h a (List.mem_cons_self ..))]
    exact ih (fun b hb => h b (List.mem_cons_of_mem _ hb)) text

theorem madeAlone_append (docs : σ) (as : List Attempt) (a : Attempt) :
    madeAlone docs (as ++ [a]) = madeAlone docs as ++
      (((DocumentStore.read docs a.document).toOption.bind a.change).map
        (a.document, ·)).toList := by
  rw [madeAlone, List.filterMap_append, madeAlone, List.filterMap_cons, List.filterMap_nil]
  cases ((DocumentStore.read docs a.document).toOption.bind a.change).map (a.document, ·) <;> rfl

/-- The constants found when one more document is annotated. -/
theorem foundConstants_cons (c : Conventions) (docs : σ) (recorded : Regions) (s : Subject)
    (ss : List Subject) : foundConstants c docs recorded (s :: ss) =
      foundConstants c docs (foundConstants c docs recorded [s]) ss := rfl

/-! ## Attempts that are made -/

variable {docs : σ} {as : List Attempt}

theorem untilEnd_of_forall (h : ∀ a ∈ as, endsRun docs a = false) : untilEnd docs as = as :=
  List.takeWhile_eq_self_iff.2 fun a ha => by rw [h a ha]; rfl

theorem untilEnd_append_of_forall (bs : List Attempt) (h : ∀ a ∈ as, endsRun docs a = false) :
    untilEnd docs (as ++ bs) = as ++ untilEnd docs bs := by
  rw [untilEnd, List.takeWhile_append_of_pos fun a ha => by rw [h a ha]; rfl]
  rfl

theorem untilEnd_append_of_exists (bs : List Attempt) (h : ∃ a ∈ as, endsRun docs a = true) :
    untilEnd docs (as ++ bs) = untilEnd docs as := by
  obtain ⟨a, ha, he⟩ := h
  induction as with
  | nil => simp at ha
  | cons b as ih =>
    rw [untilEnd, untilEnd, List.cons_append, List.takeWhile_cons, List.takeWhile_cons]
    rcases List.mem_cons.1 ha with rfl | ha
    · simp [he]
    · rw [show (as ++ bs).takeWhile (fun a => !endsRun docs a) = _ from ih ha]
      rfl

/-! ## Where runs stand -/

variable [LawfulStore σ]

/-- Where a run stands when it has made some attempts: a trial has shown documents, another run has
changed them. -/
inductive Stands (docs : σ) (as : List Attempt) : Bool → Progress σ → Prop
  | trial : Stands docs as true
      ⟨docs, (madeAlone docs as).flatMap fun m => framed m.1.path m.2⟩
  | real {now : σ} : DocumentStore.documents now = DocumentStore.documents docs →
      (∀ d, LawfulStore.place now d = LawfulStore.place docs d) →
      (∀ d ∈ DocumentStore.documents docs,
        DocumentStore.read now d = (DocumentStore.read docs d).map (inTurn as d)) →
      Stands docs as false ⟨now, []⟩

/-- The text in which a run finds a document after some attempts. -/
def textThen (trial : Bool) (as : List Attempt) (d : Document) (text : String) : String :=
  if trial then text else inTurn as d text

variable {trial : Bool} {bs : List Attempt} {a : Attempt} {p : Progress σ} {d : Document}
  {text new : String}

theorem Stands.start (docs : σ) (trial : Bool) : Stands docs [] trial ⟨docs, []⟩ := by
  cases trial with
  | true => exact .trial
  | false =>
    refine .real rfl (fun _ => rfl) fun d _ => ?_
    cases DocumentStore.read docs d <;> rfl

theorem Stands.documents (h : Stands docs as trial p) :
    DocumentStore.documents p.docs = DocumentStore.documents docs := by
  cases h with
  | trial => rfl
  | real hd => exact hd

theorem Stands.read (h : Stands docs as trial p) (hd : d ∈ DocumentStore.documents docs) :
    DocumentStore.read p.docs d = (DocumentStore.read docs d).map (textThen trial as d) := by
  cases h with
  | trial => cases DocumentStore.read docs d <;> rfl
  | real _ _ hr => exact hr d hd

/-- An attempt that changes nothing. -/
theorem Stands.pass (h : Stands docs as trial p)
    (hc : ∀ text, DocumentStore.read docs a.document = .ok text →
      a.change (textThen trial as a.document text) = none) : Stands docs (as ++ [a]) trial p := by
  cases h with
  | trial =>
    have hn : (DocumentStore.read docs a.document).toOption.bind a.change = none := by
      cases hr : DocumentStore.read docs a.document with
      | error e => rfl
      | ok text => exact hc text hr
    have hm := madeAlone_append docs as a
    rw [hn, Option.map_none, Option.toList_none, List.append_nil] at hm
    rw [← hm]
    exact .trial
  | real hdocs hplace hread =>
    refine .real hdocs hplace fun d hd => ?_
    rw [hread d hd]
    cases hr : DocumentStore.read docs d with
    | error e => rfl
    | ok text =>
      refine congrArg Except.ok ?_
      rw [inTurn_append]
      split
      · rename_i hda
        subst hda
        have hn : a.change (inTurn as a.document text) = none := hc text hr
        rw [hn]
        rfl
      · rfl

/-- An attempt that changes its document. -/
theorem Stands.emit (hs : Separate docs) (h : Stands docs as trial p)
    (hd : a.document ∈ DocumentStore.documents docs)
    (hr : DocumentStore.read docs a.document = .ok text)
    (hc : a.change (textThen trial as a.document text) = some new) :
    ∃ o p', Action.emit trial a.document new p = .ok o p' ∧ Stands docs (as ++ [a]) trial p' := by
  cases h with
  | trial =>
    refine ⟨.printed, _, rfl, ?_⟩
    have hn : (DocumentStore.read docs a.document).toOption.bind a.change = some new := by
      rw [hr]
      exact hc
    have hm := madeAlone_append docs as a
    rw [hn, Option.map_some, Option.toList_some] at hm
    have hl : (madeAlone docs (as ++ [a])).flatMap (fun m => framed m.1.path m.2) =
        (madeAlone docs as).flatMap (fun m => framed m.1.path m.2) ++
          framed a.document.path new := by
      rw [hm, List.flatMap_append, List.flatMap_singleton]
    rw [← hl]
    exact .trial
  | real hdocs hplace hread =>
    have hnow := hread _ hd
    rw [hr] at hnow
    obtain ⟨now', hw, hdocs', hplace', hread'⟩ := LawfulStore.write_of_read new hnow
    refine ⟨.written, ⟨now', []⟩, Action.emit_of_ok hw, ?_⟩
    refine .real (hdocs'.trans hdocs) (fun e => (hplace' e).trans (hplace e)) fun e he => ?_
    rw [hread' e, hplace, hplace]
    by_cases hp : LawfulStore.place docs e = LawfulStore.place docs a.document
    · obtain rfl := hs a.document hd e he text hr hp
      rw [if_pos rfl, hr]
      refine congrArg Except.ok ?_
      have hc : a.change (inTurn as a.document text) = some new := hc
      rw [inTurn_append, if_pos rfl, hc]
      rfl
    · have hne : a.document ≠ e := fun h => hp (h ▸ rfl)
      rw [if_neg hp, hread e he]
      cases DocumentStore.read docs e with
      | error _ => rfl
      | ok text =>
        refine congrArg Except.ok ?_
        rw [inTurn_append, if_neg hne]

/-! ## Actions that make attempts -/

/-- What an action makes of some attempts, after others: it makes them all, or ends the run at the
first that must end it. -/
inductive Tries (docs : σ) (trial : Bool) (as bs : List Attempt) {α : Type} (Q : α → Prop) :
    EStateM.Result Error (Progress σ) α → Prop
  | all {x : α} {p : Progress σ} : Q x → (∀ b ∈ bs, endsRun docs b = false) →
      Stands docs (as ++ bs) trial p → Tries docs trial as bs Q (.ok x p)
  | some {e : Error} {p : Progress σ} : (∃ b ∈ bs, endsRun docs b = true) →
      Stands docs (as ++ untilEnd docs bs) trial p → Tries docs trial as bs Q (.error e p)

variable {α β : Type} {Q : α → Prop} {R : β → Prop} {cs : List Attempt}

theorem Tries.pure {x : α} (h : Stands docs as trial p) (hx : Q x) :
    Tries docs trial as [] Q ((pure x : Action σ α) p) :=
  .all hx (by simp) (by rwa [List.append_nil])

theorem Tries.bind {x : Action σ α} {f : α → Action σ β} (hx : Tries docs trial as bs Q (x p))
    (hf : ∀ y q, Q y → Stands docs (as ++ bs) trial q →
      Tries docs trial (as ++ bs) cs R (f y q)) :
    Tries docs trial as (bs ++ cs) R ((x >>= f) p) := by
  rw [Action.bind_eq]
  generalize x p = result at hx
  cases hx with
  | @all y q hy hb hq =>
    dsimp only
    have hfy := hf y q hy hq
    generalize f y q = result at hfy
    cases hfy with
    | all hz hc hr =>
      refine .all hz (fun a ha => ?_) (by rwa [← List.append_assoc])
      rcases List.mem_append.1 ha with ha | ha
      · exact hb a ha
      · exact hc a ha
    | some hc hr =>
      obtain ⟨a, ha, he⟩ := hc
      refine .some ⟨a, List.mem_append_right _ ha, he⟩ ?_
      rwa [untilEnd_append_of_forall cs hb, ← List.append_assoc]
  | some hb hq =>
    dsimp only
    obtain ⟨a, ha, he⟩ := hb
    refine .some ⟨a, List.mem_append_left _ ha, he⟩ ?_
    rwa [untilEnd_append_of_exists cs ⟨a, ha, he⟩]

/-- A document that cannot be read ends the run, or the attempt is left out. -/
theorem Tries.unread {e : Error} (h : Stands docs as trial p)
    (hr : DocumentStore.read docs a.document = .error e) :
    (e.isInput = true ∧ endsRun docs a = false ∧ Stands docs (as ++ [a]) trial p) ∨
      (e.isInput = false ∧ endsRun docs a = true ∧ untilEnd docs [a] = []) := by
  have hends : endsRun docs a = !e.isInput := by rw [endsRun, hr]
  cases he : e.isInput with
  | true =>
    rw [he] at hends
    refine .inl ⟨rfl, hends, h.pass fun text ht => ?_⟩
    rw [hr] at ht
    cases ht
  | false =>
    rw [he] at hends
    refine .inr ⟨rfl, hends, ?_⟩
    rw [untilEnd, List.takeWhile_cons, hends]
    rfl

/-! ## Documents of their own -/

section

variable {c : Conventions} {r : DescribeRequest} {s : Subject} {ss : List Subject}
  {done : Annotating}

/-- Reading a document whose text is as it was at the start. -/
theorem Stands.readDocument_of_new (h : Stands docs as trial p)
    (hd : d ∈ DocumentStore.documents docs) (hnew : ∀ a ∈ as, a.document ≠ d)
    (hr : DocumentStore.read docs d = .ok text) : Action.readDocument d p = .ok text p := by
  refine Action.readDocument_of_ok ?_
  rw [h.read hd, hr]
  refine congrArg Except.ok ?_
  rw [textThen, inTurn_of_ne hnew, ite_self]

theorem describeDocument_stands (hs : Separate docs) (h : Stands docs as r.trial p)
    (hd : d ∈ DocumentStore.documents docs) (hnew : ∀ a ∈ as, a.document ≠ d)
    (hr : DocumentStore.read docs d = .ok text) :
    ∃ o p', describeDocument c r d p =
      .ok (o, (annotate (c.annotator d.holdsController) text).constants) p' ∧
        Stands docs (as ++ [describing c r d]) r.trial p' := by
  have hread := h.readDocument_of_new hd hnew hr
  have hthen : textThen r.trial as d text = text := by
    rw [textThen, inTurn_of_ne hnew, ite_self]
  rw [describeDocument, Action.bind_eq, hread]
  dsimp only
  by_cases hc : (annotate (c.annotator d.holdsController) text).revision.differs = true
  · rw [if_pos hc]
    have hchange : (describing c r d).change (textThen r.trial as d text) =
        some (addImports (annotate (c.annotator d.holdsController) text).revision.after
          r.imports).after := by
      rw [hthen]
      exact if_pos hc
    obtain ⟨o, p', he, hp⟩ := h.emit hs hd hr hchange
    refine ⟨o, p', ?_, hp⟩
    rw [Action.bind_eq, show Action.emit r.trial d _ p = _ from he]
    rfl
  · rw [if_neg hc]
    refine ⟨.unchanged, p, rfl, h.pass fun text' ht => ?_⟩
    obtain rfl : text = text' := Except.ok.inj (hr.symm.trans ht)
    change (describing c r d).change (textThen r.trial as d text) = none
    rw [hthen]
    exact if_neg hc

theorem annotateSubject_tries (hs : Separate docs) (h : Stands docs as r.trial p)
    (hd : s.document ∈ DocumentStore.documents docs) (hnew : ∀ a ∈ as, a.document ≠ s.document) :
    Tries docs r.trial as [describing c r s.document]
      (fun done' => done'.constants = foundConstants c docs done.constants [s])
      (annotateSubject c r done s p) := by
  cases hr : DocumentStore.read docs s.document with
  | ok text =>
    obtain ⟨o, p', hdesc, hp⟩ := describeDocument_stands (c := c) (r := r) hs h hd hnew hr
    rw [annotateSubject, hdesc]
    refine .all ?_ (fun b hb => ?_) hp
    · rw [foundConstants, List.foldl_cons, List.foldl_nil, hr]
    · rw [List.mem_singleton.1 hb, endsRun, describing, hr]
  | error e =>
    have hread : Action.readDocument s.document p = .error e p := by
      refine Action.readDocument_of_error ?_
      rw [h.read hd, hr]
      rfl
    have hdesc : describeDocument c r s.document p = .error e p := by
      rw [describeDocument, Action.bind_eq, hread]
    rw [annotateSubject, hdesc]
    dsimp only
    rcases Tries.unread (a := describing c r s.document) h hr with
      ⟨he, hends, hp⟩ | ⟨he, hends, huntil⟩
    · rw [if_pos he]
      refine .all ?_ (fun b hb => ?_) hp
      · rw [foundConstants, List.foldl_cons, List.foldl_nil, hr]
      · rw [List.mem_singleton.1 hb, hends]
    · rw [if_neg (by rw [he]; exact Bool.false_ne_true)]
      refine .some ⟨_, List.mem_singleton_self _, hends⟩ ?_
      rwa [huntil, List.append_nil]

/-- Annotating documents, none of them twice. -/
theorem annotateAll_tries (hs : Separate docs) (h : Stands docs as r.trial p)
    (hd : ∀ s ∈ ss, s.document ∈ DocumentStore.documents docs)
    (hn : (ss.map (·.document)).Nodup) (hnew : ∀ s ∈ ss, ∀ a ∈ as, a.document ≠ s.document) :
    Tries docs r.trial as (ss.map fun s => describing c r s.document)
      (fun done' => done'.constants = foundConstants c docs done.constants ss)
      (annotateAll c r ss done p) := by
  induction ss generalizing as done p with
  | nil => exact .pure h rfl
  | cons s ss ih =>
    obtain ⟨hds, hdss⟩ := List.forall_mem_cons.1 hd
    obtain ⟨hns, hnss⟩ := List.forall_mem_cons.1 hnew
    rw [List.map_cons, List.nodup_cons] at hn
    rw [annotateAll, List.map_cons, ← List.singleton_append]
    refine .bind (annotateSubject_tries hs h hds hns) fun done' q hdone hq => ?_
    rw [foundConstants_cons, ← hdone]
    refine ih hq hdss hn.2 fun s' hs' a ha => ?_
    rcases List.mem_append.1 ha with ha | ha
    · exact hnss s' hs' a ha
    · rw [List.mem_singleton.1 ha]
      exact fun he => hn.1 (List.mem_map.2 ⟨s', hs', he.symm⟩)

end

/-! ## Documents known by their names -/

theorem mem_of_single {documents : List Document} {name : String}
    (h : Document.single documents name = .ok d) : d ∈ documents := by
  rw [Document.single] at h
  split at h
  · cases h
  · rename_i d' hf
    obtain rfl := Except.ok.inj h
    exact (List.mem_filter.1 (hf ▸ List.mem_singleton_self d')).1
  · cases h

theorem isInput_of_single {documents : List Document} {name : String} {e : Error}
    (h : Document.single documents name = .error e) : e.isInput = true := by
  rw [Document.single] at h
  split at h
  · cases h
    rfl
  · cases h
  · cases h
    rfl

/-- A change fails for the text it is made of. -/
def Local (change : String → Except Error Revision) : Prop :=
  ∀ text e, change text = .error e → e.isInput = true

theorem updateNamed_tries {documents : List Document} {name : String}
    {change : String → Except Error Revision} (hs : Separate docs) (h : Stands docs as trial p)
    (hdocs : documents = DocumentStore.documents docs) (hlocal : Local change) :
    Tries docs trial as (namedAttempts true documents name change) (fun _ => True)
      (Action.skipInput (updateNamed trial documents name change) p) := by
  cases hd : Document.single documents name with
  | error e =>
    rw [show namedAttempts true documents name change = [] by
      rw [namedAttempts, if_pos rfl, hd]]
    have hw : updateNamed trial documents name change p = .error e p := by
      rw [updateNamed, hd]
      rfl
    rw [Action.skipInput_of_error hw, if_pos (isInput_of_single hd)]
    exact .pure h trivial
  | ok d =>
    have hmem : d ∈ DocumentStore.documents docs := hdocs ▸ mem_of_single hd
    let a : Attempt := ⟨d, fun text => effect? (change text)⟩
    rw [show namedAttempts true documents name change = [a] by
      rw [namedAttempts, if_pos rfl, hd]]
    have hread := h.read hmem
    have hw : updateNamed trial documents name change p =
        (Action.readDocument d >>= fun text => Action.ofExcept (change text) >>= fun revision =>
          if revision.differs then Action.emit trial d revision.after else pure .unchanged) p := by
      rw [updateNamed, hd]
      rfl
    cases hr : DocumentStore.read docs d with
    | error e =>
      rw [hr] at hread
      rw [Action.bind_eq, Action.readDocument_of_error hread] at hw
      rw [Action.skipInput_of_error hw]
      rcases Tries.unread (a := a) h hr with ⟨he, hends, hp⟩ | ⟨he, hends, huntil⟩
      · rw [if_pos he]
        exact .all trivial (fun b hb => by rw [List.mem_singleton.1 hb]; exact hends) hp
      · rw [if_neg (by rw [he]; exact Bool.false_ne_true)]
        refine .some ⟨a, List.mem_singleton_self _, hends⟩ ?_
        rwa [huntil, List.append_nil]
    | ok text =>
      have hends : ∀ b ∈ [a], endsRun docs b = false := fun b hb => by
        rw [List.mem_singleton.1 hb, endsRun, hr]
      rw [hr] at hread
      rw [Action.bind_eq, Action.readDocument_of_ok hread] at hw
      dsimp only at hw
      have hpass (hn : effect? (change (textThen trial as d text)) = none) :
          Stands docs (as ++ [a]) trial p := h.pass fun text' ht => by
        obtain rfl : text = text' := Except.ok.inj (hr.symm.trans ht)
        exact hn
      cases hc : change (textThen trial as d text) with
      | error e =>
        rw [hc] at hw
        rw [Action.skipInput_of_error (e := e) hw, if_pos (hlocal _ e hc)]
        exact .all trivial hends (hpass (by rw [hc]; rfl))
      | ok revision =>
        rw [hc] at hw
        by_cases hdiff : revision.differs = true
        · have heffect : a.change (textThen trial as a.document text) = some revision.after := by
            change effect? (change (textThen trial as d text)) = _
            rw [hc]
            exact if_pos hdiff
          obtain ⟨o, p', he, hp⟩ := h.emit hs hmem hr heffect
          have hw' : updateNamed trial documents name change p = .ok o p' := by
            refine hw.trans (Eq.trans ?_ he)
            change (if revision.differs = true then _ else _ : Action σ Outcome) p = _
            rw [if_pos hdiff]
          rw [Action.skipInput_of_ok hw']
          exact .all trivial hends hp
        · have hw' : updateNamed trial documents name change p = .ok .unchanged p := by
            refine hw.trans ?_
            change (if revision.differs = true then _ else _ : Action σ Outcome) p = _
            rw [if_neg hdiff]
            rfl
          rw [Action.skipInput_of_ok hw']
          exact .all trivial hends (hpass (by rw [hc]; exact if_neg hdiff))

theorem reportUpdate_tries {cause : Bool} {documents : List Document} {name : String}
    {change : String → Except Error Revision} {report : Report} (hs : Separate docs)
    (h : Stands docs as trial p) (hdocs : documents = DocumentStore.documents docs)
    (hlocal : Local change) :
    Tries docs trial as (namedAttempts cause documents name change) (fun _ => True)
      (reportUpdate cause trial documents name change report p) := by
  cases cause with
  | false => exact .pure h trivial
  | true =>
    rw [reportUpdate, if_pos rfl, ← List.append_nil (namedAttempts ..)]
    exact .bind (updateNamed_tries hs h hdocs hlocal) fun o q _ hq => .pure hq trivial

theorem local_registerTypes (binding : String) (types : List String) :
    Local fun text => registerTypes text binding types := by
  intro text e h
  rcases registerTypes_eq_error h with rfl | rfl <;> rfl

theorem isInput_of_declareConstants {source typeName region : String}
    {constants : Table String String} {e : Error}
    (h : declareConstants source typeName region constants = .error e) : e.isInput = true := by
  unfold declareConstants at h
  dsimp only at h
  split at h
  · nomatch h
  · split at h
    · split at h
      · nomatch h
      · obtain rfl := Except.error.inj h
        rfl
    · obtain rfl := Except.error.inj h
      rfl

theorem local_declareIn (regions : Regions) (typeName : String) :
    Local fun text => regions.declareIn text typeName := by
  intro text e h
  dsimp only at h
  rw [Regions.declareIn] at h
  generalize regions.byName.entries.filter _ = entries at h
  generalize Revision.unchanged text = done at h
  induction entries generalizing done with
  | nil => nomatch h
  | cons entry rest ih =>
    obtain ⟨region, constants⟩ := entry
    rw [Regions.declareEach] at h
    cases hs : declareConstants done.after typeName region constants with
    | error e' =>
      rw [hs] at h
      obtain rfl := Except.error.inj h
      exact isInput_of_declareConstants hs
    | ok step =>
      rw [hs] at h
      exact ih _ h

/-! ## Whole runs -/

theorem mem_of_mem_matching {documents : List Document} {typeName : String}
    (h : d ∈ Document.matching documents typeName) : d ∈ documents := by
  rw [Document.matching] at h
  dsimp only at h
  split at h
  · simp at h
  · split at h
    · exact (List.mem_filter.1 (List.mem_filter.1 h).1).1
    · exact (List.mem_filter.1 (List.mem_filter.1 h).1).1

theorem mem_of_target {documents : List Document} {typeName : String}
    (h : Target.ofMatches (Document.matching documents typeName) = .sole d) : d ∈ documents := by
  generalize hm : Document.matching documents typeName = ds at h
  match ds with
  | [] => cases h
  | [e] =>
    obtain rfl := Target.sole.inj h
    exact mem_of_mem_matching (hm ▸ List.mem_singleton_self e)
  | _ :: _ :: _ => cases h

theorem mem_putEntry {κ β : Type} [DecidableEq κ] {k : κ} {b : β} {es : List (κ × β)}
    {e : κ × β} (h : e ∈ Table.putEntry k b es) : e ∈ es ∨ e = (k, b) := by
  induction es with
  | nil => exact .inr (List.mem_singleton.1 h)
  | cons e' es ih =>
    obtain ⟨k', b'⟩ := e'
    rw [Table.putEntry] at h
    split at h
    · rename_i hk
      subst hk
      rcases List.mem_cons.1 h with h | h
      · exact .inr h
      · exact .inl (List.mem_cons_of_mem _ h)
    · rcases List.mem_cons.1 h with h | h
      · exact .inl (h ▸ List.mem_cons_self ..)
      · exact (ih h).imp_left (List.mem_cons_of_mem _)

/-- A subject is kept under the key of its document, which is one of those there are. -/
def Kept (documents : List Document) (t : Table (List String) Subject) : Prop :=
  ∀ e ∈ t.entries, e.1 = e.2.document.key ∧ e.2.document ∈ documents

theorem Kept.addSubject {documents : List Document} {t : Table (List String) Subject}
    (h : Kept documents t) (hd : d ∈ documents) (shown : String) :
    Kept documents (addSubject d shown t) := by
  intro e he
  rcases mem_putEntry he with he | rfl
  · exact h e he
  · dsimp only
    cases hf : t.find? d.key with
    | none => exact ⟨rfl, hd⟩
    | some s =>
      rw [Table.find?, Option.map_eq_some_iff] at hf
      obtain ⟨e, hfe, rfl⟩ := hf
      obtain ⟨hkey, hmem⟩ := h e (List.mem_of_find?_eq_some hfe)
      have hk : e.1 = d.key := by simpa using List.find?_some hfe
      exact ⟨hk.symm.trans hkey, hmem⟩

/-- One step of gathering types by their documents. -/
def gather (t : Table (List String) Subject) (p : Planned) : Table (List String) Subject :=
  match p.target with
  | .sole d => addSubject d p.shown t
  | _ => t

theorem subjects_eq (plans : List Planned) :
    subjects plans = (plans.foldl gather .empty).values := rfl

/-- Every type that has one document only has it among some. -/
def TargetsIn (documents : List Document) (plans : List Planned) : Prop :=
  ∀ p ∈ plans, ∀ d, p.target = .sole d → d ∈ documents

theorem targetsIn_plans (catalog : Catalog) (documents : List Document) (names : List String) :
    TargetsIn documents (names.map (plan catalog documents)) := by
  intro p hp d hd
  obtain ⟨name, -, rfl⟩ := List.mem_map.1 hp
  exact mem_of_target hd

theorem kept_gather {documents : List Document} {plans : List Planned}
    (hp : TargetsIn documents plans) : Kept documents (plans.foldl gather .empty) := by
  refine List.foldlRecOn _ _ (fun _ he => nomatch he) fun t ht p hmem => ?_
  rw [gather]
  split
  · rename_i d hd
    exact ht.addSubject (hp p hmem d hd) _
  · exact ht

/-- The documents of subjects are among those there are, and no two are the same. -/
theorem documents_subjects {documents : List Document} {plans : List Planned}
    (hp : TargetsIn documents plans) :
    (∀ s ∈ subjects plans, s.document ∈ documents) ∧
      ((subjects plans).map (·.document)).Nodup := by
  have h := kept_gather hp
  rw [subjects_eq]
  generalize plans.foldl gather .empty = t at h
  refine ⟨fun s hs => ?_, ?_⟩
  · obtain ⟨e, he, rfl⟩ := List.mem_map.1 hs
    exact (h e he).2
  · have hkeys : t.entries.map (·.1) = (t.values.map (·.document)).map Document.key := by
      rw [Table.values, List.map_map, List.map_map]
      exact List.map_congr_left fun e he => (h e he).1
    have hn := t.nodup
    rw [hkeys] at hn
    exact List.Nodup.of_map _ hn

/-- A run makes its attempts, whether it shows what they make or writes it. -/
theorem annotateTypes_stands (session : Session) (c : Conventions) (r : DescribeRequest)
    (docs : σ) (hs : Separate docs) :
    Stands docs (attempts session c r docs) r.trial
      ((annotateTypes session c r).run docs).2 := by
  rw [attempts]
  cases hn : subjectNames ⟨session, c.discovery⟩ r with
  | error e =>
    have h : annotateTypes session c r ⟨docs, []⟩ = .error e ⟨docs, []⟩ := by
      rw [annotateTypes, hn]
      rfl
    rw [Action.run, h]
    exact .start docs r.trial
  | ok names =>
    dsimp only
    let catalog : Catalog := ⟨session, c.discovery⟩
    let documents := DocumentStore.documents docs
    let plans := names.map (plan catalog documents)
    let outside := externals catalog plans
    let recorded := outside.foldl (fun regions e => regions.record e.1.shown e.2) Regions.empty
    obtain ⟨hmem, hnodup⟩ := documents_subjects (targetsIn_plans catalog documents names)
    have htries : Tries docs r.trial [] (attemptsFor session c r docs names) (fun _ => True)
        (annotateTypes session c r ⟨docs, []⟩) := by
      have hsteps : annotateTypes session c r ⟨docs, []⟩ =
          (annotateAll c r (subjects plans) ⟨.empty, recorded⟩ >>= fun done =>
            reportUpdate (!done.constants.isEmpty) r.trial documents c.descriptionsDocument
              (fun text => done.constants.declareIn text c.descriptionsType)
              ⟨plans.map fun p => ⟨p.shown, outcomeOf done p⟩⟩ >>=
            reportUpdate (!outside.isEmpty) r.trial documents c.registryDocument
              (fun text => registerTypes text c.registryVariable
                (outside.map fun e => rootedPath e.1.name session.target)))
            (⟨docs, []⟩ : Progress σ) := by
        rw [annotateTypes, hn]
        rfl
      rw [hsteps, attemptsFor]
      refine .bind (annotateAll_tries hs (.start docs r.trial) hmem hnodup (by simp))
        fun done q hdone hq => ?_
      dsimp only at hdone
      rw [hdone]
      refine .bind (reportUpdate_tries hs hq rfl (local_declareIn _ _)) fun report q' _ hq' => ?_
      exact reportUpdate_tries hs hq' rfl (local_registerTypes _ _)
    rw [Action.run]
    generalize annotateTypes session c r ⟨docs, []⟩ = result at htries
    cases htries with
    | all _ hends hp =>
      rw [untilEnd_of_forall hends]
      exact hp
    | some _ hp => exact hp

end Docsmith.Run
