import Docsmith.Proofs.Run.Annotations

/-!
# What reports tell

A run that writes reports one piece of work after the other: the types it is about, then the
document of the descriptions, then that of the registry. A document can have several of these roles
and be written more than once. Every change adds to its text, so no change takes back another, and
the documents that differ afterwards are those that some piece of work has written.

* `Wrote`: what a set of documents has become when some of its documents were written;
* `subjects_spec`: the types whose only document a subject has are those it is annotated for;
* `annotateTypes_reports`: a document differs if and only if a piece of work on it is reported as
  written.
-/

namespace Docsmith.Run

open Docsmith.Description Docsmith.Discovery Docsmith.Metadata Docsmith.Naming Docsmith.Source

/-! ## Documents that were written -/

section

variable {σ : Type} [DocumentStore σ] [LawfulStore σ]

/-- A set of documents in which some have been written: these have more text than before, all others
are as they were. -/
structure Wrote (docs : σ) (written : List Document) (now : σ) : Prop where
  documents : DocumentStore.documents now = DocumentStore.documents docs
  place : ∀ d, LawfulStore.place now d = LawfulStore.place docs d
  more : ∀ d ∈ DocumentStore.documents docs, d ∈ written →
    ∃ old new, DocumentStore.read docs d = .ok old ∧ DocumentStore.read now d = .ok new ∧
      weight old.toList < weight new.toList
  same : ∀ d ∈ DocumentStore.documents docs, d ∉ written →
    DocumentStore.read now d = DocumentStore.read docs d

variable {docs now : σ} {written : List Document} {d : Document} {text new : String}
  {p : Progress σ}

theorem Wrote.refl (docs : σ) : Wrote docs [] docs :=
  ⟨rfl, fun _ => rfl, fun _ _ h => absurd h List.not_mem_nil, fun _ _ _ => rfl⟩

/-- The documents that were written are those whose texts differ. -/
theorem Wrote.read_ne_iff (h : Wrote docs written now) (hd : d ∈ DocumentStore.documents docs) :
    DocumentStore.read now d ≠ DocumentStore.read docs d ↔ d ∈ written := by
  refine ⟨fun hne => Decidable.not_not.1 fun hw => hne (h.same d hd hw), fun hw he => ?_⟩
  obtain ⟨old, new, hold, hnew, hlt⟩ := h.more d hd hw
  rw [hold, hnew] at he
  rw [Except.ok.inj he] at hlt
  omega

/-- A document whose text has grown is written. -/
theorem Wrote.emit (hs : Separate docs) (h : Wrote docs written p.docs)
    (hd : d ∈ DocumentStore.documents docs) (hr : DocumentStore.read p.docs d = .ok text)
    (hlt : weight text.toList < weight new.toList) :
    ∃ q, Action.emit false d new p = .ok .written q ∧ Wrote docs (written ++ [d]) q.docs := by
  obtain ⟨now, hw, hdocs, hplace, hread⟩ := LawfulStore.write_of_read new hr
  have hstart : ∃ old, DocumentStore.read docs d = .ok old ∧
      weight old.toList ≤ weight text.toList := by
    by_cases hdw : d ∈ written
    · obtain ⟨old, text', hold, htext, hlt'⟩ := h.more d hd hdw
      rw [hr] at htext
      exact ⟨old, hold, by rw [Except.ok.inj htext]; omega⟩
    · exact ⟨text, (h.same d hd hdw).symm.trans hr, Nat.le_refl _⟩
  obtain ⟨old, hold, hle⟩ := hstart
  have hplaces (e : Document) (he : e ∈ DocumentStore.documents docs) :
      LawfulStore.place p.docs e = LawfulStore.place p.docs d ↔ e = d := by
    rw [h.place, h.place]
    exact ⟨hs d hd e he old hold, fun he => he ▸ rfl⟩
  refine ⟨{ p with docs := now }, Action.emit_of_ok hw, hdocs.trans h.documents,
    fun e => (hplace e).trans (h.place e), fun e he hew => ?_, fun e he hew => ?_⟩
  · by_cases hed : e = d
    · subst hed
      exact ⟨old, new, hold, (hread e).trans (if_pos rfl), by omega⟩
    · have hew : e ∈ written :=
        (List.mem_append.1 hew).resolve_right fun h => hed (List.mem_singleton.1 h)
      rw [hread e, if_neg fun hp => hed ((hplaces e he).1 hp)]
      exact h.more e he hew
  · rw [List.mem_append, List.mem_singleton, not_or] at hew
    rw [hread e, if_neg fun hp => hew.2 ((hplaces e he).1 hp)]
    exact h.same e he hew.1

/-! ## Pieces of work -/

/-- What a piece of work on a document leads to: the document is written, or nothing changes. -/
def Works (docs : σ) (written : List Document) (d : Document) (p : Progress σ) (o : Outcome)
    (q : Progress σ) : Prop :=
  (o = .written ∧ Wrote docs (written ++ [d]) q.docs) ∨ (o ≠ .written ∧ q = p)

theorem Works.wrote {o : Outcome} {q : Progress σ} (h : Works docs written d p o q)
    (hp : Wrote docs written p.docs) :
    Wrote docs (written ++ if o = .written then [d] else []) q.docs := by
  rcases h with ⟨ho, hq⟩ | ⟨ho, rfl⟩
  · rwa [if_pos ho]
  · rwa [if_neg ho, List.append_nil]

omit [LawfulStore σ] in
theorem readDocument_cases (d : Document) (p : Progress σ) :
    (∃ text, DocumentStore.read p.docs d = .ok text ∧ Action.readDocument d p = .ok text p) ∨
      ∃ e, Action.readDocument d p = .error e p := by
  cases hr : DocumentStore.read p.docs d with
  | ok text => exact .inl ⟨text, rfl, Action.readDocument_of_ok hr⟩
  | error e => exact .inr ⟨e, Action.readDocument_of_error hr⟩

theorem describeDocument_works {c : Conventions} {r : DescribeRequest} (hr : r.trial = false)
    (hs : Separate docs) (h : Wrote docs written p.docs)
    (hd : d ∈ DocumentStore.documents docs) :
    (∃ o constants q, describeDocument c r d p = .ok (o, constants) q ∧
      Works docs written d p o q) ∨ ∃ e, describeDocument c r d p = .error e p := by
  rw [describeDocument, Action.bind_eq, hr]
  rcases readDocument_cases d p with ⟨text, htext, hread⟩ | ⟨e, hread⟩
  · rw [hread]
    dsimp only
    left
    by_cases hdiff : (annotate (c.annotator d.holdsController) text).revision.differs = true
    · rw [if_pos hdiff]
      have hlt := gains_describing c r d text _ (if_pos hdiff)
      obtain ⟨q, he, hq⟩ := h.emit hs hd htext hlt
      refine ⟨.written, (annotate (c.annotator d.holdsController) text).constants, q, ?_,
        .inl ⟨rfl, hq⟩⟩
      rw [Action.bind_eq, he]
      rfl
    · rw [if_neg hdiff]
      exact ⟨.unchanged, (annotate (c.annotator d.holdsController) text).constants, p, rfl,
        .inr ⟨Outcome.noConfusion, rfl⟩⟩
  · rw [hread]
    exact .inr ⟨e, rfl⟩

theorem updateNamed_works {documents : List Document} {name : String}
    {change : String → Except Error Revision} (hs : Separate docs)
    (hc : ∀ text revision, change text = .ok revision → revision.before = text ∧ revision.Gains)
    (hdocs : documents = DocumentStore.documents docs) (h : Wrote docs written p.docs) :
    (∃ o q, updateNamed false documents name change p = .ok o q ∧
      ∃ d, Document.single documents name = .ok d ∧ Works docs written d p o q) ∨
      ∃ e, updateNamed false documents name change p = .error e p := by
  cases hd : Document.single documents name with
  | error e =>
    rw [updateNamed, hd]
    exact .inr ⟨e, rfl⟩
  | ok d =>
    have hmem : d ∈ DocumentStore.documents docs := hdocs ▸ mem_of_single hd
    have hw : updateNamed false documents name change p =
        (Action.readDocument d >>= fun text => Action.ofExcept (change text) >>= fun revision =>
          if revision.differs then Action.emit false d revision.after else pure .unchanged) p := by
      rw [updateNamed, hd]
      rfl
    rw [hw, Action.bind_eq]
    rcases readDocument_cases d p with ⟨text, htext, hread⟩ | ⟨e, hread⟩
    · rw [hread]
      dsimp only
      cases hr : change text with
      | error e => exact .inr ⟨e, rfl⟩
      | ok revision =>
        left
        change ∃ o q, (if revision.differs then _ else _ : Action σ Outcome) p = .ok o q ∧ _
        obtain ⟨rfl, hgains⟩ := hc text revision hr
        by_cases hdiff : revision.differs = true
        · rw [if_pos hdiff]
          obtain ⟨q, he, hq⟩ := h.emit hs hmem htext (hgains.lt hdiff)
          exact ⟨.written, q, he, d, rfl, .inl ⟨rfl, hq⟩⟩
        · rw [if_neg hdiff]
          exact ⟨.unchanged, p, rfl, d, rfl, .inr ⟨Outcome.noConfusion, rfl⟩⟩
    · rw [hread]
      exact .inr ⟨e, rfl⟩

theorem reportUpdate_works {cause : Bool} {documents : List Document} {name : String}
    {change : String → Except Error Revision} {report report' : Report} {q : Progress σ}
    (hs : Separate docs)
    (hc : ∀ text revision, change text = .ok revision → revision.before = text ∧ revision.Gains)
    (hdocs : documents = DocumentStore.documents docs) (h : Wrote docs written p.docs)
    (hok : reportUpdate cause false documents name change report p = .ok report' q) :
    ∃ o : Option Outcome, report'.entries = report.entries ++ o.toList.map (⟨name, ·⟩) ∧
      ∃ ds, Wrote docs (written ++ ds) q.docs ∧
        ∀ d, d ∈ ds ↔ o = some .written ∧ Document.single documents name = .ok d := by
  cases cause with
  | false =>
    cases hok
    exact ⟨none, (List.append_nil _).symm, [], by rwa [List.append_nil], fun d => by simp⟩
  | true =>
    rw [reportUpdate, if_pos rfl, Action.bind_eq_ok] at hok
    obtain ⟨o, p', hskip, hok⟩ := hok
    cases hok
    refine ⟨some o, rfl, ?_⟩
    rcases updateNamed_works hs hc hdocs h with ⟨o', q', hw, d, hd, hworks⟩ | ⟨e, hw⟩
    · rw [Action.skipInput_of_ok hw] at hskip
      cases hskip
      refine ⟨_, hworks.wrote h, fun e => ?_⟩
      rw [hd]
      split
      · rename_i ho
        simp [ho, eq_comm]
      · rename_i ho
        simp [ho]
    · rw [Action.skipInput_of_error hw] at hskip
      split at hskip
      · cases hskip
        exact ⟨[], by rwa [List.append_nil], fun d => by simp⟩
      · cases hskip

/-! ## Subjects -/

theorem find?_foldl_put {α β : Type} [DecidableEq α] (xs : List α) (b : β) (t : Table α β) (x : α) :
    (xs.foldl (fun t x => t.put x b) t).find? x = if x ∈ xs then some b else t.find? x := by
  induction xs generalizing t with
  | nil => rfl
  | cons y ys ih =>
    rw [List.foldl_cons, ih, Table.find?_put]
    by_cases hx : x ∈ ys
    · rw [if_pos hx, if_pos (List.mem_cons_of_mem _ hx)]
    · rw [if_neg hx]
      simp [hx]

section

variable {c : Conventions} {r : DescribeRequest} {done done' : Annotating} {q : Progress σ}

theorem annotateSubject_works {s : Subject} (hr : r.trial = false) (hs : Separate docs)
    (h : Wrote docs written p.docs) (hd : s.document ∈ DocumentStore.documents docs)
    (hok : annotateSubject c r done s p = .ok done' q) :
    ∃ o, Works docs written s.document p o q ∧
      ∀ x, done'.outcomes.find? x = if x ∈ s.shown then some o else done.outcomes.find? x := by
  rw [annotateSubject] at hok
  rcases describeDocument_works (c := c) hr hs h hd with ⟨o, constants, q', hw, hworks⟩ | ⟨e, hw⟩
  · rw [hw] at hok
    cases hok
    exact ⟨o, hworks, find?_foldl_put s.shown o done.outcomes⟩
  · rw [hw] at hok
    dsimp only at hok
    split at hok
    · cases hok
      exact ⟨.skipped e.message, .inr ⟨Outcome.noConfusion, rfl⟩,
        find?_foldl_put s.shown _ done.outcomes⟩
    · cases hok

/-- Annotating documents, none of them twice and none for the same type as another. -/
theorem annotateAll_works {ss : List Subject} (hr : r.trial = false) (hs : Separate docs)
    (h : Wrote docs written p.docs)
    (hd : ∀ s ∈ ss, s.document ∈ DocumentStore.documents docs)
    (hn : (ss.map (·.document)).Nodup)
    (hshown : ∀ s ∈ ss, ∀ s' ∈ ss, ∀ x ∈ s.shown, x ∈ s'.shown → s.document = s'.document)
    (hok : annotateAll c r ss done p = .ok done' q) :
    ∃ ds, Wrote docs (written ++ ds) q.docs ∧ ds ⊆ ss.map (·.document) ∧
      (∀ s ∈ ss, ∀ x ∈ s.shown, ∃ o, done'.outcomes.find? x = some o ∧
        (o = .written ↔ s.document ∈ ds)) ∧
      ∀ x, (∀ s ∈ ss, x ∉ s.shown) → done'.outcomes.find? x = done.outcomes.find? x := by
  induction ss generalizing written done p with
  | nil =>
    cases hok
    exact ⟨[], by rwa [List.append_nil], List.Subset.refl _, by simp, fun _ _ => rfl⟩
  | cons s ss ih =>
    obtain ⟨hds, hdss⟩ := List.forall_mem_cons.1 hd
    rw [List.map_cons, List.nodup_cons] at hn
    rw [annotateAll, Action.bind_eq_ok] at hok
    obtain ⟨done₁, p₁, hok₁, hok⟩ := hok
    obtain ⟨o, hworks, hfind⟩ := annotateSubject_works hr hs h hds hok₁
    obtain ⟨ds, hw, hsub, htold, hrest⟩ := ih (hworks.wrote h) hdss hn.2
      (fun t ht t' ht' => hshown t (List.mem_cons_of_mem _ ht) t' (List.mem_cons_of_mem _ ht')) hok
    have hother : ∀ x ∈ s.shown, ∀ t ∈ ss, x ∉ t.shown := fun x hx t ht hxt =>
      hn.1 (List.mem_map.2 ⟨t, ht, (hshown s (List.mem_cons_self ..) t
        (List.mem_cons_of_mem _ ht) x hx hxt).symm⟩)
    have hnew : ∀ t ∈ ss, t.document ≠ s.document :=
      fun t ht he => hn.1 (List.mem_map.2 ⟨t, ht, he⟩)
    refine ⟨(if o = .written then [s.document] else []) ++ ds,
      by rwa [← List.append_assoc], ?_, fun t ht x hx => ?_, fun x hx => ?_⟩
    · refine List.append_subset.2 ⟨?_, List.Subset.trans hsub (List.subset_cons_self ..)⟩
      split
      · exact List.cons_subset.2 ⟨List.mem_cons_self .., List.nil_subset _⟩
      · exact List.nil_subset _
    · rcases List.mem_cons.1 ht with rfl | ht
      · refine ⟨o, ?_, ?_⟩
        · rw [hrest x (hother x hx), hfind, if_pos hx]
        · have hnot : t.document ∉ ds := fun hin => hn.1 (hsub hin)
          split <;> simp_all
      · obtain ⟨o', hfind', ho'⟩ := htold t ht x hx
        refine ⟨o', hfind', ho'.trans ?_⟩
        have hne := hnew t ht
        split <;> simp [hne]
    · obtain ⟨hxs, hxss⟩ := List.forall_mem_cons.1 hx
      rw [hrest x hxss, hfind, if_neg hxs]

end

end

/-! ## The types of a subject -/

/-- The types among some whose only document is a given one. -/
def shownFor (plans : List Planned) (d : Document) : List String :=
  (plans.filter fun p => p.target = .sole d).map (·.shown)

/-- No two documents have one key. -/
def KeysDiffer (documents : List Document) : Prop :=
  ∀ d ∈ documents, ∀ e ∈ documents, d.key = e.key → d = e

section

variable {documents : List Document} {plans : List Planned} {d e : Document}

theorem target_of_mem_plans {catalog : Catalog} {names : List String} {p : Planned}
    (hp : p ∈ names.map (plan catalog documents)) :
    p.target = .ofMatches (Document.matching documents p.shown) := by
  obtain ⟨name, -, rfl⟩ := List.mem_map.1 hp
  rfl

/-- One shown type has one document. -/
theorem eq_of_mem_shownFor {x : String}
    (ht : ∀ p ∈ plans, p.target = .ofMatches (Document.matching documents p.shown))
    (hd : x ∈ shownFor plans d) (he : x ∈ shownFor plans e) : d = e := by
  obtain ⟨p, hp, rfl⟩ := List.mem_map.1 hd
  obtain ⟨p', hp', hx⟩ := List.mem_map.1 he
  obtain ⟨hp, hpd⟩ := List.mem_filter.1 hp
  obtain ⟨hp', hpe⟩ := List.mem_filter.1 hp'
  have hpd : p.target = .sole d := of_decide_eq_true hpd
  have hpe : p'.target = .sole e := of_decide_eq_true hpe
  rw [ht p' hp', hx, ← ht p hp, hpd] at hpe
  exact Target.sole.inj hpe

theorem find?_addSubject (d e : Document) (shown : String)
    (t : Table (List String) Subject) :
    ((addSubject e shown t).find? d.key).map (·.shown) =
      if d.key = e.key then some ((((t.find? e.key).map (·.shown)).getD []) ++ [shown])
      else (t.find? d.key).map (·.shown) := by
  rw [addSubject, Table.update, Table.find?_put]
  split <;> rfl

theorem shown_gather (hk : KeysDiffer documents) (hp : TargetsIn documents plans)
    (hd : d ∈ documents) (t : Table (List String) Subject) :
    (((plans.foldl gather t).find? d.key).map (·.shown)).getD [] =
      (((t.find? d.key).map (·.shown)).getD []) ++ shownFor plans d := by
  induction plans generalizing t with
  | nil => exact (List.append_nil _).symm
  | cons p plans ih =>
    obtain ⟨hpd, hpp⟩ := List.forall_mem_cons.1 hp
    rw [List.foldl_cons, ih hpp, gather, shownFor, shownFor, List.filter_cons]
    cases htarget : p.target with
    | sole e =>
      dsimp only
      rw [find?_addSubject]
      by_cases hde : d = e
      · subst hde
        simp
      · have hkey : ¬d.key = e.key := fun h => hde (hk d hd e (hpd e htarget) h)
        have hed : ¬e = d := fun h => hde h.symm
        simp [hkey, hed]
    | nowhere => simp
    | several ds => simp

theorem shown_ne_nil (plans : List Planned) : ∀ s ∈ subjects plans, s.shown ≠ [] := by
  intro s hs
  rw [subjects_eq] at hs
  obtain ⟨e, he, rfl⟩ := List.mem_map.1 hs
  refine List.foldlRecOn (motive := fun t : Table (List String) Subject =>
    ∀ e ∈ t.entries, e.2.shown ≠ []) plans gather (fun e he => absurd he List.not_mem_nil)
    (fun t ht p _ e he => ?_) e he
  rw [gather] at he
  split at he
  · rcases mem_putEntry he with he | rfl
    · exact ht e he
    · exact List.append_ne_nil_of_right_ne_nil _ (List.cons_ne_nil _ _)
  · exact ht e he

/-- A subject is annotated for the types whose only document it has, and each of them has one. -/
theorem subjects_spec (hk : KeysDiffer documents) (hin : TargetsIn documents plans) :
    (∀ s ∈ subjects plans, s.shown = shownFor plans s.document) ∧
      ∀ p ∈ plans, ∀ d, p.target = .sole d →
        ∃ s ∈ subjects plans, s.document = d ∧ p.shown ∈ s.shown := by
  have hkept := kept_gather hin
  have htable : ∀ d ∈ documents, (((plans.foldl gather .empty).find? d.key).map
      (·.shown)).getD [] = shownFor plans d := fun d hd => shown_gather hk hin hd _
  rw [subjects_eq]
  generalize ht : plans.foldl gather .empty = t at htable
  replace hkept : Kept documents t := ht ▸ hkept
  refine ⟨fun s hs => ?_, fun p hp d hd => ?_⟩
  · obtain ⟨e, he, rfl⟩ := List.mem_map.1 hs
    obtain ⟨hkey, hmem⟩ := hkept e he
    rw [← htable _ hmem, ← hkey, Table.find?_of_mem he]
    rfl
  · have hshown : p.shown ∈ shownFor plans d :=
      List.mem_map.2 ⟨p, List.mem_filter.2 ⟨hp, decide_eq_true hd⟩, rfl⟩
    have hmem := hin p hp d hd
    rw [← htable d hmem] at hshown
    cases hf : t.find? d.key with
    | none =>
      rw [hf] at hshown
      cases hshown
    | some s =>
      rw [hf] at hshown
      rw [Table.find?, Option.map_eq_some_iff] at hf
      obtain ⟨e, hfe, rfl⟩ := hf
      obtain ⟨hkey, hdoc⟩ := hkept e (List.mem_of_find?_eq_some hfe)
      have he : e.1 = d.key := by simpa using List.find?_some hfe
      exact ⟨e.2, List.mem_map.2 ⟨e, List.mem_of_find?_eq_some hfe, rfl⟩,
        hk _ hdoc _ hmem (hkey.symm.trans he), hshown⟩

end

/-! ## Reports -/

/-- The entries of a report by what they are about: types, each as it was planned, and the documents
of the descriptions and of the registry where there was cause to change them. -/
structure Account where
  types : List (Planned × Outcome)
  descriptions : Option Outcome
  registry : Option Outcome

namespace Account

def entries (a : Account) (c : Conventions) : List ReportLine :=
  a.types.map (fun t => ⟨t.1.shown, t.2⟩) ++ a.descriptions.toList.map (⟨c.descriptionsDocument, ·⟩)
    ++ a.registry.toList.map (⟨c.registryDocument, ·⟩)

/-- Some piece of work on a document was written: a type whose only match it is, the descriptions or
the registry. -/
def Wrote (a : Account) (c : Conventions) (documents : List Document) (d : Document) : Prop :=
  (∃ p, (p, Outcome.written) ∈ a.types ∧ p.target = .sole d) ∨
    (a.descriptions = some .written ∧ Document.single documents c.descriptionsDocument = .ok d) ∨
    (a.registry = some .written ∧ Document.single documents c.registryDocument = .ok d)

end Account

/-- A report has a written entry whose subject is a type with a document as its only match, or the
name of the document of the descriptions or of the registry. -/
def Report.Names (report : Report) (c : Conventions) (documents : List Document)
    (plans : List Planned) (d : Document) : Prop :=
  ∃ e ∈ report.entries, e.outcome = .written ∧
    ((∃ p ∈ plans, p.shown = e.subject ∧ p.target = .sole d) ∨
      (e.subject = c.descriptionsDocument ∧
        Document.single documents c.descriptionsDocument = .ok d) ∨
      (e.subject = c.registryDocument ∧ Document.single documents c.registryDocument = .ok d))

section

variable {c : Conventions} {documents : List Document} {plans : List Planned} {a : Account}
  {report : Report} {d : Document}

theorem Account.Wrote.names (h : a.Wrote c documents d) (he : report.entries = a.entries c)
    (hp : a.types.map (·.1) = plans) : report.Names c documents plans d := by
  rw [Report.Names, he]
  rcases h with ⟨p, hmem, ht⟩ | ⟨hw, hd⟩ | ⟨hw, hd⟩
  · refine ⟨⟨p.shown, .written⟩, ?_, rfl, .inl ⟨p, ?_, rfl, ht⟩⟩
    · exact List.mem_append_left _ (List.mem_append_left _ (List.mem_map.2 ⟨_, hmem, rfl⟩))
    · rw [← hp]
      exact List.mem_map.2 ⟨_, hmem, rfl⟩
  · refine ⟨⟨c.descriptionsDocument, .written⟩, ?_, rfl, .inr (.inl ⟨rfl, hd⟩)⟩
    rw [Account.entries, hw]
    exact List.mem_append_left _ (List.mem_append_right _ (List.mem_singleton_self _))
  · refine ⟨⟨c.registryDocument, .written⟩, ?_, rfl, .inr (.inr ⟨rfl, hd⟩)⟩
    rw [Account.entries, hw]
    exact List.mem_append_right _ (List.mem_singleton_self _)

/-- The names in a report tell what was written, if no type is shown by the name of a document. -/
theorem Account.wrote_of_names (h : report.Names c documents plans d)
    (he : report.entries = a.entries c) (hp : a.types.map (·.1) = plans)
    (htarget : ∀ p ∈ plans, p.target = .ofMatches (Document.matching documents p.shown))
    (hnames : ∀ p ∈ plans, p.shown ≠ c.descriptionsDocument ∧ p.shown ≠ c.registryDocument) :
    a.Wrote c documents d := by
  obtain ⟨e, hmem, ho, hsubject⟩ := h
  rw [he, Account.entries, List.append_assoc, List.mem_append, List.mem_append] at hmem
  rcases hmem with hmem | hmem | hmem
  · obtain ⟨⟨p, o⟩, hpo, rfl⟩ := List.mem_map.1 hmem
    obtain rfl : o = .written := ho
    have hin : p ∈ plans := hp ▸ List.mem_map.2 ⟨_, hpo, rfl⟩
    rcases hsubject with ⟨p', hp', hshown, ht⟩ | ⟨hs, -⟩ | ⟨hs, -⟩
    · refine .inl ⟨p, hpo, ?_⟩
      rw [htarget p hin, ← ht, htarget p' hp', hshown]
    · exact absurd hs (hnames p hin).1
    · exact absurd hs (hnames p hin).2
  · obtain ⟨o, hw, rfl⟩ := List.mem_map.1 hmem
    obtain rfl : o = .written := ho
    have hw : a.descriptions = some .written := Option.mem_toList.1 hw
    rcases hsubject with ⟨p, hp', hs, -⟩ | ⟨-, hd⟩ | ⟨hs, hd⟩
    · exact absurd hs (hnames p hp').1
    · exact .inr (.inl ⟨hw, hd⟩)
    · dsimp only at hs
      exact .inr (.inl ⟨hw, hs ▸ hd⟩)
  · obtain ⟨o, hw, rfl⟩ := List.mem_map.1 hmem
    obtain rfl : o = .written := ho
    have hw : a.registry = some .written := Option.mem_toList.1 hw
    rcases hsubject with ⟨p, hp', hs, -⟩ | ⟨hs, hd⟩ | ⟨-, hd⟩
    · exact absurd hs (hnames p hp').2
    · dsimp only at hs
      exact .inr (.inr ⟨hw, hs ▸ hd⟩)
    · exact .inr (.inr ⟨hw, hd⟩)

end

variable {σ : Type} [DocumentStore σ] [LawfulStore σ]

/-- The steps of a run that gives a report. -/
theorem annotateTypes_eq_ok {σ : Type} [DocumentStore σ] {session : Session} {c : Conventions}
    {r : DescribeRequest} {p q : Progress σ} {report : Report}
    (h : annotateTypes session c r p = .ok report q) :
    let documents := DocumentStore.documents p.docs
    ∃ names done report₁ p₁ p₂, subjectNames ⟨session, c.discovery⟩ r = .ok names ∧
      let plans := names.map (plan ⟨session, c.discovery⟩ documents)
      let outside := externals ⟨session, c.discovery⟩ plans
      annotateAll c r (subjects plans) ⟨.empty, outside.foldl
        (fun regions e => regions.record e.1.shown e.2) Regions.empty⟩ p = .ok done p₁ ∧
      reportUpdate (!done.constants.isEmpty) r.trial documents c.descriptionsDocument
        (fun text => done.constants.declareIn text c.descriptionsType)
        ⟨plans.map fun p => ⟨p.shown, outcomeOf done p⟩⟩ p₁ = .ok report₁ p₂ ∧
      reportUpdate (!outside.isEmpty) r.trial documents c.registryDocument
        (fun text => registerTypes text c.registryVariable
          (outside.map fun e => rootedPath e.1.name session.target)) report₁ p₂ = .ok report q := by
  intro documents
  rw [annotateTypes] at h
  obtain ⟨names, p₀, hnames, h⟩ := Action.bind_eq_ok.1 h
  cases hn : subjectNames ⟨session, c.discovery⟩ r with
  | error e =>
    rw [hn] at hnames
    cases hnames
  | ok names' =>
    rw [hn] at hnames
    cases hnames
    obtain ⟨_, _, hdocuments, h⟩ := Action.bind_eq_ok.1 h
    cases hdocuments
    obtain ⟨done, p₁, hall, h⟩ := Action.bind_eq_ok.1 h
    obtain ⟨report₁, p₂, hdesc, hreg⟩ := Action.bind_eq_ok.1 h
    exact ⟨names, done, report₁, p₁, p₂, rfl, hall, hdesc, hreg⟩

/-- A run that writes and gives a report gives an account of the documents it has changed. -/
theorem annotateTypes_account {session : Session} {c : Conventions} {r : DescribeRequest}
    {docs : σ} {report : Report} {final : Progress σ} (hr : r.trial = false) (hs : Separate docs)
    (hk : KeysDiffer (DocumentStore.documents docs))
    (h : (annotateTypes session c r).run docs = (.ok report, final)) :
    ∃ (names : List String) (a : Account),
      subjectNames ⟨session, c.discovery⟩ r = .ok names ∧
      a.types.map (·.1) =
        names.map (plan ⟨session, c.discovery⟩ (DocumentStore.documents docs)) ∧
      report.entries = a.entries c ∧
      ∃ written, Wrote docs written final.docs ∧
        ∀ d, d ∈ written ↔ a.Wrote c (DocumentStore.documents docs) d := by
  obtain ⟨names, done, report₁, p₁, p₂, hn, hall, hdesc, hreg⟩ :=
    annotateTypes_eq_ok (Action.eq_ok_of_run h)
  rw [hr] at hdesc hreg
  let documents := DocumentStore.documents docs
  let plans := names.map (plan ⟨session, c.discovery⟩ documents)
  have hin := targetsIn_plans ⟨session, c.discovery⟩ documents names
  obtain ⟨hmem, hnodup⟩ := documents_subjects hin
  obtain ⟨hshown, hplanned⟩ := subjects_spec hk hin
  have htarget : ∀ p ∈ plans, p.target = .ofMatches (Document.matching documents p.shown) :=
    fun p hp => target_of_mem_plans hp
  obtain ⟨ds₁, hw₁, hsub, htold, -⟩ := annotateAll_works hr hs (.refl docs) hmem hnodup
    (fun s hs s' hs' x hx hx' => eq_of_mem_shownFor htarget (hshown s hs ▸ hx)
      (hshown s' hs' ▸ hx')) hall
  obtain ⟨o₂, he₂, ds₂, hw₂, hds₂⟩ :=
    reportUpdate_works hs (fun _ _ => gains_declareIn) rfl hw₁ hdesc
  obtain ⟨o₃, he₃, ds₃, hw₃, hds₃⟩ :=
    reportUpdate_works hs (fun _ _ => gains_registerTypes) rfl hw₂ hreg
  have hds₁ : ∀ d, d ∈ ds₁ ↔ ∃ p ∈ plans, outcomeOf done p = .written ∧ p.target = .sole d := by
    intro d
    have htells : ∀ p ∈ plans, p.target = .sole d → (outcomeOf done p = .written ↔ d ∈ ds₁) := by
      intro p hp ht
      obtain ⟨s, hs, rfl, hps⟩ := hplanned p hp d ht
      obtain ⟨o, hfind, ho⟩ := htold s hs _ hps
      rw [outcomeOf, ht, Target.skipReason?, hfind]
      exact ho
    constructor
    · intro hd
      obtain ⟨s, hs, rfl⟩ := List.mem_map.1 (hsub hd)
      obtain ⟨x, hx⟩ := List.exists_mem_of_ne_nil _ (shown_ne_nil plans s hs)
      rw [hshown s hs] at hx
      obtain ⟨p, hp, -⟩ := List.mem_map.1 hx
      obtain ⟨hp, ht⟩ := List.mem_filter.1 hp
      have ht : p.target = .sole s.document := of_decide_eq_true ht
      exact ⟨p, hp, (htells p hp ht).2 hd, ht⟩
    · rintro ⟨p, hp, ho, ht⟩
      exact (htells p hp ht).1 ho
  refine ⟨names, ⟨plans.map fun p => (p, outcomeOf done p), o₂, o₃⟩, hn, ?_, ?_,
    _, hw₃, fun d => ?_⟩
  · rw [List.map_map]
    exact List.map_id _
  · rw [he₃, he₂, Account.entries, List.map_map (l := plans)]
    rfl
  · rw [List.nil_append, List.mem_append, List.mem_append, hds₁, hds₂, hds₃, Account.Wrote,
      or_assoc]
    simp [plans, documents, and_assoc]

/-! ## Reports on documents in memory -/

theorem keysDiffer_documents (m : Memory) : KeysDiffer (DocumentStore.documents m) := by
  intro d hd e he hkey
  obtain ⟨h, hh, rfl⟩ := List.mem_map.1 hd
  obtain ⟨h', hh', rfl⟩ := List.mem_map.1 he
  rw [List.inj_on_of_nodup_map m.nodup hh hh' hkey]

/-- A run that writes and gives a report leaves the list of documents as it is. Its report is an
account of what it has done: a document differs if and only if a piece of work on it is reported as
written, as a type whose only match it is, as the only document of the name of the descriptions, or
as that of the registry. The names in the report tell this unless a type is shown by the name of
one of these documents. -/
theorem annotateTypes_reports {session : Session} {c : Conventions} {r : DescribeRequest}
    {m : Memory} {report : Report} {final : Progress Memory} (hr : r.trial = false)
    (h : (annotateTypes session c r).run m = (.ok report, final)) :
    final.docs.documents = m.documents ∧
    ∃ (names : List String) (a : Account),
      subjectNames ⟨session, c.discovery⟩ r = .ok names ∧
      let plans := names.map (plan ⟨session, c.discovery⟩ m.documents)
      a.types.map (·.1) = plans ∧ report.entries = a.entries c ∧
      ∀ d ∈ m.documents,
        (final.docs.read d ≠ m.read d ↔ a.Wrote c m.documents d) ∧
        (final.docs.read d ≠ m.read d → report.Names c m.documents plans d) ∧
        ((∀ p ∈ plans, p.shown ≠ c.descriptionsDocument ∧ p.shown ≠ c.registryDocument) →
          report.Names c m.documents plans d → final.docs.read d ≠ m.read d) := by
  obtain ⟨names, a, hn, htypes, hentries, written, hwrote, hmem⟩ :=
    annotateTypes_account hr (Memory.separate m) (keysDiffer_documents m) h
  have hiff : ∀ d ∈ m.documents, final.docs.read d ≠ m.read d ↔ a.Wrote c m.documents d :=
    fun d hd => (hwrote.read_ne_iff hd).trans (hmem d)
  refine ⟨hwrote.documents, names, a, hn, htypes, hentries, fun d hd => ⟨hiff d hd, ?_, ?_⟩⟩
  · exact fun hne => ((hiff d hd).1 hne).names hentries htypes
  · exact fun hnames hd' => (hiff d hd).2 (Account.wrote_of_names hd' hentries htypes
      (fun p hp => target_of_mem_plans hp) hnames)

/-- The report on the document of a structure tells that it is written, and it differs. -/
theorem annotateTypes_reports_single :
    let report : Report := ⟨[⟨"A", .written⟩, ⟨"d.rs", .skipped "Document 'd.rs' not found"⟩]⟩
    let run := (annotateTypes .empty shortConventions (describeType "A" false)).run plainDocument
    run.1 = .ok report ∧ run.2.docs.documents = plainDocument.documents ∧
      ∀ d ∈ plainDocument.documents, run.2.docs.read d ≠ plainDocument.read d := by
  intro report run
  have hreport : run.1 = .ok report := by decide +kernel
  have hrun : run = (.ok report, run.2) := Prod.ext hreport rfl
  obtain ⟨hdocs, names, a, hn, -, -, hd⟩ := annotateTypes_reports rfl hrun
  obtain rfl : ["A"] = names := Except.ok.inj hn
  refine ⟨hreport, hdocs, fun d hmem => (hd d hmem).2.2 ?_ ?_⟩
  · decide +kernel
  · obtain rfl := List.mem_singleton.1 hmem
    exact ⟨⟨"A", .written⟩, List.mem_cons_self .., rfl, .inl (by decide +kernel)⟩

end Docsmith.Run
