import Docsmith.Proofs.Text.Bytes
import Docsmith.Proofs.Workspace.Names
import Docsmith.Proofs.Workspace.Project

/-!
# What a project lists

A project lists the source files below its folder, but for those in folders that are skipped. The
folder of the project itself may be one of a name that is skipped.

* `mem_sources`: a source is known by the names on its way and by what is at its end;
* `pairwise_sources`: sources are listed in the order of their ways, name by name;
* `Project.openFolder_lists`: what is listed when a project is opened.
-/

namespace Docsmith.Workspace

open Docsmith.Text

/-- What has the ending of sources and something in front of it. -/
theorem isSource_iff {name : String} (hs : ∀ c ∈ name.toList, Path.isSeparator c = false) :
    isSource name = true ↔ ∃ stem, stem ≠ "" ∧ name = stem ++ ".rs" := by
  have hrs (stem : String) : stem ++ "." ++ "rs" = stem ++ ".rs" := String.append_assoc ..
  have hext (hn : Path.IsFileName name) : Path.extension? name = some "rs" ↔
      ∃ stem, stem ≠ "" ∧ name = stem ++ ".rs" := by
    simp only [Path.extension?_eq_some_iff hn (by decide : '.' ∉ "rs".toList), hrs]
  constructor
  · intro h
    have hne : name.toList ≠ [] := by
      rw [ne_eq, String.toList_eq_nil_iff]
      rintro rfl
      exact absurd h (by decide)
    exact (hext ⟨hne, hs, isDots_of_isSource h⟩).1 (of_decide_eq_true h)
  · intro h
    refine decide_eq_true ((hext ⟨?_, hs, ?_⟩).2 h)
    · obtain ⟨stem, -, rfl⟩ := h
      simp
    · obtain ⟨stem, -, rfl⟩ := h
      have hlong : 3 ≤ (stem ++ ".rs").toList.length := by simp
      rw [Path.isDots, Bool.or_eq_false_iff, decide_eq_false_iff_not, decide_eq_false_iff_not]
      constructor
      · intro h
        rw [h] at hlong
        exact absurd hlong (by decide)
      · intro h
        rw [h] at hlong
        exact absurd hlong (by decide)

theorem isSkipped_eq_false {name : String} :
    isSkipped name = false ↔ name ≠ "target" ∧ name.startsWith "." = false := by
  rw [isSkipped, Bool.or_eq_false_iff, decide_eq_false_iff_not]

/-! ## Trees -/

namespace Entry

/-- What holds of the entries of every folder of a tree. -/
inductive Each (P : List (String × Entry) → Prop) : Entry → Prop
  | file (c : Content) : Each P (.file c)
  | folder {entries : List (String × Entry)} : P entries → (∀ x ∈ entries, Each P x.2) →
      Each P (.folder entries)

/-- No two entries of a folder have one name. -/
def Distinct (e : Entry) : Prop := e.Each fun entries => (entries.map (·.1)).Nodup

/-- The entries of each folder stand in the order of their names. -/
def Ordered (e : Entry) : Prop := e.Each fun entries => entries.Pairwise (·.1 < ·.1)

theorem Each.imp {P Q : List (String × Entry) → Prop} (h : ∀ entries, P entries → Q entries)
    {e : Entry} (he : e.Each P) : e.Each Q := by
  induction he with
  | file c => exact .file c
  | folder hp _ ih => exact .folder (h _ hp) ih

theorem Ordered.distinct {e : Entry} (h : e.Ordered) : e.Distinct :=
  h.imp fun _ hp => List.pairwise_map.2 (hp.imp String.ne_of_lt)

theorem Each.get? {P : List (String × Entry) → Prop} {root e : Entry} {way : List String}
    (h : root.Each P) (hg : root.get? way = .ok e) : e.Each P := by
  refine get?_passes (fun entries hp => ?_) h hg
  cases hp with
  | folder _ hes => exact hes

theorem named?_eq_some_iff {entries : List (String × Entry)} (h : (entries.map (·.1)).Nodup)
    {name : String} {e : Entry} : named? entries name = some e ↔ (name, e) ∈ entries := by
  rw [named?, Option.map_eq_some_iff]
  constructor
  · rintro ⟨⟨n, e'⟩, hf, rfl⟩
    obtain rfl : n = name := by simpa using List.find?_some hf
    exact List.mem_of_find?_eq_some hf
  · intro hm
    refine ⟨(name, e), ?_, rfl⟩
    cases hf : entries.find? (·.1 = name) with
    | none =>
      have hother := List.find?_eq_none.1 hf _ hm
      simp at hother
    | some x =>
      have hx : x.1 = name := by simpa using List.find?_some hf
      rw [List.inj_on_of_nodup_map h (List.mem_of_find?_eq_some hf) hm hx]

/-- Listing the entries by name. -/
theorem mem_sorted {entries : List (String × Entry)} {x : String × Entry} :
    x ∈ (sortedAll entries).mergeSort (fun a b => a.1 ≤ b.1) ↔
      ∃ y ∈ entries, (y.1, y.2.sorted) = x := by
  rw [(List.mergeSort_perm _ _).mem_iff, sortedAll_eq_map, List.mem_map]

theorem nodup_sorted {entries : List (String × Entry)} (h : (entries.map (·.1)).Nodup) :
    (((sortedAll entries).mergeSort fun a b => a.1 ≤ b.1).map (·.1)).Nodup := by
  rw [((List.mergeSort_perm _ _).map _).nodup_iff, sortedAll_eq_map, List.map_map]
  exact h

theorem pairwise_sortedAll (entries : List (String × Entry)) :
    ((sortedAll entries).mergeSort fun a b => a.1 ≤ b.1).Pairwise fun a b => a.1 ≤ b.1 := by
  refine (List.pairwise_mergeSort (fun a b c hab hbc => ?_) (fun a b => ?_) _).imp of_decide_eq_true
  · exact decide_eq_true (String.le_trans (of_decide_eq_true hab) (of_decide_eq_true hbc))
  · simpa using String.le_total a.1 b.1

/-- A tree whose folders list their entries by name has what it had. -/
theorem Distinct.get?_sorted {e : Entry} (h : e.Distinct) (way : List String) :
    e.sorted.get? way = (e.get? way).map sorted := by
  induction way generalizing e with
  | nil =>
    rw [get?_nil, get?_nil]
    rfl
  | cons name way ih =>
    cases h with
    | file c =>
      rw [sorted]
      rfl
    | @folder entries hn hes =>
      have hnamed : named? ((sortedAll entries).mergeSort fun a b => a.1 ≤ b.1) name =
          (named? entries name).map sorted := by
        ext e
        rw [named?_eq_some_iff (nodup_sorted hn), mem_sorted, Option.map_eq_some_iff]
        constructor
        · rintro ⟨⟨n, e'⟩, hm, he⟩
          obtain ⟨rfl, rfl⟩ := Prod.mk.inj he
          exact ⟨e', (named?_eq_some_iff hn).2 hm, rfl⟩
        · rintro ⟨e', he', rfl⟩
          exact ⟨(name, e'), (named?_eq_some_iff hn).1 he', rfl⟩
      rw [sorted, Entry.get?, Entry.get?, hnamed]
      cases hf : named? entries name with
      | none => rfl
      | some e => exact ih (hes _ ((named?_eq_some_iff hn).1 hf))

theorem Distinct.ordered_sorted {e : Entry} (h : e.Distinct) : e.sorted.Ordered := by
  induction h with
  | file c =>
    rw [sorted]
    exact .file c
  | @folder entries hn _ ih =>
    rw [sorted]
    refine .folder ?_ fun x hx => ?_
    · -- in the order of the names, of which no two are alike
      have hle := pairwise_sortedAll entries
      exact hle.imp₂ (fun a b hab hne => String.not_le.1 fun hba =>
        hne (String.le_antisymm hab hba)) (List.pairwise_map.1 (nodup_sorted hn))
    · obtain ⟨y, hy, rfl⟩ := mem_sorted.1 hx
      exact ih y hy

end Entry

/-! ## Sources -/

/-- The names on the way to a source: its own, behind those of folders that are not skipped. -/
def LeadsToSource (names : List String) : Prop :=
  ∃ folders name, names = folders ++ [name] ∧ isSource name = true ∧
    ∀ n ∈ folders, isSkipped n = false

theorem leadsToSource_singleton {name : String} :
    LeadsToSource [name] ↔ isSource name = true := by
  constructor
  · rintro ⟨folders, n, h, hs, -⟩
    obtain ⟨-, hlast⟩ := List.append_inj' ((List.nil_append [name]).trans h) rfl
    rwa [(List.cons.inj hlast).1]
  · exact fun h => ⟨[], name, rfl, h, nofun⟩

theorem leadsToSource_cons {name : String} {more : List String} (h : more ≠ []) :
    LeadsToSource (name :: more) ↔ isSkipped name = false ∧ LeadsToSource more := by
  constructor
  · rintro ⟨_ | ⟨f, folders⟩, n, he, hs, hf⟩
    · exact absurd (List.cons.inj he).2 h
    · obtain ⟨rfl, rfl⟩ := List.cons.inj he
      obtain ⟨hname, hf⟩ := List.forall_mem_cons.1 hf
      exact ⟨hname, folders, n, rfl, hs, hf⟩
  · rintro ⟨hname, folders, n, rfl, hs, hf⟩
    exact ⟨name :: folders, n, rfl, hs, List.forall_mem_cons.2 ⟨hname, hf⟩⟩

theorem sourcesBelow_eq_flatMap (above : List String) (entries : List (String × Entry)) :
    sourcesBelow above entries =
      entries.flatMap fun x => sourcesAt (above ++ [x.1]) x.1 x.2 := by
  induction entries with
  | nil => rfl
  | cons x entries ih =>
    obtain ⟨name, e⟩ := x
    rw [sourcesBelow, ih, List.flatMap_cons]

namespace Entry

/-- A file is at the end of a way. -/
def HasFile (root : Entry) (way : List String) : Prop := ∃ c, root.get? way = .ok (.file c)

variable {entries : List (String × Entry)} {above way : List String} {name : String} {e : Entry}

theorem not_hasFile_nil : ¬(folder entries).HasFile [] := by
  rintro ⟨c, hg⟩
  rw [get?_nil] at hg
  cases hg

theorem hasFile_cons (h : (entries.map (·.1)).Nodup) :
    (folder entries).HasFile (name :: way) ↔ ∃ e, (name, e) ∈ entries ∧ e.HasFile way := by
  rw [HasFile, Entry.get?]
  constructor
  · rintro ⟨c, hg⟩
    cases hf : named? entries name with
    | none =>
      rw [hf] at hg
      cases hg
    | some e =>
      rw [hf] at hg
      exact ⟨e, (named?_eq_some_iff h).1 hf, c, hg⟩
  · rintro ⟨e, he, c, hg⟩
    rw [(named?_eq_some_iff h).2 he]
    exact ⟨c, hg⟩

theorem Distinct.hasFile_sorted (h : e.Distinct) : e.sorted.HasFile way ↔ e.HasFile way := by
  rw [HasFile, HasFile, h.get?_sorted]
  cases e.get? way with
  | error f => exact ⟨nofun, nofun⟩
  | ok e' =>
    cases e' with
    | file c => rw [Except.map, sorted]
    | folder es => simp [Except.map, sorted]

/-- What is listed for an entry at the end of a way. -/
def ListsAt (e : Entry) : Prop := ∀ {above way : List String} {name : String},
  way ∈ sourcesAt above name e ↔
    ∃ names, way = above ++ names ∧ LeadsToSource (name :: names) ∧ e.HasFile names

theorem mem_sourcesBelow_iff (h : (entries.map (·.1)).Nodup) (hes : ∀ x ∈ entries, ListsAt x.2) :
    way ∈ sourcesBelow above entries ↔
      ∃ names, way = above ++ names ∧ LeadsToSource names ∧ (folder entries).HasFile names := by
  rw [sourcesBelow_eq_flatMap, List.mem_flatMap]
  constructor
  · rintro ⟨x, hx, hw⟩
    obtain ⟨names, rfl, hs, hf⟩ := (hes x hx).1 hw
    exact ⟨x.1 :: names, by simp, hs, (hasFile_cons h).2 ⟨x.2, hx, hf⟩⟩
  · rintro ⟨_ | ⟨n, names⟩, rfl, hs, hf⟩
    · exact absurd hf not_hasFile_nil
    · obtain ⟨e, he, hf⟩ := (hasFile_cons h).1 hf
      exact ⟨(n, e), he, (hes _ he).2 ⟨names, by simp, hs, hf⟩⟩

/-- A source is known by the names on its way and by what is at its end. -/
theorem Distinct.listsAt (h : e.Distinct) : ListsAt e := by
  -- the name in front is that of the entry itself: of a file it decides, of a folder it may skip all
  induction h with
  | file c =>
    intro above way name
    rw [sourcesAt]
    constructor
    · intro hw
      split at hw
      · rename_i hs
        obtain rfl := List.mem_singleton.1 hw
        exact ⟨[], (List.append_nil _).symm, leadsToSource_singleton.2 hs, c, get?_nil _⟩
      · cases hw
    · rintro ⟨_ | ⟨n, names⟩, rfl, hs, c', hg⟩
      · rw [if_pos (leadsToSource_singleton.1 hs), List.append_nil]
        exact List.mem_singleton_self _
      · cases hg
  | @folder entries hn _ ih =>
    intro above way name
    have hcons {names : List String} (hf : (folder entries).HasFile names) :
        LeadsToSource (name :: names) ↔ isSkipped name = false ∧ LeadsToSource names :=
      leadsToSource_cons fun h => not_hasFile_nil (h ▸ hf)
    rw [sourcesAt]
    split
    · rename_i hskip
      refine ⟨nofun, ?_⟩
      rintro ⟨names, -, hs, hf⟩
      exact absurd hskip (by simp [((hcons hf).1 hs).1])
    · rename_i hskip
      rw [Bool.not_eq_true] at hskip
      rw [mem_sourcesBelow_iff hn ih]
      refine exists_congr fun names => and_congr_right fun _ => and_congr_left fun hf => ?_
      rw [hcons hf, hskip, eq_self, true_and]

theorem pairwise_sourcesBelow (h : entries.Pairwise (·.1 < ·.1))
    (hd : ∀ x ∈ entries, x.2.Distinct)
    (hes : ∀ x ∈ entries, ∀ above name,
      (sourcesAt above name x.2).Pairwise fun v w => v.map bytes < w.map bytes) :
    (sourcesBelow above entries).Pairwise fun v w => v.map bytes < w.map bytes := by
  rw [sourcesBelow_eq_flatMap, List.pairwise_flatMap]
  refine ⟨fun x hx => hes x hx _ _, h.imp_of_mem fun {x y} hx hy hlt v hv w hw => ?_⟩
  -- ways through different entries first differ in the names of these
  obtain ⟨v, rfl, -⟩ := (hd x hx).listsAt.1 hv
  obtain ⟨w, rfl, -⟩ := (hd y hy).listsAt.1 hw
  simp only [List.append_assoc, List.map_append, List.map_cons, List.singleton_append]
  exact List.append_left_lt (List.cons_lt_cons_iff.2 (.inl (bytes_lt hlt)))

/-- Sources are listed in the order of their ways, name by name. -/
theorem Ordered.pairwise_sourcesAt (h : e.Ordered) (above : List String) (name : String) :
    (sourcesAt above name e).Pairwise fun v w => v.map bytes < w.map bytes := by
  induction h generalizing above name with
  | file c =>
    rw [sourcesAt]
    split
    · exact List.pairwise_singleton _ _
    · exact .nil
  | folder ho hes ih =>
    rw [sourcesAt]
    split
    · exact .nil
    · exact pairwise_sourcesBelow ho (fun x hx => Ordered.distinct (hes x hx)) ih

end Entry

variable {entries : List (String × Entry)}

theorem sources_folder (entries : List (String × Entry)) : sources (.folder entries) =
    sourcesBelow [] ((Entry.sortedAll entries).mergeSort fun a b => a.1 ≤ b.1) := by
  rw [sources, Entry.sorted]

theorem mem_sources (h : (Entry.folder entries).Distinct) {names : List String} :
    names ∈ sources (.folder entries) ↔
      LeadsToSource names ∧ (Entry.folder entries).HasFile names := by
  have hsorted := h.ordered_sorted.distinct
  rw [← h.hasFile_sorted, sources_folder]
  rw [Entry.sorted] at hsorted ⊢
  cases hsorted with
  | folder hn hes =>
    rw [Entry.mem_sourcesBelow_iff hn fun x hx => Entry.Distinct.listsAt (hes x hx)]
    simp

theorem pairwise_sources (h : (Entry.folder entries).Distinct) :
    (sources (.folder entries)).Pairwise fun v w => v.map bytes < w.map bytes := by
  have hsorted := h.ordered_sorted
  rw [sources_folder]
  rw [Entry.sorted] at hsorted
  cases hsorted with
  | folder ho hes =>
    exact Entry.pairwise_sourcesBelow ho (fun x hx => Entry.Ordered.distinct (hes x hx))
      fun x hx => Entry.Ordered.pairwise_sourcesAt (hes x hx)

theorem nodup_sources (h : (Entry.folder entries).Distinct) :
    (sources (.folder entries)).Nodup := by
  refine (pairwise_sources h).imp fun {v w} hlt heq => ?_
  rw [heq] at hlt
  exact absurd hlt (List.lt_irrefl _)

theorem Entry.Plain.single {root e : Entry} {way : List String} {name : String} (h : root.Plain)
    (hg : root.get? (way ++ [name]) = .ok e) :
    ∀ c ∈ name.toList, Path.isSeparator c = false := by
  obtain ⟨es, hes⟩ := hasFolder_iff.1 (hasFolder_of_get?_append hg)
  rw [get?_concat_of_folder hes] at hg
  cases h.get? hes with
  | folder hn _ =>
    cases hf : named? es name with
    | none =>
      rw [hf] at hg
      cases hg
    | some e' =>
      obtain ⟨x, hx, -⟩ := Option.map_eq_some_iff.1 hf
      obtain rfl : x.1 = name := by simpa using List.find?_some hx
      exact (hn x (List.mem_of_find?_eq_some hx)).2

theorem Entry.get?_append_of_folder {root : Entry} {way : List String}
    (hg : root.get? way = .ok (.folder entries)) (names : List String) :
    root.get? (way ++ names) = (Entry.folder entries).get? names := by
  rw [get?_append, hg]
  rfl

/-! ## Projects -/

/-- The key of a document that has been opened is the way to it. -/
theorem Project.map_key_ofFolder (root : String) (tree : Entry) (way : List String)
    (hp : (Entry.folder entries).Plain) :
    (ofFolder root tree way (.folder entries)).documents.map Document.key =
      sources (.folder entries) := by
  rw [ofFolder, List.map_map]
  refine (List.map_congr_left fun names hn => ?_).trans (List.map_id _)
  obtain ⟨hne, hnames⟩ := isFileName_of_mem_sources hp hn
  exact Path.components_intercalate hne hnames

/-- When the folder at a path is opened, the files below it that have the ending of sources are
listed, each once and in the order of their ways, but for those below folders that are skipped. -/
theorem Project.openFolder_lists {tree : Entry} {root : String} (hp : tree.Plain)
    (hd : tree.Distinct) (hr : tree.leadsToFolder [] root = true) :
    ∃ p, Project.openFolder tree.files root = Except.ok p ∧ p.tree = tree ∧
      tree.locate [] root = .ok p.way ∧
      (∀ d, d ∈ p.documents ↔ ∃ folders stem c,
        d.path = "/".intercalate (folders ++ [stem ++ ".rs"]) ∧ stem ≠ "" ∧
        tree.get? (p.way ++ (folders ++ [stem ++ ".rs"])) = .ok (.file c) ∧
        ∀ n ∈ folders, n ≠ "target" ∧ n.startsWith "." = false) ∧
      (p.documents.map Document.key).Nodup ∧
      p.documents.Pairwise fun d e => d.key.map bytes < e.key.map bytes := by
  rw [Entry.leadsToFolder] at hr
  split at hr
  · rename_i way hl
    obtain ⟨entries, hg⟩ := Entry.hasFolder_iff.1 hr
    have hpf := hp.get? hg
    have hdf : (Entry.folder entries).Distinct := hd.get? hg
    refine ⟨ofFolder root tree way (.folder entries),
      openFolder_eq_ok.2 ⟨way, entries, hl, hg, rfl⟩, rfl, hl, fun d => ?_, ?_⟩
    · rw [ofFolder, List.mem_map]
      constructor
      · rintro ⟨names, hn, rfl⟩
        obtain ⟨⟨folders, name, rfl, hs, hf⟩, c, hc⟩ := (mem_sources hdf).1 hn
        obtain ⟨stem, hne, rfl⟩ := (isSource_iff (hpf.single hc)).1 hs
        refine ⟨folders, stem, c, rfl, hne, ?_, fun n hn => isSkipped_eq_false.1 (hf n hn)⟩
        rw [Entry.get?_append_of_folder hg]
        exact hc
      · rintro ⟨folders, stem, c, hpath, hne, hc, hf⟩
        rw [Entry.get?_append_of_folder hg] at hc
        refine ⟨folders ++ [stem ++ ".rs"], (mem_sources hdf).2 ⟨⟨folders, _, rfl, ?_, fun n hn =>
          isSkipped_eq_false.2 (hf n hn)⟩, c, hc⟩, congrArg Document.mk hpath.symm⟩
        exact (isSource_iff (hpf.single hc)).2 ⟨stem, hne, rfl⟩
    · have hkeys := map_key_ofFolder root tree way hpf
      have hpairs := pairwise_sources hdf
      rw [← hkeys, List.pairwise_map] at hpairs
      exact ⟨hkeys ▸ nodup_sources hdf, hpairs⟩
  · cases hr

/-- A folder of a name that is skipped below others, with a source in a folder of its own. -/
def builtTree : Entry :=
  .folder [("target", .folder [("a", .folder [("b.rs", .file (.text ""))])])]

theorem openFolder_lists_target : ∃ p, Project.openFolder builtTree.files "target" = Except.ok p ∧
    ⟨"a/b.rs"⟩ ∈ p.documents ∧ (p.documents.map Document.key).Nodup := by
  have hplain : builtTree.Plain := by
    refine Entry.plain_folder (by decide +kernel) (List.forall_mem_singleton.2 ?_)
    refine Entry.plain_folder (by decide +kernel) (List.forall_mem_singleton.2 ?_)
    exact Entry.plain_folder (by decide +kernel) (List.forall_mem_singleton.2 (.file _))
  have hdistinct : builtTree.Distinct := by
    refine .folder (by decide) (List.forall_mem_singleton.2 ?_)
    refine .folder (by decide) (List.forall_mem_singleton.2 ?_)
    exact .folder (by decide) (List.forall_mem_singleton.2 (.file _))
  have hroot : builtTree.leadsToFolder [] "target" = true := by decide +kernel
  obtain ⟨p, ho, -, hway, hmem, hnodup, -⟩ :=
    Project.openFolder_lists hplain hdistinct hroot
  have hl : builtTree.locate [] "target" = .ok ["target"] := by decide +kernel
  have hp : p.way = ["target"] := Except.ok.inj (hway.symm.trans hl)
  refine ⟨p, ho, (hmem _).2 ⟨["a"], "b", .text "", ?_, ?_, ?_, ?_⟩, hnodup⟩
  · decide +kernel
  · decide
  · rw [hp]
    rfl
  · decide +kernel

end Docsmith.Workspace
