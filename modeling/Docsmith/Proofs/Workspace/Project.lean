import Docsmith.Proofs.Workspace.Files
import Docsmith.Proofs.Workspace.Lawful
import Docsmith.Workspace.Project

/-!
# Projects are lawful

The documents of a project are looked for by following their paths in its tree of files.

* `Project.separate_ofFolder`: a project that has just been opened has no two documents at one
  place.
-/

namespace Docsmith.Workspace.Project

variable {p p' : Project} {d e : Document} {text : String}

theorem fileName?_seenPath (d : Document) :
    Path.fileName? (seenPath d) = Path.fileName? d.path := by
  rw [seenPath]
  split
  · rename_i h
    rw [String.isEmpty_iff.1 h]
    decide
  · rfl

theorem read_eq_ok : p.read d = .ok text ↔ p.tree.readText p.way (seenPath d) = .ok text := by
  rw [read]
  cases p.tree.readText p.way (seenPath d) with
  | error f => simp
  | ok t => simp

theorem write_eq_ok (h : p.write d text = (.ok (), p')) :
    ∃ tree, p.tree.writeText p.way (seenPath d) text = .ok tree ∧
      p' = { p with tree, changes := (d, text) :: p.changes } := by
  rw [write] at h
  cases hw : p.tree.writeText p.way (seenPath d) text with
  | error f =>
    rw [hw] at h
    exact absurd (Prod.mk.inj h).1 (by simp)
  | ok tree =>
    rw [hw] at h
    exact ⟨tree, rfl, (Prod.mk.inj h).2.symm⟩

/-- What has been added: the folders are made, and the document is written there. -/
theorem add_eq_ok {name : String} {folders : List String}
    (h : p.add name folders text = (.ok d, p')) :
    d = ⟨Path.join (Path.joinAll folders) name⟩ ∧ ∃ made tree, Entry.Keeps p.tree made ∧
      made.writeText p.way (seenPath d) text = .ok tree ∧ p'.tree = tree ∧ p'.way = p.way ∧
      p'.documents = p.documents ++ [d] := by
  unfold add at h
  dsimp only at h
  have hk : Entry.Keeps p.tree (p.tree.makeFolders p.way
      ((Path.parent? (Path.join (Path.joinAll folders) name)).getD "")).2 :=
    Entry.keeps_makeEach _ _ _
  generalize p.tree.makeFolders p.way
    ((Path.parent? (Path.join (Path.joinAll folders) name)).getD "") = made at h hk
  obtain ⟨answer, made⟩ := made
  cases answer with
  | error f => exact absurd (Prod.mk.inj h).1 (by simp)
  | ok u =>
    dsimp only at h
    split at h
    · rename_i q hw
      obtain ⟨hd, rfl⟩ := Prod.mk.inj h
      obtain rfl := Except.ok.inj hd
      obtain ⟨tree, ht, rfl⟩ := write_eq_ok hw
      exact ⟨rfl, made, tree, hk, ht, rfl, rfl, rfl⟩
    · exact absurd (Prod.mk.inj h).1 (by simp)

theorem isInput_add {name : String} {folders : List String} {e : Error}
    (h : p.add name folders text = (.error e, p')) : e.isInput = false := by
  unfold add at h
  dsimp only at h
  split at h
  · obtain rfl := Except.error.inj (Prod.mk.inj h).1
    rfl
  · unfold write at h
    split at h
    · exact absurd (Prod.mk.inj h).1 (by simp)
    · rename_i hw
      obtain rfl := Except.error.inj (Prod.mk.inj h).1
      split at hw
      · exact absurd (Prod.mk.inj hw).1 (by simp)
      · obtain rfl := Except.error.inj (Prod.mk.inj hw).1
        rfl

instance : LawfulStore Project where
  place p d := (p.tree.locate p.way (seenPath d)).toOption
  read_of_place {p d e text} h hp := by
    obtain ⟨w, hl, hg⟩ := Entry.readText_eq_ok.1 (read_eq_ok.1 h)
    rw [hl] at hp
    refine read_eq_ok.2 (Entry.readText_eq_ok.2 ⟨w, ?_, hg⟩)
    cases hl' : p.tree.locate p.way (seenPath e) with
    | error f =>
      rw [hl'] at hp
      simp [Except.toOption] at hp
    | ok w' =>
      rw [hl'] at hp
      rw [Option.some.inj hp]
  write_of_read {p d old} text h := by
    obtain ⟨tree, hw, hl, hr⟩ := Entry.writeText_of_readText text (read_eq_ok.1 h)
    refine ⟨{ p with tree, changes := (d, text) :: p.changes }, ?_, rfl, fun e => ?_,
      fun e => ?_⟩
    · change p.write d text = _
      rw [write, hw]
    · exact congrArg Except.toOption (hl p.way (seenPath e))
    · have hr := hr p.way (seenPath e)
      change Project.read _ e = if _ then _ else p.read e
      rw [read, read]
      dsimp only
      by_cases hp : (p.tree.locate p.way (seenPath e)).toOption =
          (p.tree.locate p.way (seenPath d)).toOption
      · rw [hr, if_pos hp, if_pos hp]
      · rw [hr, if_neg hp, if_neg hp]
        rfl
  add_eq {p p' name text folders d} h := by
    obtain ⟨hd, made, tree, -, hw, ht, hway, -⟩ := add_eq_ok h
    refine ⟨hd, read_eq_ok.2 ?_⟩
    rw [ht, hway]
    exact (Entry.readText_of_writeText hw).1
  mem_documents_add {p p' name text folders d e} h he := by
    obtain ⟨-, _, _, -, -, -, -, hdocs⟩ := add_eq_ok h
    have he : e ∈ p'.documents := he
    rw [hdocs] at he
    exact (List.mem_append.1 he).imp_right List.mem_singleton.1
  documents_add {p p' name text folders d} h := by
    obtain ⟨-, _, _, -, -, -, -, hdocs⟩ := add_eq_ok h
    change (∀ e ∈ p.documents, e ∈ p'.documents) ∧ (_ → d ∈ p'.documents)
    rw [hdocs]
    exact ⟨fun e he => List.mem_append_left _ he, fun _ => by simp⟩
  isInput_add h := isInput_add h
  read_add {p p' name text old folders d e} h he hn := by
    obtain ⟨-, made, tree, hk, hw, ht, hway, -⟩ := add_eq_ok h
    have hold := hk.readText (read_eq_ok.1 he)
    refine read_eq_ok.2 ?_
    rw [ht, hway]
    refine (Entry.readText_of_writeText hw).2 _ _ _ hold fun hf => hn ?_
    rw [fileName?_seenPath, fileName?_seenPath] at hf
    rw [Document.name, Document.name, hf]

/-- Documents at the place of one that can be read have its name. -/
theorem name_of_place (h : DocumentStore.read p d = .ok text)
    (hp : LawfulStore.place p e = LawfulStore.place p d) : e.name = d.name := by
  obtain ⟨w, hl, hg⟩ := Entry.readText_eq_ok.1 (read_eq_ok.1 h)
  have hle : (p.tree.locate p.way (seenPath e)).toOption = some w :=
    hp.trans (congrArg Except.toOption hl)
  cases he : p.tree.locate p.way (seenPath e) with
  | error f =>
    rw [he] at hle
    cases hle
  | ok w' =>
    rw [he] at hle
    obtain rfl := Option.some.inj hle
    obtain ⟨way, name, rfl, -, -, -, hname⟩ := Entry.locate_file hl hg
    obtain ⟨way', name', hw, -, -, -, hname'⟩ := Entry.locate_file he hg
    obtain rfl := List.singleton_inj.1 (List.append_inj' hw rfl).2
    rw [fileName?_seenPath] at hname hname'
    rw [Document.name, Document.name, hname, hname']

end Docsmith.Workspace.Project

/-! ## Projects that have been opened -/

namespace Docsmith.Workspace

/-- No name in a tree is empty or holds a separator. -/
inductive Entry.Plain : Entry → Prop
  | file (c : Content) : Plain (.file c)
  | folder {entries : List (String × Entry)} :
      (∀ x ∈ entries, x.1.toList ≠ [] ∧ ∀ c ∈ x.1.toList, Path.isSeparator c = false) →
      (∀ x ∈ entries, Plain x.2) → Plain (.folder entries)

/-- Whether names are plain can be computed. -/
theorem Entry.plain_folder {entries : List (String × Entry)}
    (h : entries.all fun x => !x.1.isEmpty && x.1.toList.all fun c => !Path.isSeparator c)
    (hp : ∀ x ∈ entries, x.2.Plain) : (Entry.folder entries).Plain := by
  refine .folder (fun x hx => ?_) hp
  have hx := List.all_eq_true.1 h x hx
  rw [Bool.and_eq_true, List.all_eq_true, Bool.not_eq_true'] at hx
  refine ⟨fun hnil => ?_, fun c hc => by simpa using hx.2 c hc⟩
  rw [String.toList_eq_nil_iff.1 hnil] at hx
  exact absurd hx.1 (by decide)

/-- What passes from folders to their entries passes along ways. -/
theorem Entry.get?_passes {P : Entry → Prop}
    (h : ∀ entries, P (.folder entries) → ∀ x ∈ entries, P x.2) {root e : Entry}
    {way : List String} (hr : P root) (hg : root.get? way = .ok e) : P e := by
  induction way generalizing root with
  | nil =>
    rw [Entry.get?_nil] at hg
    exact Except.ok.inj hg ▸ hr
  | cons name way ih =>
    cases root with
    | file c => cases hg
    | folder entries =>
      rw [Entry.get?, Entry.named?] at hg
      cases hf : entries.find? (·.1 = name) with
      | none =>
        rw [hf] at hg
        cases hg
      | some x =>
        rw [hf] at hg
        exact ih (h entries hr x (List.mem_of_find?_eq_some hf)) hg

theorem Entry.Plain.get? {root e : Entry} {way : List String} (h : root.Plain)
    (hg : root.get? way = .ok e) : e.Plain := by
  refine Entry.get?_passes (fun entries hp => ?_) h hg
  cases hp with
  | folder _ hes => exact hes

/-- What a project is that has been opened in a tree. -/
theorem Project.openFolder_eq_ok {tree : Entry} {root : String} {p : Project} :
    Project.openFolder tree.files root = Except.ok p ↔
      ∃ way entries, tree.locate [] root = .ok way ∧ tree.get? way = .ok (.folder entries) ∧
        p = ofFolder root tree way (.folder entries) := by
  unfold Project.openFolder Entry.files
  dsimp only
  cases hl : tree.locate [] root with
  | error f => exact ⟨nofun, fun ⟨_, _, h, _⟩ => nomatch h⟩
  | ok way =>
    dsimp only [Except.map, bind, pure]
    cases hg : tree.get? way with
    | error f => simp [hg]
    | ok e =>
      cases e with
      | file c => simp [hg]
      | folder entries =>
        simp only [Except.ok.injEq, Entry.folder.injEq, exists_and_left, exists_eq_left', hg]
        exact ⟨fun h => (Except.ok.inj h).symm, fun h => congrArg Except.ok h.symm⟩

theorem Entry.sortedAll_eq_map (entries : List (String × Entry)) :
    sortedAll entries = entries.map fun x => (x.1, x.2.sorted) := by
  induction entries with
  | nil => rfl
  | cons x entries ih =>
    obtain ⟨name, e⟩ := x
    rw [sortedAll, ih, List.map_cons]

theorem Entry.Plain.sorted {e : Entry} (h : e.Plain) : e.sorted.Plain := by
  induction h with
  | file c =>
    rw [Entry.sorted]
    exact .file c
  | @folder entries hn _ ih =>
    have hmem {x : String × Entry}
        (hx : x ∈ (sortedAll entries).mergeSort fun a b => a.1 ≤ b.1) :
        ∃ y ∈ entries, x = (y.1, y.2.sorted) := by
      rw [(List.mergeSort_perm _ _).mem_iff, sortedAll_eq_map] at hx
      obtain ⟨y, hy, hxy⟩ := List.mem_map.1 hx
      exact ⟨y, hy, hxy.symm⟩
    rw [Entry.sorted]
    refine .folder (fun x hx => ?_) fun x hx => ?_
    · obtain ⟨y, hy, rfl⟩ := hmem hx
      exact hn y hy
    · obtain ⟨y, hy, rfl⟩ := hmem hx
      exact ih y hy

/-- Dots are no names of sources and of folders with sources. -/
theorem isDots_of_isSource {name : String} (h : isSource name = true) :
    Path.isDots name = false := by
  by_contra hd
  rw [Bool.not_eq_false, Path.isDots, Bool.or_eq_true, decide_eq_true_eq, decide_eq_true_eq] at hd
  rcases hd with rfl | rfl
  · revert h
    decide
  · revert h
    decide

theorem isDots_of_not_isSkipped {name : String} (h : isSkipped name = false) :
    Path.isDots name = false := by
  by_contra hd
  rw [Bool.not_eq_false, Path.isDots, Bool.or_eq_true, decide_eq_true_eq, decide_eq_true_eq] at hd
  rcases hd with rfl | rfl
  · revert h
    decide +kernel
  · revert h
    decide +kernel

mutual

/-- The ways to sources go on by names. -/
theorem mem_sourcesBelow {above way : List String} : ∀ {entries : List (String × Entry)},
    (∀ x ∈ entries, x.1.toList ≠ [] ∧ ∀ c ∈ x.1.toList, Path.isSeparator c = false) →
    (∀ x ∈ entries, x.2.Plain) → way ∈ sourcesBelow above entries →
      ∃ names, way = above ++ names ∧ names ≠ [] ∧ ∀ n ∈ names, Path.IsFileName n
  | [], _, _, hw => nomatch hw
  | (name, e) :: rest, hn, hp, hw => by
    obtain ⟨hname, hnames⟩ := List.forall_mem_cons.1 hn
    obtain ⟨he, hrest⟩ := List.forall_mem_cons.1 hp
    rw [sourcesBelow] at hw
    rcases List.mem_append.1 hw with hw | hw
    · obtain ⟨hdots, names, rfl, hmore⟩ := mem_sourcesAt he hw
      refine ⟨name :: names, by simp, List.cons_ne_nil _ _, ?_⟩
      exact List.forall_mem_cons.2 ⟨⟨hname.1, hname.2, hdots⟩, hmore⟩
    · exact mem_sourcesBelow hnames hrest hw

theorem mem_sourcesAt {way more : List String} {name : String} : ∀ {e : Entry}, e.Plain →
    more ∈ sourcesAt way name e →
      Path.isDots name = false ∧ ∃ names, more = way ++ names ∧ ∀ n ∈ names, Path.IsFileName n
  | .file c, _, hw => by
    rw [sourcesAt] at hw
    split at hw
    · rename_i hs
      obtain rfl := List.mem_singleton.1 hw
      exact ⟨isDots_of_isSource hs, [], by simp, by simp⟩
    · cases hw
  | .folder entries, hp, hw => by
    rw [sourcesAt] at hw
    split at hw
    · cases hw
    · rename_i hs
      cases hp with
      | folder hn hp =>
        obtain ⟨names, hnames, -, hmore⟩ := mem_sourcesBelow hn hp hw
        exact ⟨isDots_of_not_isSkipped (by simpa using hs), names, hnames, hmore⟩

end

/-- A walk along names only goes down. -/
theorem Entry.walk_names {root : Entry} {way names w : List String}
    (hn : ∀ n ∈ names, Path.IsFileName n) (h : root.walk way names = .ok w) :
    w = way ++ names := by
  induction names generalizing way with
  | nil =>
    rw [List.append_nil]
    exact (Except.ok.inj h).symm
  | cons name names ih =>
    obtain ⟨hname, hnames⟩ := List.forall_mem_cons.1 hn
    have hdots := hname.no_dots
    obtain ⟨es, -, ⟨rfl, -⟩ | ⟨-, rfl, -⟩ | ⟨-, -, -, hw⟩⟩ := Entry.walk_cons.1 h
    · cases hdots
    · cases hdots
    · rw [ih hnames hw, List.append_assoc]
      rfl

/-- All names on the way to a source can stand in paths. -/
theorem isFileName_of_mem_sources {folder : Entry} (hp : folder.Plain) {names : List String}
    (h : names ∈ sources folder) : names ≠ [] ∧ ∀ n ∈ names, Path.IsFileName n := by
  have hsorted := hp.sorted
  rw [sources] at h
  generalize folder.sorted = listed at hsorted h
  cases hsorted with
  | file c => nomatch h
  | folder hes hps =>
    obtain ⟨names', rfl, hne, hnames⟩ := mem_sourcesBelow hes hps h
    exact ⟨hne, hnames⟩

/-- The documents of a folder lie at different places. -/
theorem Project.separate_ofFolder (root : String) (tree : Entry) (way : List String)
    {folder : Entry} (hp : folder.Plain) : Separate (ofFolder root tree way folder) := by
  have hmem {d : Document} (hd : d ∈ DocumentStore.documents (ofFolder root tree way folder)) :
      ∃ names, d.path = "/".intercalate names ∧ Path.parts (seenPath d) = names ∧
        ∀ n ∈ names, Path.IsFileName n := by
    obtain ⟨names, hn, rfl⟩ := List.mem_map.1 hd
    obtain ⟨hne, hnames⟩ := isFileName_of_mem_sources hp hn
    have hparts := Path.parts_intercalate hne hnames
    refine ⟨names, rfl, ?_, hnames⟩
    rw [seenPath, if_neg]
    · exact hparts
    · intro hempty
      have hnil : "/".intercalate names = "" := String.isEmpty_iff.1 hempty
      rw [hnil] at hparts
      exact hne hparts.symm
  intro d hd e he text hr hplace
  obtain ⟨ns, hdp, hdn, hns⟩ := hmem hd
  obtain ⟨ms, hep, hen, hms⟩ := hmem he
  obtain ⟨w, hl, -⟩ := Entry.readText_eq_ok.1 (read_eq_ok.1 hr)
  have hlocated : (tree.locate way (seenPath e)).toOption = some w :=
    hplace.trans (congrArg Except.toOption hl)
  have hwd := (Entry.locate_eq_ok.1 hl).2.1
  rw [hdn] at hwd
  cases hle : tree.locate way (seenPath e) with
  | error f =>
    rw [hle] at hlocated
    cases hlocated
  | ok w' =>
    rw [hle] at hlocated
    obtain rfl := Option.some.inj hlocated
    have hwe := (Entry.locate_eq_ok.1 hle).2.1
    rw [hen] at hwe
    have hsame := (Entry.walk_names hms hwe).symm.trans (Entry.walk_names hns hwd)
    have hpaths : e.path = d.path := by rw [hep, hdp, List.append_cancel_left hsame]
    exact congrArg Document.mk hpaths

end Docsmith.Workspace
