import Docsmith.Proofs.Workspace.Relative
import Docsmith.Proofs.Workspace.Sources

/-!
# Calls on projects

Whatever is called on a project that has been opened, its documents have the texts that were written
last, and no call changes another document. They are listed once each as long as none is added that
is listed: the list grows with each addition, though the file at a path is one.

* `Succeeds.does`: what one call does;
* `Runs.sound`: what holds after a sequence of calls;
* `runs_lawful`: the texts and the list after a sequence of calls.
-/

namespace Docsmith.Workspace

open Docsmith.Path

/-! ## Calls -/

/-- What can be asked of a project. -/
inductive Call where
  | read (d : Document)
  | write (d : Document) (text : String)
  | add (name : String) (folders : List String) (text : String)

namespace Call

/-- The document a call is about. -/
def document : Call → Document
  | read d => d
  | write d _ => d
  | add name folders _ => ⟨join (joinAll folders) name⟩

/-- The text a call puts into its document. -/
def text? : Call → Option String
  | read _ => none
  | write _ text => some text
  | add _ _ text => some text

/-- The documents a call adds. -/
def added : Call → List Document
  | add name folders text => [(add name folders text).document]
  | _ => []

/-- The text that calls put last into the document of a key. -/
def lastText (calls : List Call) (key : List String) : Option String :=
  calls.reverse.findSome? fun c => if c.document.key = key then c.text? else none

theorem lastText_concat (calls : List Call) (c : Call) (key : List String) :
    lastText (calls ++ [c]) key =
      (if c.document.key = key then c.text? else none).or (lastText calls key) := by
  rw [lastText, List.reverse_append, List.reverse_singleton, List.singleton_append,
    List.findSome?_cons]
  cases (if c.document.key = key then c.text? else none) <;> rfl

end Call

variable {p q q' : Project} {c : Call} {calls : List Call} {d : Document} {text : String}

/-- A call that succeeds, on a document of the project or one that is added below its folder. -/
inductive Succeeds (p : Project) : Call → Project → Prop
  | read {d : Document} {text : String} : d ∈ p.documents → p.read d = .ok text →
      Succeeds p (.read d) p
  | write {d : Document} {text : String} {q : Project} : d ∈ p.documents →
      p.write d text = (.ok (), q) → Succeeds p (.write d text) q
  | add {name text : String} {folders : List String} {d : Document} {q : Project} :
      IsRelative (join (joinAll folders) name) → p.add name folders text = (.ok d, q) →
      Succeeds p (.add name folders text) q

/-- Calls that succeed one after the other. -/
inductive Runs (p : Project) : List Call → Project → Prop
  | nil : Runs p [] p
  | concat {calls : List Call} {c : Call} {q q' : Project} : Runs p calls q → Succeeds q c q' →
      Runs p (calls ++ [c]) q'

/-! ## One call -/

namespace Project

theorem seenPath_of_ne (h : d.path ≠ "") : seenPath d = d.path := by
  rw [seenPath, if_neg (by simpa using h)]

/-- What can be read of a document: the text of the file that its names lead to. -/
theorem read_relative (hr : IsRelative d.path) : p.read d = .ok text ↔
    Passable d.path ∧ p.tree.get? (p.way ++ d.key) = .ok (.file (.text text)) := by
  rw [read_eq_ok, Entry.readText_eq_ok]
  by_cases hd : d.path = ""
  · -- an empty path stands for the folder of the project
    have hseen : seenPath d = "./" := by rw [seenPath, hd]; rfl
    constructor
    · rintro ⟨w, hl, hg⟩
      rw [hseen] at hl
      obtain ⟨es, hes⟩ := Entry.hasFolder_iff.1 ((Entry.locate_eq_ok.1 hl).2.2 (by decide +kernel))
      rw [hg] at hes
      cases hes
    · rintro ⟨hp, -⟩
      have := hp.allowed
      rw [hd] at this
      cases this
  · rw [seenPath_of_ne hd]
    constructor
    · rintro ⟨w, h⟩
      obtain ⟨hp, rfl, hg⟩ := (Entry.locate_file_iff hr).1 h
      exact ⟨hp, hg⟩
    · rintro ⟨hp, hg⟩
      exact ⟨_, (Entry.locate_file_iff hr).2 ⟨hp, rfl, hg⟩⟩

theorem writeText_seenPath {root root' : Entry} {base : List String} (hr : IsRelative d.path)
    (h : root.writeText base (seenPath d) text = .ok root') :
    Passable d.path ∧ Entry.Writes root root' (base ++ d.key) (.text text) := by
  by_cases hd : d.path = ""
  · have hseen : seenPath d = "./" := by rw [seenPath, hd]; rfl
    obtain ⟨-, -, -, he, -⟩ := Entry.writeContent_eq_ok.1 h
    rw [hseen] at he
    exact absurd he (by decide +kernel)
  · rw [seenPath_of_ne hd] at h
    exact Entry.writeText_relative hr h

end Project

open Project

/-- What a call does. -/
structure Does (p : Project) (c : Call) (q : Project) : Prop where
  relative : IsRelative c.document.path
  way : q.way = p.way
  documents : q.documents = p.documents ++ c.added
  unchanged : c.text? = none → q = p
  written {text : String} : c.text? = some text → Passable c.document.path ∧
    Entry.Writes p.tree q.tree (p.way ++ c.document.key) (.text text)

theorem Succeeds.does (h : Succeeds p c q) (hr : ∀ d ∈ p.documents, IsRelative d.path) :
    Does p c q := by
  cases h with
  | read hd h => exact ⟨hr _ hd, rfl, (List.append_nil _).symm, fun _ => rfl, nofun⟩
  | @write d text q hd h =>
    obtain ⟨tree, hw, rfl⟩ := write_eq_ok h
    refine ⟨hr d hd, rfl, (List.append_nil _).symm, nofun, fun ht => ?_⟩
    obtain rfl := Option.some.inj ht
    exact writeText_seenPath (hr d hd) hw
  | @add name text folders d q hn h =>
    obtain ⟨rfl, made, tree, hk, hw, rfl, hway, hdocs⟩ := add_eq_ok h
    refine ⟨hn, hway, hdocs, nofun, fun ht => ?_⟩
    obtain rfl := Option.some.inj ht
    obtain ⟨hp, hw⟩ := writeText_seenPath hn hw
    exact ⟨hp, hk.writes hw⟩

/-- A file that the call is not about holds what it held. -/
theorem Does.get?_eq (h : Does p c q) {key : List String} (hne : key ≠ c.document.key)
    {content : Content} (hg : p.tree.get? (p.way ++ key) = .ok (.file content)) :
    q.tree.get? (q.way ++ key) = .ok (.file content) := by
  cases ht : c.text? with
  | none => rwa [h.unchanged ht]
  | some text =>
    rw [h.way]
    exact (h.written ht).2.other hg fun he => hne (List.append_cancel_left he)

/-! ## Sequences of calls -/

/-- What is kept by calls: all documents lead to files, which hold what was written last. -/
structure Sound (p : Project) (calls : List Call) (q : Project) : Prop where
  way : q.way = p.way
  documents : q.documents = p.documents ++ calls.flatMap Call.added
  relative : ∀ d ∈ q.documents, IsRelative d.path
  /-- A path that cannot be followed is at least the shortest one with its components. -/
  spelled : ∀ d ∈ q.documents, Passable d.path ∨ d.path = "/".intercalate d.key
  held : ∀ d ∈ q.documents, ∃ content, q.tree.get? (q.way ++ d.key) = .ok (.file content)
  written : ∀ d ∈ q.documents, ∀ text, Call.lastText calls d.key = some text →
    Passable d.path ∧ q.tree.get? (q.way ++ d.key) = .ok (.file (.text text))
  unwritten : ∀ d ∈ q.documents, Call.lastText calls d.key = none →
    q.tree.get? (q.way ++ d.key) = p.tree.get? (p.way ++ d.key)

theorem sound_nil (hr : ∀ d ∈ p.documents, IsRelative d.path)
    (hs : ∀ d ∈ p.documents, d.path = "/".intercalate d.key)
    (hf : ∀ d ∈ p.documents, ∃ content, p.tree.get? (p.way ++ d.key) = .ok (.file content)) :
    Sound p [] p where
  way := rfl
  documents := (List.append_nil _).symm
  relative := hr
  spelled d hd := .inr (hs d hd)
  held := hf
  written _ _ _ h := nomatch h
  unwritten _ _ _ := rfl

/-- A call that puts no text anywhere changes nothing. -/
theorem Sound.concat_read (h : Sound p calls q) (hd : Does q c q') (ht : c.text? = none) :
    Sound p (calls ++ [c]) q' := by
  obtain rfl := hd.unchanged ht
  have hadded : c.added = [] := by
    cases c with
    | add => cases ht
    | _ => rfl
  have hlast (key : List String) : Call.lastText (calls ++ [c]) key = Call.lastText calls key := by
    rw [Call.lastText_concat, ht, ite_self, Option.none_or]
  refine ⟨h.way, ?_, h.relative, h.spelled, h.held, fun d hd => ?_, fun d hd => ?_⟩
  · rw [List.flatMap_append, List.flatMap_singleton, hadded, List.append_nil]
    exact h.documents
  · rw [hlast]
    exact h.written d hd
  · rw [hlast]
    exact h.unwritten d hd

/-- A call that puts a text into a document changes the file of that one. -/
theorem Sound.concat_write (h : Sound p calls q) (hd : Does q c q') {text : String}
    (ht : c.text? = some text) : Sound p (calls ++ [c]) q' := by
  obtain ⟨hpass, hwrites⟩ := hd.written ht
  have hmem {d : Document} (hm : d ∈ q'.documents) : d ∈ q.documents ∨ d = c.document := by
    rw [hd.documents] at hm
    refine (List.mem_append.1 hm).imp_right fun hm => ?_
    cases c with
    | add => exact List.mem_singleton.1 hm
    | _ => cases hm
  -- any listed document at the path of the call can be followed: the call's own path can, and so
  -- can the shortest one with its components
  have hself {d : Document} (hm : d ∈ q'.documents) (hk : d.key = c.document.key) :
      Passable d.path ∧ q'.tree.get? (q'.way ++ d.key) = .ok (.file (.text text)) := by
    refine ⟨?_, by rw [hk, hd.way]; exact hwrites.self⟩
    rcases hmem hm with hm | rfl
    · rcases h.spelled d hm with hp | hs
      · exact hp
      · rw [hs, hk]
        exact hpass.intercalate hd.relative
    · exact hpass
  have hother {d : Document} (hm : d ∈ q'.documents) (hk : d.key ≠ c.document.key) :
      d ∈ q.documents := (hmem hm).resolve_right fun he => hk (congrArg Document.key he)
  have hlast (key : List String) : Call.lastText (calls ++ [c]) key =
      if c.document.key = key then some text else Call.lastText calls key := by
    rw [Call.lastText_concat, ht]
    split <;> simp
  refine ⟨hd.way.trans h.way, ?_, fun d hm => ?_, fun d hm => ?_, fun d hm => ?_,
    fun d hm t hl => ?_, fun d hm hl => ?_⟩
  · rw [hd.documents, h.documents, List.flatMap_append, List.flatMap_singleton, List.append_assoc]
  · rcases hmem hm with hm | rfl
    · exact h.relative d hm
    · exact hd.relative
  · rcases hmem hm with hm | rfl
    · exact h.spelled d hm
    · exact .inl hpass
  · by_cases hk : d.key = c.document.key
    · exact ⟨_, (hself hm hk).2⟩
    · obtain ⟨content, hg⟩ := h.held d (hother hm hk)
      exact ⟨content, hd.get?_eq hk hg⟩
  · rw [hlast] at hl
    by_cases hk : d.key = c.document.key
    · rw [if_pos hk.symm] at hl
      exact Option.some.inj hl ▸ hself hm hk
    · rw [if_neg (Ne.symm hk)] at hl
      obtain ⟨hp, hg⟩ := h.written d (hother hm hk) t hl
      exact ⟨hp, hd.get?_eq hk hg⟩
  · rw [hlast] at hl
    by_cases hk : d.key = c.document.key
    · rw [if_pos hk.symm] at hl
      cases hl
    · rw [if_neg (Ne.symm hk)] at hl
      obtain ⟨content, hg⟩ := h.held d (hother hm hk)
      rw [← h.unwritten d (hother hm hk) hl, hd.get?_eq hk hg, hg]

theorem Runs.sound (h : Runs p calls q) (hp : Sound p [] p) : Sound p calls q := by
  induction h with
  | nil => exact hp
  | @concat calls c q q' _ hstep ih =>
    have hd := hstep.does ih.relative
    cases ht : c.text? with
    | none => exact ih.concat_read hd ht
    | some text => exact ih.concat_write hd ht

/-- What a project is that has been opened. -/
theorem sound_ofFolder {root : String} {tree : Entry} {way : List String}
    {entries : List (String × Entry)} (hg : tree.get? way = .ok (.folder entries))
    (hp : (Entry.folder entries).Plain) (hd : (Entry.folder entries).Distinct) :
    Sound (ofFolder root tree way (.folder entries)) []
      (ofFolder root tree way (.folder entries)) := by
  have hmem {d : Document} (hm : d ∈ (ofFolder root tree way (.folder entries)).documents) :
      d.key ∈ sources (.folder entries) ∧ d.path = "/".intercalate d.key := by
    refine ⟨map_key_ofFolder root tree way hp ▸ List.mem_map_of_mem hm, ?_⟩
    obtain ⟨names, hn, rfl⟩ := List.mem_map.1 hm
    obtain ⟨hne, hnames⟩ := isFileName_of_mem_sources hp hn
    exact congrArg ("/".intercalate ·) (components_intercalate hne hnames).symm
  refine sound_nil (fun d hm => ?_) (fun d hm => (hmem hm).2) fun d hm => ?_
  · obtain ⟨hne, hnames⟩ := isFileName_of_mem_sources hp (hmem hm).1
    rw [(hmem hm).2]
    exact isRelative_intercalate hne hnames
  · obtain ⟨-, content, hc⟩ := (mem_sources hd).1 (hmem hm).1
    exact ⟨content, (Entry.get?_append_of_folder hg d.key).trans hc⟩

/-- The documents of a project that has been opened are listed, and those that calls add behind
them. They are listed once each exactly if no document is added that is listed. Each has the text
that was put into it last, or else the one it had, and no call changes the text of another. -/
theorem runs_lawful {tree : Entry} {root : String} (hplain : tree.Plain) (hdistinct : tree.Distinct)
    (ho : Project.openFolder tree.files root = Except.ok p) (h : Runs p calls q) :
    (∀ d, d ∈ q.documents ↔ d ∈ p.documents ∨ ∃ c ∈ calls, d ∈ c.added) ∧
    ((q.documents.map Document.key).Nodup ↔
      ((calls.flatMap Call.added).map Document.key).Nodup ∧
        ∀ c ∈ calls, ∀ d ∈ c.added, ∀ e ∈ p.documents, d.key ≠ e.key) ∧
    (∀ d ∈ q.documents, ∀ text, Call.lastText calls d.key = some text → q.read d = .ok text) ∧
    (∀ d ∈ q.documents, Call.lastText calls d.key = none →
      ∀ text, q.read d = .ok text ↔ p.read d = .ok text) ∧
    ∀ c q', Succeeds q c q' → ∀ d ∈ q.documents, d.key ≠ c.document.key →
      d ∈ q'.documents ∧ ∀ text, q'.read d = .ok text ↔ q.read d = .ok text := by
  obtain ⟨way, entries, hl, hg, rfl⟩ := openFolder_eq_ok.1 ho
  have hpf := hplain.get? hg
  have hdf : (Entry.folder entries).Distinct := hdistinct.get? hg
  have hsound := h.sound (sound_ofFolder hg hpf hdf)
  have hnodup : ((ofFolder root tree way (.folder entries)).documents.map Document.key).Nodup :=
    map_key_ofFolder root tree way hpf ▸ nodup_sources hdf
  refine ⟨fun d => ?_, ?_, fun d hd text ht => ?_, fun d hd ht text => ?_,
    fun c q' hstep d hd hne => ?_⟩
  · rw [hsound.documents, List.mem_append, List.mem_flatMap]
  · rw [hsound.documents, List.map_append, List.nodup_append]
    constructor
    · rintro ⟨-, hadded, hapart⟩
      refine ⟨hadded, fun c hc d hd e he heq => ?_⟩
      exact hapart _ (List.mem_map_of_mem he) _
        (List.mem_map_of_mem (List.mem_flatMap.2 ⟨c, hc, hd⟩)) heq.symm
    · rintro ⟨hadded, hapart⟩
      refine ⟨hnodup, hadded, List.forall_mem_map.2 fun e he => ?_⟩
      refine List.forall_mem_map.2 fun d hd => ?_
      obtain ⟨c, hc, hd⟩ := List.mem_flatMap.1 hd
      exact (hapart c hc d hd e he).symm
  · exact (read_relative (hsound.relative d hd)).2 (hsound.written d hd text ht)
  · rw [read_relative (hsound.relative d hd), read_relative (hsound.relative d hd),
      hsound.unwritten d hd ht]
  · have hdoes := hstep.does hsound.relative
    refine ⟨hdoes.documents ▸ List.mem_append_left _ hd, fun text => ?_⟩
    obtain ⟨content, hc⟩ := hsound.held d hd
    rw [read_relative (hsound.relative d hd), read_relative (hsound.relative d hd),
      hdoes.get?_eq hne hc, hc]

/-! ## A document that is added again -/

/-- A folder with one source. -/
def singleTree : Entry := .folder [("a.rs", .file (.text "x"))]

def singleProject : Project := ⟨".", singleTree, [], [⟨"a.rs"⟩], []⟩

theorem openFolder_singleTree :
    Project.openFolder singleTree.files "." = Except.ok singleProject := by
  refine openFolder_eq_ok.2 ⟨[], _, by decide +kernel, rfl, ?_⟩
  rw [ofFolder, sources_folder, Entry.sortedAll_eq_map, List.map_singleton,
    List.mergeSort_singleton]
  rfl

theorem exists_runs_add (p : Project) {name : String} {folders : List String} (text : String)
    (hf : ∀ n ∈ folders, IsRelative n) (hn : IsRelative name)
    (h : (p.add name folders text).1.isOk = true) : ∃ q, Runs p [.add name folders text] q ∧
      q.documents = p.documents ++ [⟨join (joinAll folders) name⟩] := by
  cases ha : p.add name folders text with
  | mk answer q =>
    rw [ha] at h
    cases answer with
    | error e => cases h
    | ok d =>
      obtain ⟨rfl, _, _, -, -, -, -, hdocs⟩ := add_eq_ok ha
      exact ⟨q, .concat .nil (.add ((isRelative_joinAll hf).join hn) ha), hdocs⟩

theorem runs_lawful_single : ∃ q, Runs singleProject [.add "b.rs" ["d"] "y"] q ∧
    (q.documents.map Document.key).Nodup ∧ q.read ⟨"d/b.rs"⟩ = .ok "y" ∧
    ∀ text, q.read ⟨"a.rs"⟩ = .ok text ↔ singleProject.read ⟨"a.rs"⟩ = .ok text := by
  obtain ⟨q, hq, -⟩ : ∃ q, Runs singleProject [.add "b.rs" ["d"] "y"] q ∧ _ :=
    exists_runs_add singleProject "y" (by decide +kernel) (by decide +kernel) (by decide +kernel)
  have hplain : singleTree.Plain :=
    Entry.plain_folder (by decide +kernel) (List.forall_mem_singleton.2 (.file _))
  have hdistinct : singleTree.Distinct :=
    .folder (by decide) (List.forall_mem_singleton.2 (.file _))
  obtain ⟨hmem, hnodup, hwritten, hkept, -⟩ :=
    runs_lawful hplain hdistinct openFolder_singleTree hq
  have hb : (⟨"d/b.rs"⟩ : Document) ∈ q.documents :=
    (hmem _).2 (.inr ⟨_, List.mem_singleton_self _, by decide +kernel⟩)
  have ha : (⟨"a.rs"⟩ : Document) ∈ q.documents := (hmem _).2 (.inl (by decide +kernel))
  exact ⟨q, hq, hnodup.2 ⟨by decide +kernel, by decide +kernel⟩,
    hwritten _ hb _ (by decide +kernel), hkept _ ha (by decide +kernel)⟩

/-- The file of a document that is listed and added again is one, but the document is listed
twice. -/
theorem add_lists_twice : ∃ p q, Project.openFolder singleTree.files "." = Except.ok p ∧
    Runs p [.add "a.rs" [] "y"] q ∧ q.documents = [⟨"a.rs"⟩, ⟨"a.rs"⟩] ∧
    ¬(q.documents.map Document.key).Nodup := by
  obtain ⟨q, hq, hadded⟩ : ∃ q, Runs singleProject [.add "a.rs" [] "y"] q ∧ _ :=
    exists_runs_add singleProject "y" nofun (by decide +kernel) (by decide +kernel)
  have hdocs : q.documents = [⟨"a.rs"⟩, ⟨"a.rs"⟩] := hadded.trans (by decide +kernel)
  refine ⟨singleProject, q, openFolder_singleTree, hq, hdocs, ?_⟩
  rw [hdocs]
  decide +kernel

end Docsmith.Workspace
