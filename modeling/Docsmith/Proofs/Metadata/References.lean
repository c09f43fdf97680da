import Docsmith.Metadata.Loading
import Docsmith.Proofs.Workspace.Files
import Mathlib.Data.List.Perm.Subperm
import Mathlib.Logic.Relation

/-!
# Snapshots that name each other

The file of a snapshot names further files, these name others, and so on: a tree, in which a file
stands as often as it is named. Loading a file adds the snapshots of this tree in pre-order, up to
the first file that holds none. It ends where no file leads back to itself, as then no way down the
tree is longer than there are files.

* `ReferenceTree.Spells`: the tree of a file;
* `loadWithin_eq`: loading a file adds what its tree holds;
* `Above`: the files on a way down the tree, each once;
* `load_preorder`: what is loaded, and what is there after a failure.
-/

namespace Docsmith.Workspace.Entry

/-! ## The files of a tree -/

mutual

/-- The ways to the files of a tree. -/
def fileWays : Entry → List (List String)
  | file _ => [[]]
  | folder entries => fileWaysAll entries

def fileWaysAll : List (String × Entry) → List (List String)
  | [] => []
  | (name, e) :: rest => e.fileWays.map (name :: ·) ++ fileWaysAll rest

end

mutual

theorem length_fileWays : ∀ e : Entry, e.fileWays.length = e.count
  | file _ => rfl
  | folder entries => by
    rw [fileWays, count]
    exact length_fileWaysAll entries

theorem length_fileWaysAll : ∀ es : List (String × Entry), (fileWaysAll es).length = countAll es
  | [] => rfl
  | (name, e) :: rest => by
    rw [fileWaysAll, countAll, List.length_append, List.length_map, length_fileWays e,
      length_fileWaysAll rest]

end

theorem mem_fileWaysAll {entries : List (String × Entry)} {name : String} {e : Entry}
    {way : List String} (he : named? entries name = some e) (hw : way ∈ e.fileWays) :
    name :: way ∈ fileWaysAll entries := by
  induction entries with
  | nil => simp [named?] at he
  | cons x rest ih =>
    obtain ⟨n, e'⟩ := x
    rw [fileWaysAll, List.mem_append]
    rw [named?, List.find?_cons] at he
    by_cases hn : n = name
    · simp only [hn, decide_true, Option.map_some, Option.some.injEq] at he
      exact .inl (List.mem_map.2 ⟨way, he ▸ hw, by rw [hn]⟩)
    · simp only [hn, decide_false] at he
      exact .inr (ih he)

theorem mem_fileWays {root : Entry} {way : List String} {c : Content}
    (h : root.get? way = .ok (.file c)) : way ∈ root.fileWays := by
  induction way generalizing root with
  | nil =>
    obtain rfl := Except.ok.inj ((get?_nil root).symm.trans h)
    exact List.mem_singleton_self _
  | cons name way ih =>
    cases root with
    | file c' => simp [get?] at h
    | folder entries =>
      rw [get?] at h
      cases he : named? entries name with
      | none => simp [he] at h
      | some e =>
        rw [he] at h
        exact mem_fileWaysAll he (ih h)

end Docsmith.Workspace.Entry

namespace Docsmith.Metadata

open Docsmith.Workspace Relation

/-! ## What a file names -/

/-- What the file at a path holds: a snapshot, or the reason why it holds none. -/
def contentAt (root : Entry) (path : String) : Except Error Snapshot :=
  match root.readText [] path with
  | .error fault => .error (unreadable path fault)
  | .ok text => Snapshot.ofText text path

/-- The paths that are named at a path. -/
def namedAt (path : String) : Except Error Snapshot → List String
  | .ok x => x.referencePaths path
  | .error _ => []

/-- Where a file is in a folder, each path that is named in it leads where the reference leads from
this folder. -/
theorem forall₂_namedAt {root : Entry} {path name : String} {way : List String} {x : Snapshot}
    (hx : contentAt root path = .ok x) (hl : root.locate [] path = .ok (way ++ [name])) :
    List.Forall₂ (fun reference q => Path.isAbsolute reference = false →
      root.walk [] (Path.parts q) = root.walk way (Path.parts reference))
      x.references (namedAt path (contentAt root path)) := by
  rw [hx, namedAt, Snapshot.referencePaths, List.forall₂_map_right_iff, List.forall₂_same]
  intro reference _ hr
  rw [contentAt] at hx
  cases ht : root.readText [] path with
  | error fault => simp [ht] at hx
  | ok text =>
    obtain ⟨w, hw, hf⟩ := Entry.readText_eq_ok.1 ht
    obtain rfl := Except.ok.inj (hw.symm.trans hl)
    exact Entry.walk_join hl hf hr

/-- A file with those it names, each of them with those it names in turn. -/
inductive ReferenceTree where
  | node (path : String) (content : Except Error Snapshot) (named : List ReferenceTree)

namespace ReferenceTree

def path : ReferenceTree → String
  | node path _ _ => path

mutual

/-- What the files of a tree hold, each file before those it names. -/
def preorder : ReferenceTree → List (Except Error Snapshot)
  | node _ content named => content :: preorderAll named

def preorderAll : List ReferenceTree → List (Except Error Snapshot)
  | [] => []
  | t :: ts => preorder t ++ preorderAll ts

end

mutual

/-- How many files a way down a tree has at most. -/
def height : ReferenceTree → Nat
  | node _ _ named => heightAll named + 1

def heightAll : List ReferenceTree → Nat
  | [] => 0
  | t :: ts => max (height t) (heightAll ts)

end

/-- The tree is the one of its path: it has what the files hold, and below a file just those that
the file names, in order. -/
inductive Spells (root : Entry) : ReferenceTree → Prop
  | node {path : String} {named : List ReferenceTree} :
      named.map ReferenceTree.path = namedAt path (contentAt root path) →
      (∀ t ∈ named, Spells root t) → Spells root (.node path (contentAt root path) named)

theorem height_le_of_mem {t : ReferenceTree} {ts : List ReferenceTree} (h : t ∈ ts) :
    t.height ≤ heightAll ts := by
  induction ts with
  | nil => simp at h
  | cons u ts ih =>
    rw [heightAll]
    rcases List.mem_cons.1 h with rfl | h
    · exact Nat.le_max_left ..
    · exact (ih h).trans (Nat.le_max_right ..)

theorem heightAll_le {ts : List ReferenceTree} {n : Nat} (h : ∀ t ∈ ts, t.height ≤ n) :
    heightAll ts ≤ n := by
  induction ts with
  | nil => exact Nat.zero_le _
  | cons t ts ih =>
    exact Nat.max_le.2 ⟨h t (List.mem_cons_self ..), ih fun u hu => h u (List.mem_cons_of_mem _ hu)⟩

theorem eq_of_paths_eq {ts us : List ReferenceTree}
    (h : ∀ t ∈ ts, ∀ u ∈ us, t.path = u.path → t = u) (hp : ts.map path = us.map path) :
    ts = us := by
  induction ts generalizing us with
  | nil => exact (List.map_eq_nil_iff.1 hp.symm).symm
  | cons t ts ih =>
    cases us with
    | nil => simp at hp
    | cons u us =>
      obtain ⟨htu, hp⟩ := List.cons.inj hp
      rw [h t (List.mem_cons_self ..) u (List.mem_cons_self ..) htu,
        ih (fun t ht u hu => h t (List.mem_cons_of_mem _ ht) u (List.mem_cons_of_mem _ hu)) hp]

/-- There is one tree of a path only. -/
theorem Spells.unique {root : Entry} {t u : ReferenceTree} (ht : Spells root t)
    (hu : Spells root u) (hp : t.path = u.path) : t = u := by
  induction ht generalizing u with
  | @node path named hn _ ih =>
    cases hu with
    | @node path' named' hn' hs' =>
      obtain rfl : path = path' := hp
      rw [eq_of_paths_eq (fun t ht u hu => ih t ht (hs' u hu)) (hn.trans hn'.symm)]

theorem exists_trees {P : ReferenceTree → Prop} {paths : List String}
    (h : ∀ q ∈ paths, ∃ t : ReferenceTree, t.path = q ∧ P t) :
    ∃ ts : List ReferenceTree, ts.map path = paths ∧ ∀ t ∈ ts, P t := by
  induction paths with
  | nil => exact ⟨[], rfl, by simp⟩
  | cons q paths ih =>
    obtain ⟨t, ht, hP⟩ := h q (List.mem_cons_self ..)
    obtain ⟨ts, hts, hPs⟩ := ih fun p hp => h p (List.mem_cons_of_mem _ hp)
    exact ⟨t :: ts, by rw [List.map_cons, ht, hts], List.forall_mem_cons.2 ⟨hP, hPs⟩⟩

end ReferenceTree

namespace Session

/-- Adds snapshots in order up to a failure. -/
def addEach : List (Except Error Snapshot) → Session → Except Error Unit × Session
  | [], s => (.ok (), s)
  | .ok x :: contents, s => addEach contents (s.add x)
  | .error e :: _, s => (.error e, s)

theorem addEach_ok (snapshots : List Snapshot) (s : Session) :
    addEach (snapshots.map .ok) s = (.ok (), snapshots.foldl add s) := by
  induction snapshots generalizing s with
  | nil => rfl
  | cons x snapshots ih => exact ih (s.add x)

theorem addEach_error (snapshots : List Snapshot) (e : Error) (rest : List (Except Error Snapshot))
    (s : Session) :
    addEach (snapshots.map .ok ++ .error e :: rest) s = (.error e, snapshots.foldl add s) := by
  induction snapshots generalizing s with
  | nil => rfl
  | cons x snapshots ih => exact ih (s.add x)

theorem addEach_append (contents more : List (Except Error Snapshot)) (s : Session) :
    addEach (contents ++ more) s =
      match addEach contents s with
      | (.ok (), s) => addEach more s
      | (.error e, s) => (.error e, s) := by
  induction contents generalizing s with
  | nil => rfl
  | cons content contents ih =>
    cases content with
    | ok x => exact ih (s.add x)
    | error e => rfl

/-! ## Loading a tree -/

theorem loadEach_eq {load : String → Session → Id (Except Error Unit × Session)}
    {ts : List ReferenceTree} (h : ∀ t ∈ ts, ∀ s, load t.path s = addEach t.preorder s)
    (s : Session) :
    loadEach load (ts.map ReferenceTree.path) s = addEach (ReferenceTree.preorderAll ts) s := by
  induction ts generalizing s with
  | nil => rfl
  | cons t ts ih =>
    have ht := h t (List.mem_cons_self ..) s
    have ih := ih fun u hu => h u (List.mem_cons_of_mem _ hu)
    rw [List.map_cons, loadEach, ReferenceTree.preorderAll, addEach_append, ht]
    rcases addEach t.preorder s with ⟨⟨e⟩ | ⟨⟩, s'⟩
    · rfl
    · exact ih s'

theorem loadWithin_read (root : Entry) (depth : Nat) (path : String) (s : Session) :
    loadWithin root.files (depth + 1) path s =
      match root.readText [] path with
      | .error fault => (.error (unreadable path fault), s)
      | .ok text =>
        match Snapshot.ofText text path with
        | .error e => (.error e, s)
        | .ok x => loadEach (loadWithin root.files depth) (x.referencePaths path) (s.add x) :=
  rfl

theorem loadWithin_succ (root : Entry) (depth : Nat) (path : String) (s : Session) :
    loadWithin root.files (depth + 1) path s =
      match contentAt root path with
      | .ok x => loadEach (loadWithin root.files depth) (namedAt path (.ok x)) (s.add x)
      | .error e => (.error e, s) := by
  rw [loadWithin_read, contentAt]
  rcases root.readText [] path with fault | text
  · rfl
  · dsimp only
    cases Snapshot.ofText text path <;> rfl

/-- Loading as deep as the tree of a file is high adds what the tree holds, up to a failure. -/
theorem loadWithin_eq {root : Entry} {t : ReferenceTree} (ht : ReferenceTree.Spells root t)
    {depth : Nat} (hd : t.height ≤ depth) (s : Session) :
    loadWithin root.files depth t.path s = addEach t.preorder s := by
  induction ht generalizing depth s with
  | @node path named hn _ ih =>
    cases depth with
    | zero => simp [ReferenceTree.height] at hd
    | succ depth =>
      have hb : ReferenceTree.heightAll named ≤ depth := Nat.le_of_succ_le_succ hd
      have hnamed := loadEach_eq fun u hu s =>
        ih u hu ((ReferenceTree.height_le_of_mem hu).trans hb) s
      rw [hn] at hnamed
      rw [ReferenceTree.path, loadWithin_succ, ReferenceTree.preorder]
      generalize contentAt root path = content at hnamed
      cases content with
      | error e => rfl
      | ok x => exact hnamed (s.add x)

end Session

/-! ## Where no file leads back to itself -/

/-- What is at the first path names the second. -/
def Names (root : Entry) (p q : String) : Prop := q ∈ namedAt p (contentAt root p)

/-- Two paths to one file. -/
def SameFile (root : Entry) (p q : String) : Prop :=
  ∃ way, root.locate [] p = .ok way ∧ root.locate [] q = .ok way

/-- No file that is reached from a path leads back to itself, through any number of others. -/
def NoCycleFrom (root : Entry) (start : String) : Prop :=
  ∀ p q, ReflTransGen (Names root) start p → TransGen (Names root) p q → ¬SameFile root p q

instance (root : Entry) (p q : String) : Decidable (SameFile root p q) :=
  decidable_of_iff (∃ way ∈ (root.locate [] p).toOption, way ∈ (root.locate [] q).toOption) <| by
    rw [SameFile]
    cases root.locate [] p <;> cases root.locate [] q <;> simp [Except.toOption]

variable {root : Entry} {start path q : String} {above : List (List String)}

/-- There is no cycle where all paths that are named have a rank, which falls from a file to those
it names. -/
theorem noCycleFrom_of_rank {paths : List String} (rank : String → Nat) (hs : start ∈ paths)
    (hn : ∀ p ∈ paths, ∀ q ∈ namedAt p (contentAt root p), q ∈ paths ∧ rank q < rank p)
    (hf : ∀ p ∈ paths, ∀ q ∈ paths, SameFile root p q → rank p = rank q) :
    NoCycleFrom root start := by
  have hreach {p : String} (h : ReflTransGen (Names root) start p) : p ∈ paths := by
    induction h with
    | refl => exact hs
    | tail _ hq ih => exact (hn _ ih _ hq).1
  have hfall {p q : String} (hp : p ∈ paths) (h : TransGen (Names root) p q) :
      q ∈ paths ∧ rank q < rank p := by
    induction h with
    | single hq => exact hn _ hp _ hq
    | tail _ hq ih =>
      obtain ⟨hm, hlt⟩ := hn _ ih.1 _ hq
      exact ⟨hm, hlt.trans ih.2⟩
  intro p q hp hq hsame
  obtain ⟨hm, hlt⟩ := hfall (hreach hp) hq
  exact hlt.ne' (hf p (hreach hp) q hm hsame)

/-- Only files name others. -/
theorem exists_file_of_names (h : Names root path q) :
    ∃ way c, root.locate [] path = .ok way ∧ root.get? way = .ok (.file c) := by
  rw [Names, contentAt] at h
  cases hr : root.readText [] path with
  | error fault => simp [hr, namedAt] at h
  | ok text =>
    obtain ⟨way, hl, hf⟩ := Entry.readText_eq_ok.1 hr
    exact ⟨way, _, hl, hf⟩

/-- The files on a way down from a path to another, which is named by the last of them. -/
structure Above (root : Entry) (start : String) (above : List (List String)) (path : String) :
    Prop where
  reached : ReflTransGen (Names root) start path
  nodup : above.Nodup
  leads : ∀ way ∈ above, way ∈ root.fileWays ∧
    ∃ p, root.locate [] p = .ok way ∧ ReflTransGen (Names root) start p ∧
      TransGen (Names root) p path

theorem Above.nil : Above root path [] path :=
  ⟨.refl, .nil, by simp⟩

/-- There are no more files on a way than in the tree of files. -/
theorem Above.length_le (h : Above root start above path) : above.length ≤ root.count := by
  rw [← Entry.length_fileWays]
  exact (h.nodup.subperm fun way hw => (h.leads way hw).1).length_le

/-- A file that names another is not on the way to itself, so the way can be led on. -/
theorem Above.step (hc : NoCycleFrom root start) (h : Above root start above path)
    (hq : Names root path q) : ∃ way, Above root start (way :: above) q := by
  obtain ⟨way, c, hl, hf⟩ := exists_file_of_names hq
  refine ⟨way, h.reached.tail hq, List.nodup_cons.2 ⟨fun hw => ?_, h.nodup⟩,
    List.forall_mem_cons.2 ⟨?_, fun w hw => ?_⟩⟩
  · obtain ⟨-, p, hp, hr, ht⟩ := h.leads way hw
    exact hc p path hr ht ⟨way, hp, hl⟩
  · exact ⟨Entry.mem_fileWays hf, path, hl, h.reached, .single hq⟩
  · obtain ⟨hm, p, hp, hr, ht⟩ := h.leads w hw
    exact ⟨hm, p, hp, hr, ht.tail hq⟩

/-- The tree of a path is no higher than there are files left. -/
theorem exists_tree (hc : NoCycleFrom root start) (depth : Nat) :
    ∀ {above path}, Above root start above path → above.length + depth = root.count + 1 →
      ∃ t : ReferenceTree, t.path = path ∧ t.Spells root ∧ t.height ≤ depth := by
  induction depth with
  | zero =>
    intro above path h hd
    have := h.length_le
    omega
  | succ depth ih =>
    intro above path h hd
    have hbelow : ∀ q ∈ namedAt path (contentAt root path),
        ∃ t : ReferenceTree, t.path = q ∧ t.Spells root ∧ t.height ≤ depth := by
      intro q hq
      obtain ⟨way, hw⟩ := h.step hc hq
      exact ih hw (by rw [List.length_cons]; omega)
    obtain ⟨named, hn, hs⟩ := ReferenceTree.exists_trees hbelow
    refine ⟨.node path _ named, rfl, .node hn fun t ht => (hs t ht).1, ?_⟩
    exact Nat.succ_le_succ (ReferenceTree.heightAll_le fun t ht => (hs t ht).2)

/-- Where no file leads back to itself, the files named from a path on make a tree, in which each
reference is followed from the folder of the file that names it, and loading the path comes to
adding what this tree holds in pre-order: where all of it are snapshots, the session opened is the
one made of these; else loading fails as the first file without one says, and what precedes that
file has been added. -/
theorem load_preorder (hc : NoCycleFrom root path) :
    (∃ t : ReferenceTree, t.path = path ∧ t.Spells root) ∧
    (∀ p way name x, contentAt root p = .ok x → root.locate [] p = .ok (way ++ [name]) →
      List.Forall₂ (fun reference q => Path.isAbsolute reference = false →
        root.walk [] (Path.parts q) = root.walk way (Path.parts reference))
        x.references (namedAt p (contentAt root p))) ∧
    ∀ t : ReferenceTree, t.path = path → t.Spells root →
      (∀ snapshots : List Snapshot, t.preorder = snapshots.map .ok →
        Session.openFile root.files path = .ok (Session.ofSnapshots snapshots) ∧
        ∀ s, Session.load root.files path s = (.ok (), snapshots.foldl Session.add s)) ∧
      ∀ (snapshots : List Snapshot) e rest, t.preorder = snapshots.map .ok ++ .error e :: rest →
        Session.openFile root.files path = .error e ∧
        ∀ s, Session.load root.files path s = (.error e, snapshots.foldl Session.add s) := by
  obtain ⟨t, hp, ht, hd⟩ := exists_tree hc (root.count + 1) .nil (Nat.zero_add _)
  have hload (s : Session) : Session.load root.files path s = Session.addEach t.preorder s :=
    hp ▸ Session.loadWithin_eq ht hd s
  refine ⟨⟨t, hp, ht⟩, fun p way name x => forall₂_namedAt, fun u hu hs => ?_⟩
  obtain rfl := ht.unique hs (hp.trans hu.symm)
  refine ⟨fun snapshots h => ?_, fun snapshots e rest h => ?_⟩
  · have hl (s : Session) : Session.load root.files path s =
        (.ok (), snapshots.foldl Session.add s) := by
      rw [hload, h, Session.addEach_ok]
    refine ⟨?_, hl⟩
    rw [Session.openFile, hl]
    rfl
  · have hl (s : Session) : Session.load root.files path s =
        (.error e, snapshots.foldl Session.add s) := by
      rw [hload, h, Session.addEach_error]
    refine ⟨?_, hl⟩
    rw [Session.openFile, hl]
    rfl

/-! ## A file that is named twice -/

def appSnapshot : Snapshot := ⟨"app", ["lib/user.json", "lib/base.json", "gone.json"], []⟩

def userSnapshot : Snapshot := ⟨"user", ["base.json"], []⟩

def baseSnapshot : Snapshot := ⟨"base", [], []⟩

/-- Files of which the first names the two others, and one that is not there. -/
def appFolder : Entry := .folder
  [("app.json", .file (.text "\x7b\"module\":\"app\",
      \"references\":[\"lib/user.json\",\"lib/base.json\",\"gone.json\"]\x7d")),
    ("lib", .folder
      [("user.json", .file (.text "\x7b\"module\":\"user\",\"references\":[\"base.json\"]\x7d")),
        ("base.json", .file (.text "\x7b\"module\":\"base\"\x7d"))])]

/-- A text is read to a snapshot without types. -/
theorem contentAt_eq_ok {module : String} {references : List String}
    (h : (contentAt root path).toOption.map (fun x => (x.module, x.references, x.types.length)) =
      some (module, references, 0)) : contentAt root path = .ok ⟨module, references, []⟩ := by
  cases hc : contentAt root path with
  | error e => simp [hc, Except.toOption] at h
  | ok x =>
    obtain ⟨m, rs, ts⟩ := x
    simp only [hc, Except.toOption, Option.map_some, Option.some.injEq, Prod.mk.injEq,
      List.length_eq_zero_iff] at h
    rw [h.1, h.2.1, h.2.2]

theorem contentAt_app : contentAt appFolder "app.json" = .ok appSnapshot :=
  contentAt_eq_ok (by decide +kernel)

theorem contentAt_user : contentAt appFolder "lib/user.json" = .ok userSnapshot :=
  contentAt_eq_ok (by decide +kernel)

theorem contentAt_base : contentAt appFolder "lib/base.json" = .ok baseSnapshot :=
  contentAt_eq_ok (by decide +kernel)

theorem contentAt_gone :
    contentAt appFolder "gone.json" = .error (unreadable "gone.json" .missing) := rfl

theorem named_appFolder :
    namedAt "app.json" (contentAt appFolder "app.json") =
      ["lib/user.json", "lib/base.json", "gone.json"] ∧
    namedAt "lib/user.json" (contentAt appFolder "lib/user.json") = ["lib/base.json"] ∧
    namedAt "lib/base.json" (contentAt appFolder "lib/base.json") = [] ∧
    namedAt "gone.json" (contentAt appFolder "gone.json") = [] := by
  rw [contentAt_app, contentAt_user, contentAt_base, contentAt_gone]
  decide +kernel

theorem noCycleFrom_appFolder {start : String}
    (h : start ∈ ["gone.json", "lib/base.json", "lib/user.json", "app.json"]) :
    NoCycleFrom appFolder start := by
  obtain ⟨happ, huser, hbase, hgone⟩ := named_appFolder
  refine noCycleFrom_of_rank
    (["gone.json", "lib/base.json", "lib/user.json", "app.json"].idxOf ·) h ?_ (by decide +kernel)
  simp only [List.forall_mem_cons, happ, huser, hbase, hgone, List.not_mem_nil, false_implies,
    implies_true, and_true, true_and]
  decide

def baseReferences : ReferenceTree :=
  .node "lib/base.json" (contentAt appFolder "lib/base.json") []

def userReferences : ReferenceTree :=
  .node "lib/user.json" (contentAt appFolder "lib/user.json") [baseReferences]

def appReferences : ReferenceTree :=
  .node "app.json" (contentAt appFolder "app.json") [userReferences, baseReferences,
    .node "gone.json" (contentAt appFolder "gone.json") []]

theorem spells_userReferences : userReferences.Spells appFolder := by
  obtain ⟨-, huser, hbase, -⟩ := named_appFolder
  exact .node huser.symm (List.forall_mem_singleton.2 (.node hbase.symm (by simp)))

theorem spells_appReferences : appReferences.Spells appFolder := by
  obtain ⟨happ, -, hbase, hgone⟩ := named_appFolder
  refine .node happ.symm ?_
  simp only [List.forall_mem_cons]
  exact ⟨spells_userReferences, .node hbase.symm (by simp), .node hgone.symm (by simp), by simp⟩

/-- One of the files is loaded with the one it names. Another names both, and one that is not
there: these are there after the failure, the one named last twice. -/
theorem load_preorder_app :
    (NoCycleFrom appFolder "lib/user.json" ∧
      Session.openFile appFolder.files "lib/user.json" =
        .ok (Session.ofSnapshots [userSnapshot, baseSnapshot])) ∧
    NoCycleFrom appFolder "app.json" ∧ ∀ s, Session.load appFolder.files "app.json" s =
      (.error (unreadable "gone.json" .missing),
        [appSnapshot, userSnapshot, baseSnapshot, baseSnapshot].foldl Session.add s) := by
  have huser : userReferences.preorder = [userSnapshot, baseSnapshot].map .ok := by
    change [contentAt appFolder "lib/user.json", contentAt appFolder "lib/base.json"] = _
    rw [contentAt_user, contentAt_base]
    rfl
  have happ : appReferences.preorder =
      [appSnapshot, userSnapshot, baseSnapshot, baseSnapshot].map .ok ++
        [.error (unreadable "gone.json" .missing)] := by
    change [contentAt appFolder "app.json", contentAt appFolder "lib/user.json",
      contentAt appFolder "lib/base.json", contentAt appFolder "lib/base.json",
      contentAt appFolder "gone.json"] = _
    rw [contentAt_app, contentAt_user, contentAt_base, contentAt_gone]
    rfl
  have hcu : NoCycleFrom appFolder "lib/user.json" := noCycleFrom_appFolder (by simp)
  have hca : NoCycleFrom appFolder "app.json" := noCycleFrom_appFolder (by simp)
  exact ⟨⟨hcu, (((load_preorder hcu).2.2 _ rfl spells_userReferences).1 _ huser).1⟩,
    hca, (((load_preorder hca).2.2 _ rfl spells_appReferences).2 _ _ [] happ).2⟩

end Docsmith.Metadata
