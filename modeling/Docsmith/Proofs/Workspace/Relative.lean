import Docsmith.Proofs.Text.Bytes
import Docsmith.Proofs.Workspace.Names
import Docsmith.Proofs.Workspace.Project

/-!
# Where paths lead that lead down

A path whose components are all names leads to the same place in every tree that has something
there. Single dots and separators that do not count can keep such a path from being followed only
at its end, or by its length.

* `locate_file_iff`: where such a path leads to a file;
* `Passable.intercalate`: if a path can be followed, so can the shortest one with its components;
* `writeText_relative`: what is written at such a path.
-/

namespace Docsmith.Workspace

open Docsmith.Path Docsmith.Text

/-! ## Paths that can be followed -/

/-- A path to a file that can be followed. -/
structure Passable (path : String) : Prop where
  allowed : Entry.refuse? path = none
  short : ∀ n ∈ components path, n.utf8ByteSize ≤ Entry.maxName
  no_slash : path.endsWith "/" = false
  no_dot : (parts path).getLast? ≠ some "."

variable {path : String}

/-- If a path can be followed, so can the shortest one with its components. -/
theorem Passable.intercalate (h : Passable path) (hr : IsRelative path) :
    Passable ("/".intercalate (components path)) := by
  obtain ⟨hnull, hlong, hne, -⟩ := Entry.refuse?_eq_none.1 h.allowed
  obtain ⟨name, -, -, hcomponents⟩ := hr.exists_last hne h.no_dot
  have hnames : components path ≠ [] := by simp [hcomponents]
  have hn := hr.isFileName
  have hsub := hr.intercalate_sublist
  have hparts := parts_intercalate hnames hn
  refine ⟨Entry.refuse?_eq_none.2 ⟨fun hm => hnull (hsub.subset hm),
    Nat.lt_of_le_of_lt (utf8ByteSize_le_of_sublist hsub) hlong, ?_, isAbsolute_intercalate hn⟩,
    ?_, ?_, ?_⟩
  · intro hempty
    rw [hempty] at hparts
    exact hnames hparts.symm
  · rw [components_intercalate hnames hn]
    exact h.short
  · -- behind a separator at the end there would be an empty piece
    rw [← Bool.not_eq_true, endsWith_separator]
    rintro ⟨start, hs⟩
    have hpieces := piecesBy_intercalate hnames hn
    rw [hs, piecesBy_append rfl] at hpieces
    have hmem : [] ∈ (components path).map String.toList := by
      rw [← hpieces]
      exact List.mem_append_right _ (List.mem_singleton_self _)
    obtain ⟨n, hmem, hnil⟩ := List.mem_map.1 hmem
    exact (hn n hmem).nonempty hnil
  · rw [hparts]
    intro hl
    exact absurd (hn "." (List.mem_of_getLast? hl)).no_dots (by decide)

namespace Entry

variable {root root' : Entry} {base way w names : List String} {c : Content}

/-- A walk along short names goes down to what is at the end of the way. -/
theorem walk_of_get? {e : Entry} (hn : ∀ n ∈ names, IsFileName n ∧ n.utf8ByteSize ≤ maxName)
    (hg : root.get? (way ++ names) = .ok e) : root.walk way names = .ok (way ++ names) := by
  induction names generalizing way with
  | nil =>
    rw [List.append_nil]
    rfl
  | cons n names ih =>
    obtain ⟨⟨hname, hshort⟩, hnames⟩ := List.forall_mem_cons.1 hn
    obtain ⟨es, hes⟩ := hasFolder_iff.1 (hasFolder_of_get?_append hg)
    rw [List.append_cons] at hg ⊢
    refine walk_cons.2 ⟨es, hes, .inr (.inr ⟨hname.no_dots, hshort, ?_, ih hnames hg⟩)⟩
    rw [get?_append, get?_concat_of_folder hes] at hg
    cases hf : named? es n with
    | none =>
      rw [hf] at hg
      cases hg
    | some e => rfl

theorem short_of_walk (hn : ∀ n ∈ names, IsFileName n) (h : root.walk way names = .ok w) :
    ∀ n ∈ names, n.utf8ByteSize ≤ maxName := by
  induction names generalizing way with
  | nil => nofun
  | cons n names ih =>
    obtain ⟨hname, hnames⟩ := List.forall_mem_cons.1 hn
    have hdots := hname.no_dots
    obtain ⟨es, -, ⟨rfl, -⟩ | ⟨-, rfl, -⟩ | ⟨-, hshort, -, hw⟩⟩ := walk_cons.1 h
    · cases hdots
    · cases hdots
    · exact List.forall_mem_cons.2 ⟨hshort, ih hnames hw⟩

/-- How a path that leads down by names is approached. -/
theorem approach_relative {name : String} (hr : IsRelative path) (hd : isDots name = false)
    (h : root.approach base path = .ok (way, name)) (he : path.endsWith "/" = false) :
    Passable path ∧ base ++ components path = way ++ [name] := by
  obtain ⟨hallowed, hwalk, hname, hfolder, hshort⟩ := approach_eq_ok.1 h
  obtain ⟨-, -, hne, ha⟩ := refuse?_eq_none.1 hallowed
  have hparts := parts_ne_nil hne ha
  have hlast : (parts path).getLast? = some name := by
    rw [List.getLast?_eq_some_getLast hparts, hname, List.getLast?_eq_some_getLast hparts]
    rfl
  have hdot : (parts path).getLast? ≠ some "." := by
    rw [hlast]
    rintro ⟨⟩
    cases hd
  obtain ⟨name', hsplit, -, hcomponents⟩ := hr.exists_last hne hdot
  obtain rfl : name' = name := by
    rw [hsplit, List.getLast?_concat] at hlast
    exact Option.some.inj hlast
  have hfolders (n : String) (hn : n ∈ (parts path).dropLast.filter (· ≠ ".")) : IsFileName n :=
    hr.isFileName n (by rw [hcomponents]; exact List.mem_append_left _ hn)
  rw [← walk_filter hfolder] at hwalk
  refine ⟨⟨hallowed, ?_, he, hdot⟩, ?_⟩
  · rw [hcomponents, List.forall_mem_append]
    exact ⟨short_of_walk hfolders hwalk, by simpa using hshort⟩
  · rw [hcomponents, walk_names hfolders hwalk, List.append_assoc]

/-- Where a path that leads down by names leads to a file. -/
theorem locate_file_iff (hr : IsRelative path) :
    (root.locate base path = .ok w ∧ root.get? w = .ok (.file c)) ↔
      Passable path ∧ w = base ++ components path ∧ root.get? w = .ok (.file c) := by
  constructor
  · rintro ⟨hl, hg⟩
    obtain ⟨way, name, rfl, happ, he, hd, -⟩ := locate_file hl hg
    obtain ⟨hp, hw⟩ := approach_relative hr hd happ he
    exact ⟨hp, hw.symm, hg⟩
  · rintro ⟨hp, rfl, hg⟩
    refine ⟨locate_eq_ok.2 ⟨hp.allowed, ?_, by simp [hp.no_slash]⟩, hg⟩
    obtain ⟨-, -, hne, -⟩ := refuse?_eq_none.1 hp.allowed
    obtain ⟨name, hsplit, hdot, hcomponents⟩ := hr.exists_last hne hp.no_dot
    have hnames (n : String) (hn : n ∈ components path) : IsFileName n ∧ n.utf8ByteSize ≤ maxName :=
      ⟨hr.isFileName n hn, hp.short n hn⟩
    rw [hcomponents, List.forall_mem_append] at hnames
    rw [hcomponents, ← List.append_assoc] at hg ⊢
    obtain ⟨es, hes⟩ := hasFolder_iff.1 (hasFolder_of_get?_append hg)
    have hwalk := (walk_filter (hasFolder_iff.2 ⟨es, hes⟩)).1 (walk_of_get? hnames.1 hes)
    rw [congrArg (root.walk base) hsplit, walk_append, hwalk]
    exact walk_of_get? hnames.2 hg

/-! ## Changes of one file -/

/-- One file holds what has been written to it, and all others what they held. -/
structure Writes (root root' : Entry) (way : List String) (c : Content) : Prop where
  self : root'.get? way = .ok (.file c)
  other {w : List String} {c' : Content} : root.get? w = .ok (.file c') → w ≠ way →
    root'.get? w = .ok (.file c')

theorem writes_put {name : String} (hway : root.hasFolder way = true)
    (hf : root.hasFolder (way ++ [name]) = false) :
    Writes root (put (.file c) (way ++ [name]) root) (way ++ [name]) c := by
  refine ⟨get?_put_self _ hway, fun {w c'} hg hne => ?_⟩
  have hw : ¬way ++ [name] <+: w := by
    rintro ⟨_ | ⟨n, ns⟩, rfl⟩
    · exact hne (List.append_nil _)
    · exact absurd (hasFolder_of_get?_append hg) (by simp [hf])
  have hs := get?_put (.file c) hway hw
  rw [hg] at hs
  generalize (put (.file c) (way ++ [name]) root).get? w = y at hs ⊢
  cases hs
  rfl

theorem Keeps.writes {made : Entry} (hk : Keeps root made) (h : Writes made root' way c) :
    Writes root root' way c := by
  refine ⟨h.self, fun {w c'} hg hne => h.other ?_ hne⟩
  have hs := hk w _ hg
  generalize made.get? w = y at hs ⊢
  cases hs
  rfl

/-- What is written at a path that leads down by names. -/
theorem writeText_relative {text : String} (hr : IsRelative path)
    (h : root.writeText base path text = .ok root') :
    Passable path ∧ Writes root root' (base ++ components path) (.text text) := by
  obtain ⟨way, name, happ, he, hd, hf, rfl⟩ := writeContent_eq_ok.1 h
  obtain ⟨hp, hw⟩ := approach_relative hr hd happ he
  obtain ⟨-, -, -, hway, -⟩ := approach_eq_ok.1 happ
  rw [hw]
  exact ⟨hp, writes_put hway hf⟩

end Entry

end Docsmith.Workspace
