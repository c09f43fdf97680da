import Docsmith.Proofs.Workspace.Path

/-!
# Paths made of names

A path whose components are all names leads down from where it is seen. Of the paths with some
components there is a shortest one, the names with single separators between them.

* `components_intercalate`: the components of a path put together from names;
* `IsRelative.join`: paths put together from paths that lead down do so too;
* `IsRelative.intercalate_sublist`: the shortest path is what is left of any other;
* `extension?_eq_some_iff`: which names have an extension.
-/

namespace Docsmith.Path

open Docsmith.Text

/-! ## Components -/

/-- The components of a path that starts with no root and no dot. -/
theorem components_of_relative {path : String} (ha : isAbsolute path = false)
    (hdot : (parts path).head? ≠ some ".") :
    components path = (parts path).filter (· ≠ ".") := by
  rw [filter_parts ha, components_eq]
  rcases split_cases path with ⟨cs, hc, -⟩ | ⟨hc, -⟩ | ⟨cs, hc, -⟩ | ⟨-, hs⟩
  · simp [isAbsolute, isSeparator, hc] at ha
  · refine absurd ?_ hdot
    rw [parts, hc]
    rfl
  · refine absurd ?_ hdot
    rw [parts, hc, show '.' :: '/' :: cs = ['.'] ++ '/' :: cs from rfl,
      piecesBy_append rfl]
    rfl
  · rw [hs]
    rfl

theorem isAbsolute_intercalate {names : List String} (hn : ∀ n ∈ names, IsFileName n) :
    isAbsolute ("/".intercalate names) = false := by
  rw [isAbsolute, String.toList_intercalate]
  cases names with
  | nil => rfl
  | cons n names =>
    have hname := hn n (List.mem_cons_self ..)
    obtain ⟨c, cs, hc⟩ := List.exists_cons_of_ne_nil hname.nonempty
    have hsingle := hname.single c (hc ▸ List.mem_cons_self ..)
    cases names with
    | nil => rw [List.map_singleton, List.intercalate_singleton, hc]; simpa using hsingle
    | cons m names =>
      rw [List.map_cons, List.map_cons, List.intercalate_cons_cons, hc]
      simpa using hsingle

theorem components_intercalate {names : List String} (hne : names ≠ [])
    (hn : ∀ n ∈ names, IsFileName n) : components ("/".intercalate names) = names := by
  have hparts := parts_intercalate hne hn
  have hdots (n : String) (h : n ∈ names) : n ≠ "." := by
    rintro rfl
    exact absurd (hn _ h).no_dots (by decide)
  rw [components_of_relative (isAbsolute_intercalate hn), hparts, List.filter_eq_self]
  · intro n h
    simpa using hdots n h
  · rw [hparts]
    exact fun h => hdots "." (List.mem_of_head? h) rfl

/-! ## Paths that lead down -/

/-- All components of a path are names. -/
def IsRelative (path : String) : Prop := ∀ c ∈ components path, isName c = true

instance (path : String) : Decidable (IsRelative path) :=
  inferInstanceAs (Decidable (∀ c ∈ components path, isName c = true))

variable {path : String}

theorem IsRelative.split_eq (h : IsRelative path) :
    split path = ([], piecesBy isSeparator path.toList) := by
  rw [IsRelative, components_eq] at h
  rcases split_cases path with ⟨cs, -, hs⟩ | ⟨-, hs⟩ | ⟨cs, -, hs⟩ | ⟨-, hs⟩
  · exact absurd (h "/" (by rw [hs]; simp)) (by decide)
  · exact absurd (h "." (by rw [hs]; simp)) (by decide)
  · exact absurd (h "." (by rw [hs]; simp)) (by decide)
  · exact hs

theorem IsRelative.not_isAbsolute (h : IsRelative path) : isAbsolute path = false := by
  rw [← Bool.not_eq_true, isAbsolute_iff_split, h.split_eq]
  exact (List.cons_ne_nil _ _).symm

theorem IsRelative.components_eq (h : IsRelative path) : components path =
    ((piecesBy isSeparator path.toList).filter (!isVoid ·)).map String.ofList := by
  rw [Path.components_eq, h.split_eq]
  rfl

theorem IsRelative.filter_parts (h : IsRelative path) :
    (parts path).filter (· ≠ ".") = components path := by
  rw [h.components_eq, Path.filter_parts h.not_isAbsolute, h.split_eq]

theorem IsRelative.isFileName (h : IsRelative path) : ∀ n ∈ components path, IsFileName n := by
  intro n hn
  have hname := h n hn
  rw [h.components_eq] at hn
  obtain ⟨q, hq, rfl⟩ := List.mem_map.1 hn
  obtain ⟨hmem, hvoid⟩ := List.mem_filter.1 hq
  simp only [isName, ne_eq, Bool.and_eq_true, decide_eq_true_eq] at hname
  refine ⟨?_, ?_, ?_⟩
  · rw [String.toList_ofList]
    rintro rfl
    exact absurd hvoid (by decide)
  · rw [String.toList_ofList]
    exact not_of_mem_piecesBy hmem
  · simp [isDots, hname.1.2, hname.2]

theorem isRelative_intercalate {names : List String} (hne : names ≠ [])
    (hn : ∀ n ∈ names, IsFileName n) : IsRelative ("/".intercalate names) := by
  intro n h
  rw [components_intercalate hne hn] at h
  have hname := hn n h
  have := isName_of_not_dots hname.single (by rw [String.ofList_toList]; exact hname.no_dots)
  rwa [String.ofList_toList] at this

theorem IsRelative.head?_parts (h : IsRelative path) : (parts path).head? ≠ some "." := by
  have hjoined := joined_piecesBy path.toList
  obtain ⟨hroot, hdot, hdots⟩ : StartsPlain path.toList := by
    rcases split_cases path with ⟨cs, -, hs⟩ | ⟨-, hs⟩ | ⟨cs, -, hs⟩ | ⟨hp, -⟩
    · simp [h.split_eq] at hs
    · simp [h.split_eq] at hs
    · simp [h.split_eq] at hs
    · exact hp
  rw [parts]
  rcases hpieces : piecesBy isSeparator path.toList with _ | ⟨p, ps⟩
  · simp
  · rw [hpieces] at hjoined
    cases p with
    | nil =>
      -- an empty first piece stands in front of a separator
      cases ps with
      | nil => simp
      | cons q ps => exact absurd hjoined.symm (hroot _)
    | cons c cs =>
      rw [List.filter_cons_of_pos (by simp), List.map_cons, List.head?_cons, ne_eq,
        Option.some.injEq]
      intro hp
      obtain ⟨rfl, rfl⟩ := List.cons.inj (String.ofList_injective hp : c :: cs = ['.'])
      cases ps with
      | nil => exact hdot hjoined.symm
      | cons q ps => exact hdots _ hjoined.symm

theorem isAbsolute_join {folder : String} (hf : isAbsolute folder = false)
    (hp : isAbsolute path = false) : isAbsolute (join folder path) = false := by
  rw [join, hp, Bool.false_or]
  split
  · exact hp
  · rename_i hne
    cases hc : folder.toList with
    | nil => exact absurd (String.toList_eq_nil_iff.1 hc) (by simpa using hne)
    | cons c cs =>
      rw [isAbsolute, hc] at hf
      split
      · rw [isAbsolute, String.toList_append, hc]
        exact hf
      · rw [isAbsolute, String.toList_append, String.toList_append, hc]
        exact hf

/-- Paths put together from paths that lead down by names do so too. -/
theorem IsRelative.join {folder : String} (hf : IsRelative folder) (hp : IsRelative path) :
    IsRelative (join folder path) := by
  by_cases hne : folder = ""
  · subst hne
    rw [Path.join, if_pos (by simp)]
    exact hp
  · have ha := isAbsolute_join hf.not_isAbsolute hp.not_isAbsolute
    have hparts := parts_join folder hp.not_isAbsolute
    have hhead : (parts (Path.join folder path)).head? ≠ some "." := by
      rw [hparts, List.head?_append_of_ne_nil _ (parts_ne_nil hne hf.not_isAbsolute)]
      exact hf.head?_parts
    rw [IsRelative, components_of_relative ha hhead, hparts, List.filter_append, hf.filter_parts,
      hp.filter_parts, List.forall_mem_append]
    exact ⟨hf, hp⟩

theorem isRelative_joinAll {names : List String} (h : ∀ n ∈ names, IsRelative n) :
    IsRelative (joinAll names) := by
  have hfold {folder : String} (hf : IsRelative folder) :
      IsRelative (names.foldl Path.join folder) := by
    induction names generalizing folder with
    | nil => exact hf
    | cons n names ih =>
      obtain ⟨hn, hnames⟩ := List.forall_mem_cons.1 h
      exact ih hnames (hf.join hn)
  exact hfold (by decide)

/-- The parts of a path that does not end in a dot: its folders, among dots, and its name. -/
theorem IsRelative.exists_last (h : IsRelative path) (hne : path ≠ "")
    (hlast : (parts path).getLast? ≠ some ".") :
    ∃ name, parts path = (parts path).dropLast ++ [name] ∧ name ≠ "." ∧
      components path = (parts path).dropLast.filter (· ≠ ".") ++ [name] := by
  have hparts := parts_ne_nil hne h.not_isAbsolute
  have hsplit := (List.dropLast_concat_getLast hparts).symm
  have hdot : (parts path).getLast hparts ≠ "." := by
    rwa [List.getLast?_eq_some_getLast hparts, ne_eq, Option.some.injEq] at hlast
  refine ⟨_, hsplit, hdot, ?_⟩
  rw [← h.filter_parts]
  conv_lhs => rw [hsplit]
  rw [List.filter_append, List.filter_cons_of_pos (by simpa using hdot), List.filter_nil]

/-! ## The shortest spelling -/

theorem joined_sublist {ps qs : List (List Char)} (h : qs.Sublist ps) :
    (joined qs).Sublist (joined ps) := by
  induction h with
  | slnil => exact .refl _
  | @cons qs ps p h ih =>
    cases ps with
    | nil =>
      obtain rfl := List.sublist_nil.1 h
      exact List.nil_sublist _
    | cons q ps =>
      rw [joined_cons_cons]
      exact (ih.trans (List.sublist_cons_self _ _)).trans (List.sublist_append_right _ _)
  | @cons_cons qs ps p h ih =>
    cases qs with
    | nil =>
      cases ps with
      | nil => exact .refl _
      | cons q ps =>
        rw [joined_singleton, joined_cons_cons]
        exact List.sublist_append_left _ _
    | cons q qs =>
      cases ps with
      | nil => cases h
      | cons q' ps =>
        rw [joined_cons_cons, joined_cons_cons]
        exact (ih.cons_cons _).append_left _

/-- The shortest path with some components is what is left of any other. -/
theorem IsRelative.intercalate_sublist (h : IsRelative path) :
    ("/".intercalate (components path)).toList.Sublist path.toList := by
  have hjoined : ("/".intercalate (components path)).toList =
      joined ((piecesBy isSeparator path.toList).filter (!isVoid ·)) := by
    rw [String.toList_intercalate, h.components_eq, List.map_map]
    refine congrArg joined ((List.map_congr_left fun cs _ => ?_).trans (List.map_id _))
    exact String.toList_ofList
  rw [hjoined]
  conv_rhs => rw [← joined_piecesBy path.toList]
  exact joined_sublist List.filter_sublist

/-! ## Extensions -/

theorem exists_last_dot {cs : List Char} (h : '.' ∈ cs) :
    ∃ front back, cs = front ++ '.' :: back ∧ '.' ∉ back := by
  obtain ⟨back, front, hcs, hback⟩ := List.eq_append_cons_of_mem (List.mem_reverse.2 h)
  refine ⟨front.reverse, back.reverse, ?_, by simpa using hback⟩
  rw [← List.reverse_reverse cs, hcs]
  simp

/-- The extension is what follows the last dot, unless that starts the name. -/
theorem extension?_append {name : String} {front back : List Char} (hn : IsFileName name)
    (h : name.toList = front ++ '.' :: back) (hb : '.' ∉ back) :
    extension? name = if front = [] then none else some (String.ofList back) := by
  have hback : (name.toList.reverse.takeWhile (· ≠ '.')).reverse = back := by
    rw [h, List.reverse_append, List.reverse_cons, List.append_assoc, List.singleton_append,
      List.takeWhile_append_of_pos (by
        intro c hc
        rw [List.mem_reverse] at hc
        exact decide_eq_true fun hd : c = '.' => hb (hd ▸ hc)),
      List.takeWhile_cons_of_neg (by simp), List.append_nil, List.reverse_reverse]
  have hlen : back.length + 1 = name.toList.length ↔ front = [] := by
    rw [h, List.length_append, List.length_cons, ← List.length_eq_zero_iff]
    omega
  rw [extension?, fileName?_of_append hn (.inl rfl) (List.nil_append _).symm]
  dsimp only [bind, Option.bind]
  rw [hback, if_neg (by simp [h])]
  simp only [hlen]

theorem extension?_of_notMem {name : String} (hn : IsFileName name) (h : '.' ∉ name.toList) :
    extension? name = none := by
  rw [extension?, fileName?_of_append hn (.inl rfl) (List.nil_append _).symm]
  dsimp only [bind, Option.bind]
  rw [if_pos (by simpa using h)]

theorem extension?_eq_some_iff {name ext : String} (hn : IsFileName name)
    (he : '.' ∉ ext.toList) :
    extension? name = some ext ↔ ∃ stem, stem ≠ "" ∧ name = stem ++ "." ++ ext := by
  constructor
  · intro h
    by_cases hd : '.' ∈ name.toList
    · obtain ⟨front, back, hname, hb⟩ := exists_last_dot hd
      rw [extension?_append hn hname hb] at h
      split at h
      · cases h
      · rename_i hfront
        obtain rfl := Option.some.inj h
        refine ⟨String.ofList front, by simpa using hfront, ?_⟩
        rw [← String.toList_inj, hname]
        simp
    · rw [extension?_of_notMem hn hd] at h
      cases h
  · rintro ⟨stem, hs, rfl⟩
    have hname : (stem ++ "." ++ ext).toList = stem.toList ++ '.' :: ext.toList := by simp
    rw [extension?_append hn hname he, if_neg (by simpa using hs), String.ofList_toList]

end Docsmith.Path
