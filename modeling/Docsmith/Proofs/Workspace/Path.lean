import Docsmith.Proofs.Text.Pieces
import Docsmith.Workspace.Path
import Mathlib.Data.List.DropRight

/-!
# Names at the end of paths, and the folders above

* `fileName?_of_parts`: the last part that is followed is the name of the file;
* `fileName?_join`: a name put behind a folder is the name of the file;
* `components_parent?`: the folder a path is in has all of its components but the last;
* `parts_parent?`, `parts_join`: how the folder of a file, and a path inside a folder, are followed.
-/

namespace Docsmith.Path

open Docsmith.Text

/-! ## The last part -/

/-- The last element of a list is the last of those of its class. -/
theorem getLast?_filter {α : Type} {p : α → Bool} {xs : List α} {x : α}
    (h : xs.getLast? = some x) (hx : p x = true) : (xs.filter p).getLast? = some x := by
  obtain ⟨ys, rfl⟩ := List.getLast?_eq_some_iff.1 h
  rw [List.filter_append, List.filter_cons_of_pos hx, List.filter_nil, List.getLast?_concat]

theorem isVoid_eq_false {q : List Char} (hq : q ≠ []) (hd : isDots (String.ofList q) = false) :
    isVoid q = false := by
  rw [isVoid, Bool.or_eq_false_iff]
  refine ⟨by simpa using hq, ?_⟩
  rw [decide_eq_false_iff_not]
  rintro rfl
  exact absurd hd (by decide)

/-- A piece that is neither empty nor dots is a name. -/
theorem isName_of_not_dots {q : List Char} (hq : ∀ c ∈ q, isSeparator c = false)
    (hd : isDots (String.ofList q) = false) : isName (String.ofList q) = true := by
  rw [isDots, Bool.or_eq_false_iff, decide_eq_false_iff_not, decide_eq_false_iff_not] at hd
  have hs : String.ofList q ≠ "/" := by
    intro h
    have h' : q = ['/'] := by
      rw [← String.toList_ofList (l := q), h]
      rfl
    rw [h'] at hq
    exact absurd (hq '/' (by simp)) (by decide)
  simp [isName, hs, hd.1, hd.2]

/-- The last component of a path whose last piece is a name. -/
theorem fileName?_of_split {path : String} {q : List Char}
    (h : ((split path).2.filter (!isVoid ·)).getLast? = some q)
    (hq : ∀ c ∈ q, isSeparator c = false) (hd : isDots (String.ofList q) = false) :
    fileName? path = some (String.ofList q) := by
  have hl : (components path).getLast? = some (String.ofList q) := by
    have hm : (((split path).2.filter (!isVoid ·)).map String.ofList).getLast? =
        some (String.ofList q) := by
      rw [List.getLast?_map, h, Option.map_some]
    rw [components]
    dsimp only
    split
    · exact hm
    · rw [List.getLast?_cons, hm, Option.getD_some]
  rw [fileName?, hl]
  simp [isName_of_not_dots hq hd]

/-- The parts that are followed, but for single dots, are the pieces that count. -/
theorem filter_parts {path : String} (ha : isAbsolute path = false) :
    (parts path).filter (· ≠ ".") = ((split path).2.filter (!isVoid ·)).map String.ofList := by
  have hsolid (ps : List (List Char)) :
      ((ps.filter (!·.isEmpty)).map String.ofList).filter (· ≠ ".") =
        (ps.filter (!isVoid ·)).map String.ofList := by
    have hdot (q : List Char) : String.ofList q = "." ↔ q = ['.'] :=
      ⟨fun h => String.ofList_injective h, fun h => h ▸ rfl⟩
    rw [List.filter_map, List.filter_filter]
    refine congrArg (List.map String.ofList) (List.filter_congr fun q _ => ?_)
    simp [isVoid, hdot, Bool.and_comm]
  rw [parts, split]
  split
  · next hp => simp [isAbsolute, hp, isSeparator] at ha
  · next hp =>
    rw [hp]
    rfl
  · next cs hp =>
    rw [hp]
    exact hsolid (['.'] :: piecesBy isSeparator cs)
  · exact hsolid _

/-- The last part that is followed is the name of the file. -/
theorem fileName?_of_parts {path name : String} (ha : isAbsolute path = false)
    (h : (parts path).getLast? = some name) (hd : isDots name = false) :
    fileName? path = some name := by
  have hdot : name ≠ "." := by
    rintro rfl
    exact absurd hd (by decide)
  have hlast := getLast?_filter (p := (· ≠ ".")) h (decide_eq_true hdot)
  rw [filter_parts ha, List.getLast?_map, Option.map_eq_some_iff] at hlast
  obtain ⟨q, hq, rfl⟩ := hlast
  obtain ⟨q', hq', he⟩ := List.mem_map.1 (List.mem_of_getLast? h)
  obtain rfl : q' = q := String.ofList_injective he
  exact fileName?_of_split hq (not_of_mem_piecesBy (List.mem_of_mem_filter hq')) hd

/-- A path that is neither empty nor absolute has a part. -/
theorem parts_ne_nil {path : String} (hne : path ≠ "") (ha : isAbsolute path = false) :
    parts path ≠ [] := by
  rw [parts]
  cases h : path.toList with
  | nil => exact absurd (String.toList_eq_nil_iff.1 h) hne
  | cons c cs =>
    have hc : isSeparator c = false := by simpa [isAbsolute, h] using ha
    rw [piecesBy, hc, if_neg Bool.false_ne_true]
    cases hp : piecesBy isSeparator cs with
    | nil => exact absurd hp (piecesBy_ne_nil _ _)
    | cons q qs => simp [pushHead]

/-! ## Names in folders -/

/-- A text in which a name starts a piece of its own. -/
def EndsPiece (pre : List Char) : Prop := pre = [] ∨ ∃ start, pre = start ++ ['/']

theorem getLast?_piecesBy {pre name : List Char} (hp : EndsPiece pre)
    (hn : ∀ c ∈ name, isSeparator c = false) :
    (piecesBy isSeparator (pre ++ name)).getLast? = some name := by
  rcases hp with rfl | ⟨start, rfl⟩
  · rw [List.nil_append, piecesBy_eq_singleton hn]
    rfl
  · rw [List.append_assoc, List.singleton_append, piecesBy_append rfl,
      piecesBy_eq_singleton hn, List.getLast?_concat]

/-- What a name is that can stand at the end of a path. -/
structure IsFileName (name : String) : Prop where
  nonempty : name.toList ≠ []
  single : ∀ c ∈ name.toList, isSeparator c = false
  no_dots : isDots name = false

theorem fileName?_of_append {pre : List Char} {path name : String} (hn : IsFileName name)
    (hp : EndsPiece pre) (h : path.toList = pre ++ name.toList) : fileName? path = some name := by
  have hd : isDots (String.ofList name.toList) = false := by
    rw [String.ofList_toList]
    exact hn.no_dots
  have hv : (!isVoid name.toList) = true := by
    rw [isVoid_eq_false hn.nonempty hd]
    rfl
  suffices hs : (split path).2.getLast? = some name.toList by
    have := fileName?_of_split (getLast?_filter hs hv) hn.single hd
    rwa [String.ofList_toList] at this
  rw [split]
  split
  · rename_i cs hc
    -- the name is not what follows the root only if it starts with the root
    rw [hc] at h
    rcases hp with rfl | ⟨start, rfl⟩
    · rw [List.nil_append] at h
      have := hn.single '/' (h ▸ List.mem_cons_self ..)
      exact absurd this (by decide)
    · cases start with
      | nil =>
        obtain rfl := (List.cons.inj h).2
        exact getLast?_piecesBy (.inl rfl) hn.single
      | cons c start =>
        obtain rfl := (List.cons.inj h).2
        exact getLast?_piecesBy (.inr ⟨start, rfl⟩) hn.single
  · rename_i hc
    rw [hc] at h
    have hdot : name.toList = ['.'] := by
      rcases hp with rfl | ⟨start, rfl⟩
      · exact h.symm
      · have hlen := congrArg List.length h
        have := List.length_pos_iff.2 hn.nonempty
        simp only [List.length_append, List.length_cons, List.length_nil] at hlen
        omega
    rw [hdot] at hd
    exact absurd hd (by decide)
  · rename_i cs hc
    rw [hc] at h
    have hg : (piecesBy isSeparator ('.' :: '/' :: cs)).getLast? = some name.toList := by
      rw [h]
      exact getLast?_piecesBy hp hn.single
    rw [show piecesBy isSeparator ('.' :: '/' :: cs) = ['.'] :: piecesBy isSeparator cs from rfl,
      List.getLast?_cons] at hg
    rw [List.getLast?_cons]
    cases hl : (piecesBy isSeparator cs).getLast? with
    | none => exact absurd (List.getLast?_eq_none_iff.1 hl) (piecesBy_ne_nil _ _)
    | some q => rwa [hl] at hg
  · rw [h]
    exact getLast?_piecesBy hp hn.single

theorem isAbsolute_of_isFileName {name : String} (hn : IsFileName name) :
    isAbsolute name = false := by
  rw [isAbsolute]
  cases h : name.toList with
  | nil => rfl
  | cons c cs => exact hn.single c (h ▸ List.mem_cons_self ..)

theorem endsWith_separator {path : String} :
    path.endsWith "/" = true ↔ ∃ start, path.toList = start ++ ['/'] := by
  rw [String.endsWith_eq_endsWith_toSlice, String.Slice.endsWith_string_iff]
  exact ⟨fun ⟨start, h⟩ => ⟨start, by simpa using h.symm⟩,
    fun ⟨start, h⟩ => ⟨start, by simpa using h.symm⟩⟩

/-- A name put behind a folder is the name of the file. -/
theorem fileName?_join (folder : String) {name : String} (hn : IsFileName name) :
    fileName? (join folder name) = some name := by
  rw [join, isAbsolute_of_isFileName hn, Bool.false_or]
  split
  · exact fileName?_of_append hn (.inl rfl) rfl
  · split
    · rename_i h
      exact fileName?_of_append hn (.inr (endsWith_separator.1 h)) (String.toList_append ..)
    · refine fileName?_of_append hn (.inr ⟨folder.toList, rfl⟩) ?_
      rw [String.toList_append, String.toList_append]
      rfl

theorem piecesBy_intercalate {names : List String} (hne : names ≠ [])
    (hn : ∀ n ∈ names, IsFileName n) :
    piecesBy isSeparator ("/".intercalate names).toList = names.map String.toList := by
  rw [String.toList_intercalate]
  induction names with
  | nil => exact absurd rfl hne
  | cons n names ih =>
    obtain ⟨hfirst, hrest⟩ := List.forall_mem_cons.1 hn
    cases names with
    | nil =>
      rw [List.map_singleton, List.intercalate_singleton]
      exact piecesBy_eq_singleton hfirst.single
    | cons m names =>
      rw [List.map_cons, List.map_cons, List.intercalate_cons_cons]
      change piecesBy isSeparator (n.toList ++ ['/'] ++ _) = _
      rw [List.append_assoc, List.singleton_append, piecesBy_append rfl,
        piecesBy_eq_singleton hfirst.single, ← List.map_cons, ih (List.cons_ne_nil _ _) hrest]
      rfl

/-- A path made of names is followed by way of these. -/
theorem parts_intercalate {names : List String} (hne : names ≠ [])
    (hn : ∀ n ∈ names, IsFileName n) : parts ("/".intercalate names) = names := by
  have hfilter : (names.map String.toList).filter (!·.isEmpty) = names.map String.toList := by
    refine List.filter_eq_self.2 fun cs hcs => ?_
    obtain ⟨n, hmem, rfl⟩ := List.mem_map.1 hcs
    have := (hn n hmem).nonempty
    simpa using this
  rw [parts, piecesBy_intercalate hne hn, hfilter, List.map_map]
  refine (List.map_congr_left fun n _ => ?_).trans (List.map_id names)
  exact String.ofList_toList

/-! ## Folders above -/

/-- Pieces put together again by separators. -/
def joined (ps : List (List Char)) : List Char := (ps.intersperse ['/']).flatten

theorem joined_cons_cons (p q : List Char) (ps : List (List Char)) :
    joined (p :: q :: ps) = p ++ '/' :: joined (q :: ps) := by
  rw [joined, List.intersperse_cons_cons, List.flatten_cons, List.flatten_cons,
    List.singleton_append, joined]

theorem joined_singleton (p : List Char) : joined [p] = p := by
  simp [joined]

/-- Pieces without separators are found again. -/
theorem piecesBy_joined {ps : List (List Char)} (hne : ps ≠ [])
    (hps : ∀ p ∈ ps, ∀ c ∈ p, isSeparator c = false) : piecesBy isSeparator (joined ps) = ps := by
  induction ps with
  | nil => exact absurd rfl hne
  | cons p ps ih =>
    obtain ⟨hp, hrest⟩ := List.forall_mem_cons.1 hps
    cases ps with
    | nil => rw [joined_singleton, piecesBy_eq_singleton hp]
    | cons q ps =>
      rw [joined_cons_cons, piecesBy_append rfl, piecesBy_eq_singleton hp,
        ih (List.cons_ne_nil _ _) hrest]
      rfl

theorem joined_pushHead (c : Char) {ps : List (List Char)} (h : ps ≠ []) :
    joined (pushHead c ps) = c :: joined ps := by
  cases ps with
  | nil => exact absurd rfl h
  | cons p ps =>
    rw [pushHead]
    cases ps with
    | nil => rw [joined_singleton, joined_singleton]
    | cons q ps => rw [joined_cons_cons, joined_cons_cons, List.cons_append]

/-- The pieces of a text make it up. -/
theorem joined_piecesBy (cs : List Char) : joined (piecesBy isSeparator cs) = cs := by
  induction cs with
  | nil => rfl
  | cons c cs ih =>
    rw [piecesBy]
    split
    · rename_i hc
      obtain rfl : c = '/' := of_decide_eq_true hc
      cases hp : piecesBy isSeparator cs with
      | nil => exact absurd hp (piecesBy_ne_nil _ _)
      | cons p ps => rw [joined_cons_cons, ← hp, ih, List.nil_append]
    · rw [joined_pushHead c (piecesBy_ne_nil _ _), ih]

theorem joined_append {ps qs : List (List Char)} (hp : ps ≠ []) (hq : qs ≠ []) :
    joined (ps ++ qs) = joined ps ++ '/' :: joined qs := by
  induction ps with
  | nil => exact absurd rfl hp
  | cons p ps ih =>
    cases ps with
    | nil =>
      cases qs with
      | nil => exact absurd rfl hq
      | cons q qs =>
        rw [List.singleton_append, joined_cons_cons, joined_singleton]
    | cons p' ps =>
      rw [List.cons_append, List.cons_append, joined_cons_cons, ← List.cons_append,
        ih (List.cons_ne_nil _ _), joined_cons_cons, List.append_assoc, List.cons_append]

/-- A text that starts with no root and no dot that stands alone. -/
def StartsPlain (cs : List Char) : Prop :=
  (∀ more, cs ≠ '/' :: more) ∧ cs ≠ ['.'] ∧ ∀ more, cs ≠ '.' :: '/' :: more

/-- How a path is split is told by how it starts. -/
theorem split_cases (path : String) :
    (∃ cs, path.toList = '/' :: cs ∧ split path = (['/'], piecesBy isSeparator cs)) ∨
    (path.toList = ['.'] ∧ split path = (['.'], [])) ∨
    (∃ cs, path.toList = '.' :: '/' :: cs ∧
      split path = (['.'], [] :: piecesBy isSeparator cs)) ∨
    (StartsPlain path.toList ∧ split path = ([], piecesBy isSeparator path.toList)) := by
  rw [split]
  split
  · rename_i cs hc
    exact .inl ⟨cs, hc, rfl⟩
  · rename_i hc
    exact .inr (.inl ⟨hc, rfl⟩)
  · rename_i cs hc
    exact .inr (.inr (.inl ⟨cs, hc, rfl⟩))
  · rename_i h₁ h₂ h₃
    exact .inr (.inr (.inr ⟨⟨h₁, h₂, h₃⟩, rfl⟩))

theorem split_of_startsPlain {path : String} (h : StartsPlain path.toList) :
    split path = ([], piecesBy isSeparator path.toList) := by
  rcases split_cases path with ⟨cs, hc, -⟩ | ⟨hc, -⟩ | ⟨cs, hc, -⟩ | ⟨-, hs⟩
  · exact absurd hc (h.1 cs)
  · exact absurd hc h.2.1
  · exact absurd hc (h.2.2 cs)
  · exact hs

/-- The first pieces of a text start as the text does. -/
theorem startsPlain_joined {cs : List Char} (h : StartsPlain cs) {ps : List (List Char)}
    (hps : ps <+: piecesBy isSeparator cs) : StartsPlain (joined ps) := by
  obtain ⟨qs, hqs⟩ := hps
  have hcs := joined_piecesBy cs
  rw [← hqs] at hcs
  rcases eq_or_ne ps [] with rfl | hp
  · exact ⟨nofun, nofun, nofun⟩
  · rcases eq_or_ne qs [] with rfl | hq
    · rw [List.append_nil] at hcs
      exact hcs ▸ h
    · rw [joined_append hp hq] at hcs
      subst hcs
      refine ⟨fun more he => h.1 (more ++ '/' :: joined qs) ?_,
        fun he => h.2.2 (joined qs) ?_, fun more he => h.2.2 (more ++ '/' :: joined qs) ?_⟩
      all_goals rw [he]; rfl

/-- What is left of a path when pieces at its end are dropped. -/
theorem split_cut {path : String} {ps : List (List Char)} (h : ps <+: (split path).2) :
    let cut := String.ofList ((split path).1 ++ joined ps)
    (split cut).1 = (split path).1 ∧ (split cut).2.filter (!isVoid ·) = ps.filter (!isVoid ·) := by
  have hpieces {cs : List Char} {qs : List (List Char)} (hq : qs <+: piecesBy isSeparator cs) :
      (piecesBy isSeparator (joined qs)).filter (!isVoid ·) = qs.filter (!isVoid ·) := by
    rcases eq_or_ne qs [] with rfl | hne
    · rfl
    · rw [piecesBy_joined hne fun p hp => not_of_mem_piecesBy (hq.subset hp)]
  rcases split_cases path with ⟨cs, -, hs⟩ | ⟨-, hs⟩ | ⟨cs, -, hs⟩ | ⟨hplain, hs⟩
  · rw [hs] at h ⊢
    have hcut : split (String.ofList (['/'] ++ joined ps)) =
        (['/'], piecesBy isSeparator (joined ps)) := by
      rw [split, String.toList_ofList]
      rfl
    intro cut
    rw [show split cut = _ from hcut]
    exact ⟨rfl, hpieces h⟩
  · rw [hs] at h ⊢
    obtain rfl := List.prefix_nil.1 h
    exact ⟨rfl, rfl⟩
  · rw [hs] at h ⊢
    have hdot : split (String.ofList ['.']) = (['.'], []) := rfl
    cases ps with
    | nil => exact ⟨congrArg (·.1) hdot, congrArg (·.2.filter (!isVoid ·)) hdot⟩
    | cons p ps =>
      obtain ⟨rfl, hps⟩ := List.cons_prefix_cons.1 h
      cases ps with
      | nil => exact ⟨congrArg (·.1) hdot, congrArg (·.2.filter (!isVoid ·)) hdot⟩
      | cons q ps =>
        have hcut : split (String.ofList (['.'] ++ joined ([] :: q :: ps))) =
            (['.'], [] :: piecesBy isSeparator (joined (q :: ps))) := by
          rw [joined_cons_cons, split, String.toList_ofList]
          rfl
        intro cut
        rw [show split cut = _ from hcut]
        refine ⟨rfl, ?_⟩
        rw [List.filter_cons_of_neg (by simp [isVoid]), List.filter_cons_of_neg (by simp [isVoid]),
          hpieces hps]
  · rw [hs] at h ⊢
    have hcut := startsPlain_joined hplain h
    rw [List.nil_append]
    intro cut
    have hlist : cut.toList = joined ps := String.toList_ofList
    rw [split_of_startsPlain (hlist ▸ hcut), hlist]
    exact ⟨rfl, hpieces h⟩

theorem dropLastWhile_eq {α : Type} (p : α → Bool) (xs : List α) :
    dropLastWhile p xs = xs.rdropWhile p := rfl

/-- Dropping at the end what does not count leaves all that counts. -/
theorem filter_rdropWhile {α : Type} (p : α → Bool) (xs : List α) :
    (xs.rdropWhile p).filter (!p ·) = xs.filter (!p ·) := by
  induction xs using List.reverseRecOn with
  | nil => simp
  | append_singleton xs x ih =>
    by_cases hx : p x = true
    · rw [List.rdropWhile_concat_pos _ _ _ hx, ih, List.filter_append,
        List.filter_cons_of_neg (by simpa using hx), List.filter_nil, List.append_nil]
    · rw [List.rdropWhile_concat_neg _ _ _ hx]

theorem components_eq (path : String) : components path =
    (if (split path).1.isEmpty then [] else [String.ofList (split path).1]) ++
      ((split path).2.filter (!isVoid ·)).map String.ofList := by
  rw [components]
  dsimp only
  split <;> rfl

/-- The folder a path is in starts as the path does and has all of its names but the last. -/
theorem split_parent? {path : String} (h : (split path).2.filter (!isVoid ·) ≠ []) :
    ∃ folder, parent? path = some folder ∧ (split folder).1 = (split path).1 ∧
      (split folder).2.filter (!isVoid ·) = ((split path).2.filter (!isVoid ·)).dropLast := by
  rw [parent?]
  dsimp only
  rw [← filter_rdropWhile] at h ⊢
  rw [dropLastWhile_eq]
  have hprefix := List.rdropWhile_prefix isVoid (split path).2
  have hlast := List.rdropWhile_last_not isVoid (split path).2
  generalize (split path).2.rdropWhile isVoid = parts at hprefix hlast h
  rcases List.eq_nil_or_concat parts with rfl | ⟨init, last, rfl⟩
  · exact absurd rfl h
  · rw [List.concat_eq_append] at hprefix hlast ⊢
    have hkept : [last].filter (!isVoid ·) = [last] := by simpa using hlast (by simp)
    obtain ⟨hstart, hparts⟩ := split_cut ((List.rdropWhile_prefix isVoid init).trans
      ((List.prefix_append init [last]).trans hprefix))
    split
    · rename_i h
      exact absurd h (by simp)
    · rw [List.dropLast_concat, dropLastWhile_eq, List.filter_append, hkept, List.dropLast_concat]
      exact ⟨_, rfl, hstart, hparts.trans (filter_rdropWhile isVoid init)⟩

/-- The folder a path is in has all of its components but the last. -/
theorem components_parent? (path : String) :
    ((parent? path).map components).getD [] = (components path).dropLast := by
  rcases eq_or_ne ((split path).2.filter (!isVoid ·)) [] with h | h
  · have hdrop : dropLastWhile isVoid (split path).2 = [] := by
      rw [dropLastWhile_eq, List.rdropWhile_eq_nil_iff]
      simpa using List.filter_eq_nil_iff.1 h
    rw [components_eq, h, parent?]
    dsimp only
    rw [hdrop]
    rcases split_cases path with ⟨cs, -, hs⟩ | ⟨-, hs⟩ | ⟨cs, -, hs⟩ | ⟨-, hs⟩
    all_goals rw [hs]; rfl
  · obtain ⟨folder, hf, hstart, hparts⟩ := split_parent? h
    have hmap : ((split path).2.filter (!isVoid ·)).map String.ofList ≠ [] := by simpa using h
    rw [hf, Option.map_some, Option.getD_some, components_eq, components_eq, hstart, hparts,
      List.map_dropLast, List.dropLast_append_of_ne_nil hmap]

theorem isAbsolute_iff_split {path : String} :
    isAbsolute path = true ↔ (split path).1 = ['/'] := by
  rcases split_cases path with ⟨cs, hc, hs⟩ | ⟨hc, hs⟩ | ⟨cs, hc, hs⟩ | ⟨hplain, hs⟩
  · simp [isAbsolute, isSeparator, hc, hs]
  · simp [isAbsolute, isSeparator, hc, hs]
  · simp [isAbsolute, isSeparator, hc, hs]
  · rw [hs, isAbsolute]
    cases hc : path.toList with
    | nil => simp
    | cons c cs =>
      have : c ≠ '/' := by
        rintro rfl
        exact hplain.1 cs hc
      simp [isSeparator, this]

/-- But for single dots, the folder of a file is followed by way of all parts but the name. -/
theorem parts_parent? {path name : String} {way : List String} (ha : isAbsolute path = false)
    (h : parts path = way ++ [name]) (hn : name ≠ ".") :
    ∃ folder, parent? path = some folder ∧ isAbsolute folder = false ∧
      (parts folder).filter (· ≠ ".") = way.filter (· ≠ ".") := by
  have hpath := filter_parts ha
  rw [h, List.filter_append, List.filter_cons_of_pos (by simpa using hn), List.filter_nil] at hpath
  have hne : (split path).2.filter (!isVoid ·) ≠ [] := by
    intro he
    rw [he] at hpath
    simp at hpath
  obtain ⟨folder, hf, hstart, hparts⟩ := split_parent? hne
  have haf : isAbsolute folder = false := by
    rwa [← Bool.not_eq_true, isAbsolute_iff_split, hstart, ← isAbsolute_iff_split,
      Bool.not_eq_true]
  refine ⟨folder, hf, haf, ?_⟩
  rw [filter_parts haf, hparts, List.map_dropLast, ← hpath, List.dropLast_concat]

/-- A path inside a folder is followed by way of the folder. -/
theorem parts_join (folder : String) {path : String} (ha : isAbsolute path = false) :
    parts (join folder path) = parts folder ++ parts path := by
  have hcut (start rest : List Char) :
      (piecesBy isSeparator (start ++ '/' :: rest)).filter (!·.isEmpty) =
        (piecesBy isSeparator start).filter (!·.isEmpty) ++
          (piecesBy isSeparator rest).filter (!·.isEmpty) := by
    rw [piecesBy_append rfl, List.filter_append]
  rw [join, ha, Bool.false_or]
  split
  · next hf =>
    obtain rfl : folder = "" := by simpa using hf
    rfl
  · split
    · next he =>
      obtain ⟨start, hs⟩ := endsWith_separator.1 he
      rw [parts, parts, parts, String.toList_append, hs, List.append_assoc, List.singleton_append,
        hcut, hcut, List.map_append, List.map_append]
      simp [piecesBy]
    · rw [parts, parts, parts, String.toList_append, String.toList_append, List.append_assoc]
      exact (congrArg _ (hcut _ _)).trans List.map_append

end Docsmith.Path
