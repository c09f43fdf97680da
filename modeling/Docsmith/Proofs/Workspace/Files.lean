import Docsmith.Proofs.Workspace.Path
import Docsmith.Workspace.Files

/-!
# What changes of a tree of files leave

A change puts one entry into a folder. Ways that do not lead through that entry lead where they
led before, so paths are followed as before.

* `get?_put`: what is at the end of a way after a change;
* `walk_congr`, `Grows.walk`: trees that look alike from outside their files are walked alike, and
  a walk through a tree is one through a tree that has more;
* `locate_file`: a path to a file ends in the file's name, and can be written to;
* `walk_join`: a path seen from the folder of a file leads where it leads from that folder.
-/

namespace Docsmith.Workspace.Entry

/-! ## Ways -/

variable {root root' : Entry} {way w : List String} {name : String}

@[simp] theorem get?_nil (e : Entry) : e.get? [] = .ok e := by
  cases e <;> rfl

theorem get?_append (root : Entry) (way more : List String) :
    root.get? (way ++ more) = (root.get? way).bind (·.get? more) := by
  induction way generalizing root with
  | nil => rw [List.nil_append, get?_nil, Except.bind]
  | cons n ns ih =>
    cases root with
    | file c => rfl
    | folder entries =>
      rw [List.cons_append, get?, get?]
      cases named? entries n with
      | none => rfl
      | some e => exact ih e

theorem named?_putNamed (entries : List (String × Entry)) (name n : String) (e : Entry) :
    named? (putNamed name e entries) n = if n = name then some e else named? entries n := by
  induction entries with
  | nil =>
    by_cases h : n = name
    · simp [putNamed, named?, h]
    · have h' : ¬name = n := fun h' => h h'.symm
      simp [putNamed, named?, h, h']
  | cons x xs ih =>
    obtain ⟨m, old⟩ := x
    simp only [named?] at ih ⊢
    rw [putNamed]
    by_cases hm : m = name
    · by_cases h : n = name
      · simp [hm, h]
      · have h' : ¬name = n := fun h' => h h'.symm
        simp [hm, h, h']
    · rw [if_neg hm, List.find?_cons, List.find?_cons]
      by_cases hn : m = n
      · have h : ¬n = name := fun h => hm (hn.trans h)
        simp [hn, h]
      · simpa [hn] using ih

theorem hasFolder_iff : root.hasFolder way = true ↔ ∃ es, root.get? way = .ok (.folder es) := by
  rw [hasFolder]
  cases root.get? way with
  | error f => simp
  | ok e => cases e <;> simp [isFolder]

/-- A way to anything leads through folders. -/
theorem hasFolder_of_get?_append {e : Entry} {n : String} {ns : List String}
    (h : root.get? (way ++ n :: ns) = .ok e) : root.hasFolder way = true := by
  rw [get?_append] at h
  rw [hasFolder_iff]
  cases hg : root.get? way with
  | error f => simp [hg, Except.bind] at h
  | ok e' =>
    cases e' with
    | folder es => exact ⟨es, rfl⟩
    | file c => simp [hg, Except.bind, get?] at h

theorem hasFolder_dropLast (h : root.hasFolder way = true) :
    root.hasFolder way.dropLast = true := by
  rcases List.eq_nil_or_concat way with rfl | ⟨init, n, rfl⟩
  · exact h
  · obtain ⟨es, hes⟩ := hasFolder_iff.1 h
    rw [List.concat_eq_append] at hes
    rw [List.concat_eq_append, List.dropLast_concat]
    exact hasFolder_of_get?_append hes

/-! ## Changes -/

/-- Two answers that are equal but for what is in a folder. -/
inductive Same : Except Fault Entry → Except Fault Entry → Prop
  | refl (x : Except Fault Entry) : Same x x
  | folder (es es' : List (String × Entry)) : Same (.ok (.folder es)) (.ok (.folder es'))

theorem get?_put_self (e : Entry) (h : root.hasFolder way = true) :
    (put e (way ++ [name]) root).get? (way ++ [name]) = .ok e := by
  induction way generalizing root with
  | nil =>
    obtain ⟨es, hes⟩ := hasFolder_iff.1 h
    obtain rfl := Except.ok.inj ((get?_nil root).symm.trans hes)
    simp [put, get?, named?_putNamed]
  | cons n ns ih =>
    obtain ⟨es, hes⟩ := hasFolder_iff.1 h
    cases root with
    | file c => simp [get?] at hes
    | folder entries =>
      rw [get?] at hes
      cases hn : named? entries n with
      | none => simp [hn] at hes
      | some child =>
        rw [hn] at hes
        rw [List.cons_append, put, get?, named?_putNamed, if_pos rfl, hn]
        exact ih (hasFolder_iff.2 ⟨es, hes⟩)

/-- A change of one entry is not seen on ways that do not lead through it. -/
theorem get?_put (e : Entry) (h : root.hasFolder way = true) (hw : ¬way ++ [name] <+: w) :
    Same (root.get? w) ((put e (way ++ [name]) root).get? w) := by
  induction way generalizing root w with
  | nil =>
    obtain ⟨es, hes⟩ := hasFolder_iff.1 h
    obtain rfl := Except.ok.inj ((get?_nil root).symm.trans hes)
    cases w with
    | nil => exact .folder _ _
    | cons n ns =>
      have hn : n ≠ name := by
        rintro rfl
        exact hw (List.prefix_append [n] ns)
      rw [List.nil_append, put, put, get?, get?, named?_putNamed, if_neg hn]
      exact .refl _
  | cons m ms ih =>
    obtain ⟨es, hes⟩ := hasFolder_iff.1 h
    cases root with
    | file c => simp [get?] at hes
    | folder entries =>
      rw [get?] at hes
      cases hm : named? entries m with
      | none => simp [hm] at hes
      | some child =>
        rw [hm] at hes
        cases w with
        | nil => exact .folder _ _
        | cons n ns =>
          rw [List.cons_append, put, get?, get?, named?_putNamed]
          by_cases hn : n = m
          · subst hn
            rw [if_pos rfl, hm]
            refine ih (hasFolder_iff.2 ⟨es, hes⟩) fun hp => hw ?_
            exact (List.prefix_cons_inj n).2 hp
          · rw [if_neg hn]
            exact .refl _

/-! ## Trees that look alike -/

/-- Two answers that are alike but for what is in a file or a folder. -/
inductive Alike : Except Fault Entry → Except Fault Entry → Prop
  | error (f : Fault) : Alike (.error f) (.error f)
  | file (c c' : Content) : Alike (.ok (.file c)) (.ok (.file c'))
  | folder (es es' : List (String × Entry)) : Alike (.ok (.folder es)) (.ok (.folder es'))

theorem Alike.refl (x : Except Fault Entry) : Alike x x := by
  cases x with
  | error f => exact .error f
  | ok e =>
    cases e with
    | file c => exact .file c c
    | folder es => exact .folder es es

theorem Same.alike {x y : Except Fault Entry} (h : Same x y) : Alike x y := by
  cases h with
  | refl => exact .refl x
  | folder es es' => exact .folder es es'

/-- Another content of a file is not seen from outside of it. -/
theorem alike_put_file {c : Content} (content : Content)
    (h : root.get? (way ++ [name]) = .ok (.file c)) (w : List String) :
    Alike (root.get? w) ((put (.file content) (way ++ [name]) root).get? w) := by
  have hf := hasFolder_of_get?_append h
  by_cases hw : way ++ [name] <+: w
  · obtain ⟨more, rfl⟩ := hw
    rw [get?_append, get?_append _ (way ++ [name]), h, get?_put_self _ hf]
    cases more with
    | nil => exact .file c content
    | cons n ns => exact .error .notFolder
  · exact (get?_put _ hf hw).alike

theorem hasFolder_congr (h : Alike (root.get? way) (root'.get? way)) :
    root.hasFolder way = root'.hasFolder way := by
  rw [hasFolder, hasFolder]
  generalize root.get? way = x at h
  generalize root'.get? way = y at h
  cases h <;> rfl

theorem get?_concat_of_folder {es : List (String × Entry)} (h : root.get? way = .ok (.folder es))
    (name : String) : root.get? (way ++ [name]) =
      match named? es name with
      | none => .error .missing
      | some e => .ok e := by
  rw [get?_append, h, Except.bind, get?]
  cases named? es name with
  | none => rfl
  | some e => exact get?_nil e

/-- Trees that look alike are walked alike. -/
theorem walk_congr (h : ∀ w, Alike (root.get? w) (root'.get? w)) (way parts : List String) :
    root.walk way parts = root'.walk way parts := by
  induction parts generalizing way with
  | nil => rfl
  | cons part parts ih =>
    have hw := h way
    have hp := h (way ++ [part])
    rw [walk, walk]
    cases hx : root.get? way with
    | error f =>
      rw [hx] at hw
      generalize root'.get? way = y at hw
      cases hw
      rfl
    | ok e =>
      rw [hx] at hw
      cases e with
      | file c =>
        generalize root'.get? way = y at hw
        cases hw
        rfl
      | folder es =>
        cases hy : root'.get? way with
        | error f => rw [hy] at hw; cases hw
        | ok e' =>
          cases e' with
          | file c => rw [hy] at hw; cases hw
          | folder es' =>
            have hn : (named? es part).isNone = (named? es' part).isNone := by
              rw [get?_concat_of_folder hx, get?_concat_of_folder hy] at hp
              cases h1 : named? es part with
              | none =>
                cases h2 : named? es' part with
                | none => rfl
                | some e' => simp only [h1, h2] at hp; cases hp
              | some e =>
                cases h2 : named? es' part with
                | none => simp only [h1, h2] at hp; cases hp
                | some e' => rfl
            simp only [bind, Except.bind, hn, ih]

theorem locate_congr (h : ∀ w, Alike (root.get? w) (root'.get? w)) (base : List String)
    (path : String) : root.locate base path = root'.locate base path := by
  have hf : root.hasFolder = root'.hasFolder := funext fun w => hasFolder_congr (h w)
  rw [locate, locate, walk_congr h, hf]

/-! ## Trees that have more -/

/-- What a tree has is in another, each file and folder a file or folder. -/
def Grows (root root' : Entry) : Prop :=
  ∀ w e, root.get? w = .ok e → ∃ e', root'.get? w = .ok e' ∧ e'.isFolder = e.isFolder

theorem Grows.get?_folder (h : Grows root root') {es : List (String × Entry)}
    (he : root.get? w = .ok (.folder es)) : ∃ es', root'.get? w = .ok (.folder es') := by
  obtain ⟨e', he', hf⟩ := h w _ he
  cases e' with
  | folder es' => exact ⟨es', he'⟩
  | file c => simp [isFolder] at hf

theorem Grows.hasFolder (h : Grows root root') (hw : root.hasFolder w = true) :
    root'.hasFolder w = true := by
  obtain ⟨es, hes⟩ := hasFolder_iff.1 hw
  exact hasFolder_iff.2 (h.get?_folder hes)

/-- The steps of a walk: each part but dots is the name of an entry of the folder it starts in. -/
theorem walk_cons {part : String} {parts : List String} {w' : List String} :
    root.walk w (part :: parts) = .ok w' ↔ ∃ es, root.get? w = .ok (.folder es) ∧
      (part = "." ∧ root.walk w parts = .ok w' ∨
        part ≠ "." ∧ part = ".." ∧ root.walk w.dropLast parts = .ok w' ∨
        Path.isDots part = false ∧ part.utf8ByteSize ≤ maxName ∧ (named? es part).isSome ∧
          root.walk (w ++ [part]) parts = .ok w') := by
  rw [walk]
  cases hg : root.get? w with
  | error f => simp [bind, Except.bind]
  | ok e =>
    cases e with
    | file c => simp [bind, Except.bind]
    | folder es =>
      simp only [bind, Except.bind, Except.ok.injEq, Entry.folder.injEq, exists_eq_left']
      by_cases h1 : part = "."
      · simp [h1, Path.isDots]
      · by_cases h2 : part = ".."
        · simp [h2, Path.isDots]
        · rw [if_neg h1, if_neg h2]
          by_cases h3 : maxName < part.utf8ByteSize
          · have h3' : ¬part.utf8ByteSize ≤ maxName := by omega
            simp [h1, h2, h3, h3', Path.isDots]
          · have h3' : part.utf8ByteSize ≤ maxName := by omega
            cases hn : named? es part with
            | none => simp [h1, h2, h3, Path.isDots]
            | some e => simp [h1, h2, h3, h3', Path.isDots]

/-- A walk through a tree is one through a tree that has more. -/
theorem Grows.walk (h : Grows root root') {parts w' : List String}
    (hw : root.walk w parts = .ok w') : root'.walk w parts = .ok w' := by
  induction parts generalizing w with
  | nil => exact hw
  | cons part parts ih =>
    obtain ⟨es, hes, hc⟩ := walk_cons.1 hw
    obtain ⟨es', hes'⟩ := h.get?_folder hes
    refine walk_cons.2 ⟨es', hes', ?_⟩
    rcases hc with ⟨hp, hc⟩ | ⟨hp, hd, hc⟩ | ⟨hp, hl, hn, hc⟩
    · exact .inl ⟨hp, ih hc⟩
    · exact .inr (.inl ⟨hp, hd, ih hc⟩)
    · refine .inr (.inr ⟨hp, hl, ?_, ih hc⟩)
      obtain ⟨e, he⟩ := Option.isSome_iff_exists.1 hn
      have hg := get?_concat_of_folder hes part
      rw [he] at hg
      obtain ⟨e', he', -⟩ := h _ _ hg
      rw [get?_concat_of_folder hes'] at he'
      cases hn' : named? es' part with
      | none => simp [hn'] at he'
      | some e' => rfl

theorem walk_append (root : Entry) (w ps qs : List String) :
    root.walk w (ps ++ qs) = (root.walk w ps).bind (root.walk · qs) := by
  induction ps generalizing w with
  | nil => rfl
  | cons p ps ih =>
    rw [List.cons_append, Entry.walk, Entry.walk]
    cases root.get? w with
    | error f => rfl
    | ok e =>
      cases e with
      | file c => rfl
      | folder es =>
        simp only [bind, Except.bind]
        split
        · exact ih w
        · split
          · exact ih w.dropLast
          · split
            · rfl
            · split
              · rfl
              · exact ih (w ++ [p])

theorem locate_eq_ok {base : List String} {path : String} {w : List String} :
    root.locate base path = .ok w ↔ refuse? path = none ∧
      root.walk base (Path.parts path) = .ok w ∧
      (path.endsWith "/" = true → root.hasFolder w = true) := by
  rw [locate]
  cases refuse? path with
  | some f => simp
  | none =>
    cases root.walk base (Path.parts path) with
    | error f => simp [bind, Except.bind]
    | ok w' =>
      simp only [bind, Except.bind, true_and, Except.ok.injEq]
      split
      · rename_i h
        rw [Bool.and_eq_true, Bool.not_eq_true'] at h
        constructor
        · intro hf
          simp at hf
        · rintro ⟨rfl, hf⟩
          exact absurd (hf h.1) (by simp [h.2])
      · rename_i h
        constructor
        · intro hw
          obtain rfl := Except.ok.inj hw
          refine ⟨rfl, fun he => ?_⟩
          simpa [he] using h
        · rintro ⟨rfl, -⟩
          rfl

theorem Grows.locate (h : Grows root root') {base : List String} {path : String}
    (hw : root.locate base path = .ok w) : root'.locate base path = .ok w := by
  obtain ⟨hr, hw, hf⟩ := locate_eq_ok.1 hw
  exact locate_eq_ok.2 ⟨hr, h.walk hw, fun he => h.hasFolder (hf he)⟩

/-! ## Paths to files -/

variable {base : List String} {path : String}

theorem refuse?_eq_none : refuse? path = none ↔
    '\x00' ∉ path.toList ∧ path.utf8ByteSize < maxPath ∧ path ≠ "" ∧
      Path.isAbsolute path = false := by
  rw [refuse?]
  constructor
  · intro h
    split at h
    · cases h
    · split at h
      · cases h
      · split at h
        · cases h
        · rename_i hnull hlong hempty
          split at h
          · rename_i ha
            refine ⟨by simpa using hnull, by omega, ?_, by simpa using ha⟩
            rintro rfl
            exact hempty rfl
          · split at h <;> cases h
  · rintro ⟨hnull, hlong, hne, ha⟩
    rw [if_neg (by simpa using hnull), if_neg (by omega), if_neg (by simpa using hne), ha]
    rfl

theorem approach_eq_ok {name : String} :
    root.approach base path = .ok (way, name) ↔ refuse? path = none ∧
      root.walk base (Path.parts path).dropLast = .ok way ∧
      name = (Path.parts path).getLast?.getD "." ∧ root.hasFolder way = true ∧
      name.utf8ByteSize ≤ maxName := by
  rw [approach]
  dsimp only
  cases refuse? path with
  | some f => simp
  | none =>
    cases root.walk base (Path.parts path).dropLast with
    | error f => simp [bind, Except.bind]
    | ok way' =>
      simp only [bind, Except.bind, true_and, Except.ok.injEq]
      cases hf : root.hasFolder way' with
      | false =>
        constructor
        · intro h
          simp at h
        · rintro ⟨rfl, -, hf', -⟩
          exact absurd hf' (by simp [hf])
      | true =>
        rw [Bool.not_true, if_neg Bool.false_ne_true]
        split
        · rename_i hm
          constructor
          · intro h
            simp at h
          · rintro ⟨-, rfl, -, hm'⟩
            omega
        · rename_i hm
          constructor
          · intro h
            obtain ⟨rfl, rfl⟩ := Prod.mk.inj (Except.ok.inj h)
            exact ⟨rfl, rfl, hf, by omega⟩
          · rintro ⟨rfl, rfl, -, -⟩
            rfl

/-- A path to a file ends in its name, and the folder it is in can be approached. -/
theorem locate_file {c : Content} (hl : root.locate base path = .ok w)
    (hc : root.get? w = .ok (.file c)) :
    ∃ way name, w = way ++ [name] ∧ root.approach base path = .ok (way, name) ∧
      path.endsWith "/" = false ∧ Path.isDots name = false ∧
      Path.fileName? path = some name := by
  obtain ⟨hr, hw, hf⟩ := locate_eq_ok.1 hl
  obtain ⟨-, -, hne, ha⟩ := refuse?_eq_none.1 hr
  have hfile : ¬root.hasFolder w = true := by
    rw [hasFolder, hc]
    simp [isFolder]
  have hparts := Path.parts_ne_nil hne ha
  have hlast := List.dropLast_concat_getLast hparts
  rw [← hlast, walk_append] at hw
  cases hi : root.walk base (Path.parts path).dropLast with
  | error f => simp [hi, Except.bind] at hw
  | ok way =>
    rw [hi] at hw
    obtain ⟨es, hes, hstep⟩ := walk_cons.1 hw
    have hway := hasFolder_iff.2 ⟨es, hes⟩
    rcases hstep with ⟨-, hstep⟩ | ⟨-, -, hstep⟩ | ⟨hd, hm, -, hstep⟩
    · obtain rfl := Except.ok.inj hstep
      exact absurd hway hfile
    · obtain rfl := Except.ok.inj hstep
      exact absurd (hasFolder_dropLast hway) hfile
    · obtain rfl := Except.ok.inj hstep
      have hg := List.getLast?_eq_some_getLast hparts
      refine ⟨way, _, rfl, approach_eq_ok.2 ⟨hr, hi, ?_, hway, hm⟩, ?_, hd,
        Path.fileName?_of_parts ha hg hd⟩
      · rw [hg, Option.getD_some]
      · exact (Bool.not_eq_true _).mp fun he => hfile (hf he)

/-! ## Paths seen from files -/

/-- A walk starts in a folder if it ends in one. -/
theorem hasFolder_of_walk {parts w' : List String} (hw : root.walk w parts = .ok w')
    (hf : root.hasFolder w' = true) : root.hasFolder w = true := by
  cases parts with
  | nil =>
    obtain rfl := Except.ok.inj hw
    exact hf
  | cons part parts =>
    obtain ⟨es, hes, -⟩ := walk_cons.1 hw
    exact hasFolder_iff.2 ⟨es, hes⟩

/-- Single dots do not count on the way to a folder. -/
theorem walk_filter {parts w' : List String} (hf : root.hasFolder w' = true) :
    root.walk w (parts.filter (· ≠ ".")) = .ok w' ↔ root.walk w parts = .ok w' := by
  induction parts generalizing w with
  | nil => rfl
  | cons part parts ih =>
    rcases eq_or_ne part "." with rfl | hp
    · rw [List.filter_cons_of_neg (by simp), ih, walk_cons]
      refine ⟨fun h => ?_, fun ⟨_, _, h⟩ => by simpa [Path.isDots] using h⟩
      obtain ⟨es, hes⟩ := hasFolder_iff.1 (hasFolder_of_walk h hf)
      exact ⟨es, hes, .inl ⟨rfl, h⟩⟩
    · rw [List.filter_cons_of_pos (by simpa using hp), walk_cons, walk_cons]
      simp only [ih]

/-- A path seen from the folder of a file leads where it leads from that folder. -/
theorem walk_join {c : Content} {relative : String}
    (hl : root.locate base path = .ok (way ++ [name]))
    (hc : root.get? (way ++ [name]) = .ok (.file c)) (hr : Path.isAbsolute relative = false) :
    root.walk base (Path.parts (Path.join ((Path.parent? path).getD "") relative)) =
      root.walk way (Path.parts relative) := by
  obtain ⟨way', name', hw, happ, -, hd, -⟩ := locate_file hl hc
  obtain ⟨rfl, hn⟩ := List.append_inj' hw rfl
  obtain rfl := List.singleton_inj.1 hn
  obtain ⟨href, hwalk, hlast, hfolder, -⟩ := approach_eq_ok.1 happ
  obtain ⟨-, -, hne, ha⟩ := refuse?_eq_none.1 href
  have hparts := Path.parts_ne_nil hne ha
  rw [List.getLast?_eq_some_getLast hparts, Option.getD_some] at hlast
  have hsplit := List.dropLast_concat_getLast hparts
  rw [← hlast] at hsplit
  have hdot : name ≠ "." := by
    rintro rfl
    exact absurd hd (by decide)
  obtain ⟨folder, hf, -, hfilter⟩ := Path.parts_parent? ha hsplit.symm hdot
  rw [← walk_filter hfolder, ← hfilter, walk_filter hfolder] at hwalk
  rw [hf, Option.getD_some, Path.parts_join folder hr, walk_append, hwalk]
  rfl

/-! ## Reading -/

theorem readText_eq_ok {text : String} :
    root.readText base path = .ok text ↔
      ∃ w, root.locate base path = .ok w ∧ root.get? w = .ok (.file (.text text)) := by
  rw [readText]
  cases root.locate base path with
  | error f => simp [bind, Except.bind]
  | ok w =>
    simp only [bind, Except.bind, Except.ok.injEq, exists_eq_left']
    cases root.get? w with
    | error f => simp
    | ok e =>
      cases e with
      | folder es => simp
      | file c => cases c <;> simp

/-! ## Writing -/

theorem writeContent_eq_ok {content : Content} :
    root.writeContent base path content = .ok root' ↔
      ∃ way name, root.approach base path = .ok (way, name) ∧ path.endsWith "/" = false ∧
        Path.isDots name = false ∧ root.hasFolder (way ++ [name]) = false ∧
        root' = put (.file content) (way ++ [name]) root := by
  rw [writeContent]
  cases root.approach base path with
  | error f => simp [bind, Except.bind]
  | ok p =>
    obtain ⟨way, name⟩ := p
    simp only [bind, Except.bind, Except.ok.injEq, Prod.mk.injEq]
    split
    · rename_i h
      constructor
      · intro h'
        simp at h'
      · rintro ⟨_, _, ⟨rfl, rfl⟩, he, hd, hf, -⟩
        simp [he, hd, hf] at h
    · rename_i h
      simp only [Bool.or_eq_true, not_or, Bool.not_eq_true] at h
      constructor
      · intro h'
        exact ⟨way, name, ⟨rfl, rfl⟩, h.1.1, h.1.2, h.2, (Except.ok.inj h').symm⟩
      · rintro ⟨_, _, ⟨rfl, rfl⟩, -, -, -, rfl⟩
        rfl

/-- A file that can be read can be written. Whatever leads to it then reads what was written, and
all else is read as before. -/
theorem writeText_of_readText {old : String} (text : String)
    (h : root.readText base path = .ok old) :
    ∃ root', root.writeText base path text = .ok root' ∧
      (∀ base path, root'.locate base path = root.locate base path) ∧
      ∀ base' path', root'.readText base' path' =
        if (root.locate base' path').toOption = (root.locate base path).toOption then .ok text
        else root.readText base' path' := by
  obtain ⟨w, hl, hg⟩ := readText_eq_ok.1 h
  obtain ⟨way, name, rfl, ha, he, hd, -⟩ := locate_file hl hg
  have hfolder := hasFolder_of_get?_append hg
  have hf : root.hasFolder (way ++ [name]) = false := by
    rw [hasFolder, hg]
    rfl
  have halike := alike_put_file (.text text) hg
  have hlocate (base : List String) (path : String) :=
    (locate_congr halike base path).symm
  refine ⟨put (.file (.text text)) (way ++ [name]) root,
    writeContent_eq_ok.2 ⟨way, name, ha, he, hd, hf, rfl⟩, hlocate, fun base' path' => ?_⟩
  rw [readText, readText, hlocate, hl]
  cases hl' : root.locate base' path' with
  | error f => simp [bind, Except.bind, Except.toOption]
  | ok w' =>
    simp only [bind, Except.bind, Except.toOption, Option.some.injEq]
    by_cases hw : w' = way ++ [name]
    · rw [if_pos hw, hw, get?_put_self _ hfolder]
    · rw [if_neg hw]
      have hp : way ++ [name] <+: w' → ∃ f, root.get? w' = .error f ∧
          (put (.file (.text text)) (way ++ [name]) root).get? w' = .error f := by
        rintro ⟨more, rfl⟩
        cases more with
        | nil => exact absurd (List.append_nil _) hw
        | cons n ns =>
          refine ⟨.notFolder, ?_, ?_⟩
          · rw [get?_append, hg]
            rfl
          · rw [get?_append, get?_put_self _ hfolder]
            rfl
      by_cases hpre : way ++ [name] <+: w'
      · obtain ⟨f, h1, h2⟩ := hp hpre
        rw [h1, h2]
      · have hs := get?_put (.file (.text text)) hfolder hpre
        generalize root.get? w' = x at hs
        generalize (put (.file (.text text)) (way ++ [name]) root).get? w' = y at hs
        cases hs <;> rfl

/-- A file that has been written can be read. Files of other names that could be read before still
can be. -/
theorem readText_of_writeText {text : String} (h : root.writeText base path text = .ok root') :
    root'.readText base path = .ok text ∧
      ∀ base' path' old, root.readText base' path' = .ok old →
        Path.fileName? path' ≠ Path.fileName? path → root'.readText base' path' = .ok old := by
  obtain ⟨way, name, ha, he, hd, hf, rfl⟩ := writeContent_eq_ok.1 h
  obtain ⟨hr, hw, hn, hway, hm⟩ := approach_eq_ok.1 ha
  obtain ⟨-, -, hne, habs⟩ := refuse?_eq_none.1 hr
  have hparts := Path.parts_ne_nil hne habs
  have hlast := List.getLast?_eq_some_getLast hparts
  rw [hlast, Option.getD_some] at hn
  rw [← hn] at hlast
  have hother {w : List String} {e : Entry} (hg : root.get? w = .ok e) (hw : w ≠ way ++ [name]) :
      ¬way ++ [name] <+: w := by
    rintro ⟨more, rfl⟩
    cases more with
    | nil => exact hw (List.append_nil _)
    | cons n ns => exact absurd (hasFolder_of_get?_append hg) (by simp [hf])
  have hgrows : Grows root (put (.file (.text text)) (way ++ [name]) root) := by
    intro w e hg
    by_cases hw : w = way ++ [name]
    · subst hw
      refine ⟨_, get?_put_self _ hway, ?_⟩
      rw [hasFolder, hg] at hf
      exact hf.symm
    · have hs := get?_put (.file (.text text)) hway (hother hg hw)
      rw [hg] at hs
      generalize (put (.file (.text text)) (way ++ [name]) root).get? w = y at hs ⊢
      cases hs with
      | refl => exact ⟨e, rfl, rfl⟩
      | folder es es' => exact ⟨_, rfl, rfl⟩
  refine ⟨readText_eq_ok.2 ⟨way ++ [name], locate_eq_ok.2 ⟨hr, ?_, by simp [he]⟩,
    get?_put_self _ hway⟩, fun base' path' old hold hname => ?_⟩
  · obtain ⟨es, hes⟩ := hgrows.get?_folder (hasFolder_iff.1 hway).choose_spec
    rw [← List.dropLast_concat_getLast hparts, walk_append, hgrows.walk hw, ← hn]
    refine walk_cons.2 ⟨es, hes, .inr (.inr ⟨hd, hm, ?_, rfl⟩)⟩
    have hc := get?_concat_of_folder hes name
    rw [get?_put_self _ hway] at hc
    cases hn' : named? es name with
    | none => simp [hn'] at hc
    | some e => rfl
  · obtain ⟨w, hl, hg⟩ := readText_eq_ok.1 hold
    obtain ⟨way', name', rfl, -, -, -, hf'⟩ := locate_file hl hg
    refine readText_eq_ok.2 ⟨way' ++ [name'], hgrows.locate hl, ?_⟩
    have hw : way' ++ [name'] ≠ way ++ [name] := by
      intro heq
      obtain rfl := (List.append_inj' heq rfl).2 |> List.singleton_inj.1
      exact hname (hf'.trans (Path.fileName?_of_parts habs hlast hd).symm)
    have hs := get?_put (.file (.text text)) hway (hother hg hw)
    rw [hg] at hs
    generalize (put (.file (.text text)) (way ++ [name]) root).get? (way' ++ [name']) = y at hs ⊢
    cases hs
    rfl

/-! ## Making folders -/

/-- What a tree has is in another, each file with what it holds. -/
def Keeps (root root' : Entry) : Prop :=
  ∀ w e, root.get? w = .ok e → Same (.ok e) (root'.get? w)

theorem Keeps.refl (root : Entry) : Keeps root root := by
  intro w e h
  rw [h]
  exact .refl _

theorem Keeps.trans {r₁ r₂ r₃ : Entry} (h : Keeps r₁ r₂) (h' : Keeps r₂ r₃) : Keeps r₁ r₃ := by
  intro w e he
  have hs := h w e he
  generalize hx : r₂.get? w = x at hs
  cases hs with
  | refl => exact h' w e hx
  | folder es es' =>
    have hs' := h' w _ hx
    generalize r₃.get? w = y at hs' ⊢
    cases hs' with
    | refl => exact .folder _ _
    | folder _ es₃ => exact .folder _ _

theorem Keeps.grows (h : Keeps root root') : Grows root root' := by
  intro w e he
  have hs := h w e he
  generalize root'.get? w = y at hs ⊢
  cases hs with
  | refl => exact ⟨e, rfl, rfl⟩
  | folder es es' => exact ⟨_, rfl, rfl⟩

theorem Keeps.readText (h : Keeps root root') {text : String}
    (hr : root.readText base path = .ok text) : root'.readText base path = .ok text := by
  obtain ⟨w, hl, hg⟩ := readText_eq_ok.1 hr
  refine readText_eq_ok.2 ⟨w, h.grows.locate hl, ?_⟩
  have hs := h w _ hg
  generalize root'.get? w = y at hs ⊢
  cases hs
  rfl

theorem keeps_makeFolder (h : root.makeFolder base path = .ok root') : Keeps root root' := by
  rw [makeFolder] at h
  cases ha : root.approach base path with
  | error f => simp [ha, bind, Except.bind] at h
  | ok p =>
    obtain ⟨way, name⟩ := p
    obtain ⟨-, -, -, hway, -⟩ := approach_eq_ok.1 ha
    simp only [ha, bind, Except.bind] at h
    split at h
    · simp at h
    · rename_i f hf
      split at h
      · simp at h
      · obtain rfl := Except.ok.inj h
        intro w e he
        have hw : ¬way ++ [name] <+: w := by
          rintro ⟨more, rfl⟩
          rw [get?_append, hf] at he
          simp [Except.bind] at he
        rw [← he]
        exact get?_put _ hway hw

theorem keeps_makeEach (root : Entry) (base paths : List String) :
    Keeps root (root.makeEach base paths).2 := by
  induction paths with
  | nil => exact .refl root
  | cons path above ih =>
    rw [makeEach]
    dsimp only
    cases hp : root.makeFolder base path with
    | ok made => exact keeps_makeFolder hp
    | error fault =>
      cases fault with
      | missing =>
        -- the folders above are made first
        generalize root.makeEach base above = upper at ih ⊢
        obtain ⟨_ | _, root'⟩ := upper
        · exact ih
        · dsimp only
          cases hm : root'.makeFolder base path with
          | ok made => exact ih.trans (keeps_makeFolder hm)
          | error fault => exact ih
      | _ => exact .refl root

end Docsmith.Workspace.Entry
