import Docsmith.Proofs.Source.TopLevel

/-!
# New imports

The uses a file lacks are put behind the last one it has, or else at its top. There they are read as
items of their own, and every other node is what it was.

* `Adds`: tokens with the uses of some paths in front, `exists_adds_behind`, `exists_adds_front`;
* `Inserts`: a file that has got the uses of some paths between its nodes;
* `addImports_inserts`: the uses of the paths that are neither there nor asked for before are put
  in, and then nothing is missing.
-/

namespace Docsmith.Source

open Grammar (Input IsUse outlineOf)
open Outline Lexer
open Text (toLower)

variable {source new path : String} {paths : List String} {ts us : List Token} {o : Outline}
  {tree : Tree} {glued : Bool} {uses : List (List Input × Outline)} {trees : List Tree}
  {os : List Outline}

/-- The first tokens are the others with the uses of some paths in front of them. -/
structure Adds (paths : List String) (glued : Bool) (ts us : List Token)
    (uses : List (List Input × Outline)) (trees : List Tree) : Prop where
  isUse : ∀ p ∈ uses, IsUse p.1 p.2
  importTrees : trees.map Tree.importTree? = paths.map some
  sound : (∀ t ∈ us, t.sound = true) → ∀ t ∈ ts, t.sound = true
  inputs : Input.ofTokens glued ts = uses.flatMap (·.1) ++ Input.ofTokens glued us
  nodes {os : List Outline} : (∀ o ∈ os, o.kind?.isSome) →
    Tree.nodes (weaveAll (uses.map (·.2) ++ os) ts).1 = trees ++ Tree.nodes (weaveAll os us).1

theorem nodes_singleton_of_importTree? (h : tree.importTree? = some path) :
    Tree.nodes [tree] = [tree] := by
  rw [Tree.importTree?] at h
  split at h
  · rename_i hk
    exact Tree.nodes_singleton hk
  · cases h

namespace ReadsUse

variable (h : ReadsUse path o tree)
include h

/-- A use in front of other nodes. -/
theorem nodes (os : List Outline) (ts : List Token) :
    Tree.nodes (weaveAll (o :: os) (useTokens path ++ ts)).1 =
      tree :: Tree.nodes (weaveAll os ts).1 := by
  rw [← List.singleton_append, weaveAll_cat, h.weave, Tree.nodes_append,
    nodes_singleton_of_importTree? h.importTree]
  rfl

end ReadsUse

namespace Adds

theorem nil (glued : Bool) (us : List Token) : Adds [] glued us us [] [] where
  isUse _ h := nomatch h
  importTrees := rfl
  sound h := h
  inputs := rfl
  nodes _ := rfl

theorem isNode (h : Adds paths glued ts us uses trees) (hos : ∀ o ∈ os, o.kind?.isSome) :
    ∀ o ∈ uses.map (·.2) ++ os, o.kind?.isSome := by
  refine List.forall_mem_append.2 ⟨fun o ho => ?_, hos⟩
  obtain ⟨p, hp, rfl⟩ := List.mem_map.1 ho
  rw [(h.isUse p hp).kind]
  rfl

/-- A use on a line of its own, behind a semicolon. -/
theorem behind (h : Adds paths true ts us uses trees) (hp : ReadsUse path o tree) {w : Token}
    (hw : w.kind = .whitespace) (hsound : w.sound = true) :
    Adds (path :: paths) true (w :: (useTokens path ++ ts)) us
      ((Input.ofTokens false (useTokens path), o) :: uses) (tree :: trees) where
  isUse := List.forall_mem_cons.2 ⟨hp.isUse, h.isUse⟩
  importTrees := by rw [List.map_cons, List.map_cons, hp.importTree, h.importTrees]
  sound hus := List.forall_mem_cons.2 ⟨hsound, List.forall_mem_append.2 ⟨hp.sound, h.sound hus⟩⟩
  inputs := by
    rw [Input.ofTokens, if_pos (by rw [hw]; rfl), hp.ofTokens, h.inputs, List.flatMap_cons,
      List.append_assoc]
  nodes hos := by
    rw [List.map_cons, List.cons_append, nodes_weaveAll_blank hw, hp.nodes, h.nodes hos,
      List.cons_append]
    exact List.forall_mem_cons.2 ⟨by rw [hp.isUse.kind]; rfl, h.isNode hos⟩

/-- A use on a line of its own, at the top. -/
theorem front {gap rest : List Token} {w : Token} (h : Adds paths false (gap ++ rest) us uses trees)
    (hp : ReadsUse path o tree) (hw : w.kind = .whitespace) (hsound : w.sound = true)
    (hgap : gap = [] ∨ ∃ v : Token, gap = [v] ∧ v.kind = .whitespace) :
    Adds (path :: paths) false (useTokens path ++ w :: rest) us
      ((Input.ofTokens false (useTokens path), o) :: uses) (tree :: trees) where
  isUse := List.forall_mem_cons.2 ⟨hp.isUse, h.isUse⟩
  importTrees := by rw [List.map_cons, List.map_cons, hp.importTree, h.importTrees]
  sound hus := by
    refine List.forall_mem_append.2 ⟨hp.sound, List.forall_mem_cons.2 ⟨hsound, fun t ht => ?_⟩⟩
    exact h.sound hus t (List.mem_append_right _ ht)
  inputs := by
    have hrest : Input.ofTokens false (gap ++ rest) = Input.ofTokens false rest := by
      obtain rfl | ⟨v, rfl, hv⟩ := hgap
      · rfl
      · rw [List.singleton_append, Input.ofTokens, if_pos (by rw [hv]; rfl)]
    have hinputs := h.inputs
    rw [hrest] at hinputs
    rw [hp.ofTokens, Input.ofTokens, if_pos (by rw [hw]; rfl), hinputs, List.flatMap_cons,
      List.append_assoc]
  nodes {os} hos := by
    have hnodes := h.nodes hos
    have hall := h.isNode hos
    have hrest : Tree.nodes (weaveAll (uses.map (·.2) ++ os) (gap ++ rest)).1 =
        Tree.nodes (weaveAll (uses.map (·.2) ++ os) rest).1 := by
      obtain rfl | ⟨v, rfl, hv⟩ := hgap
      · rfl
      · exact nodes_weaveAll_blank hv hall rest
    rw [hrest] at hnodes
    rw [List.map_cons, List.cons_append, hp.nodes, nodes_weaveAll_blank hw hall, hnodes,
      List.cons_append]

end Adds

/-- A line break takes the blanks behind it into its token. -/
theorem lex_newline (cs : List Char) : ∃ w gap rest,
    Token.lex ('\n' :: cs) = w :: rest ∧ Token.lex cs = gap ++ rest ∧ w.kind = .whitespace ∧
      w.sound = true ∧ (gap = [] ∨ ∃ v : Token, gap = [v] ∧ v.kind = .whitespace) := by
  have hblank : ∀ b ∈ cs.takeWhile isBlank, isBlank b = true :=
    fun b hb => List.mem_takeWhile_imp hb
  have hhead : ∀ c ∈ (cs.dropWhile isBlank).head?, isBlank c = false := by
    intro c hc
    have h := List.head?_dropWhile_not isBlank cs
    rwa [Option.mem_def.1 hc] at h
  have hlex := Token.lex_blanks (List.cons_ne_nil '\n' _)
    (List.forall_mem_cons.2 ⟨rfl, hblank⟩) hhead
  rw [List.cons_append, List.takeWhile_append_dropWhile] at hlex
  by_cases hnil : cs.takeWhile isBlank = []
  · refine ⟨_, [], _, hlex, ?_, rfl, rfl, .inl rfl⟩
    conv_lhs => rw [← cs.takeWhile_append_dropWhile (p := isBlank), hnil]
    rfl
  · have hlex' := Token.lex_blanks hnil hblank hhead
    rw [List.takeWhile_append_dropWhile] at hlex'
    exact ⟨_, [_], _, hlex, hlex', rfl, rfl, .inr ⟨_, rfl, rfl⟩⟩

/-- Uses on lines behind others. -/
def usesBehind (paths : List String) : List Char :=
  paths.flatMap fun p => '\n' :: (useText p).toList

/-- Uses on lines in front of others. -/
def usesInFront (paths : List String) : List Char :=
  paths.flatMap fun p => (useText p).toList ++ ['\n']

/-- The uses of some paths behind a semicolon. -/
theorem exists_adds_behind (h : ∀ p ∈ paths, IsUseTree p) (cs : List Char) : ∃ uses trees,
    Adds paths true (Token.lex (usesBehind paths ++ cs)) (Token.lex cs) uses trees := by
  induction paths with
  | nil => exact ⟨[], [], .nil true _⟩
  | cons path paths ih =>
    obtain ⟨hp, h⟩ := List.forall_mem_cons.1 h
    obtain ⟨uses, trees, hadds⟩ := ih h
    obtain ⟨o, tree, hread⟩ := hp.exists_reads
    have hbreak : Token.lex ('\n' :: ((useText path).toList ++ (usesBehind paths ++ cs))) =
        ⟨.whitespace, "\n", true⟩ :: (useTokens path ++ Token.lex (usesBehind paths ++ cs)) := by
      rw [← hread.lex]
      refine Token.lex_blanks (List.cons_ne_nil '\n' []) (List.all_eq_true.1 rfl) ?_
      rw [toList_useText]
      rintro c ⟨⟩
      rfl
    have hadds' := hadds.behind hread (w := ⟨.whitespace, "\n", true⟩) rfl rfl
    rw [← hbreak] at hadds'
    exact ⟨_, _, by simpa [usesBehind, List.flatMap_cons] using hadds'⟩

/-- The uses of some paths at the top of a file. -/
theorem exists_adds_front (h : ∀ p ∈ paths, IsUseTree p) (cs : List Char) : ∃ uses trees,
    Adds paths false (Token.lex (usesInFront paths ++ cs)) (Token.lex cs) uses trees := by
  induction paths with
  | nil => exact ⟨[], [], .nil false _⟩
  | cons path paths ih =>
    obtain ⟨hp, h⟩ := List.forall_mem_cons.1 h
    obtain ⟨uses, trees, hadds⟩ := ih h
    obtain ⟨o, tree, hread⟩ := hp.exists_reads
    obtain ⟨w, gap, rest, hw, hrest, hk, hsound, hgap⟩ := lex_newline (usesInFront paths ++ cs)
    rw [hrest] at hadds
    have hadds' := hadds.front hread hk hsound hgap
    rw [← hw, ← hread.lex] at hadds'
    exact ⟨_, _, by simpa [usesInFront, List.flatMap_cons] using hadds'⟩

/-! ## Where uses are put -/

/-- One file is another one with the uses of some paths between its nodes: behind the last use, or
in front of all if there is none. -/
structure Inserts (paths : List String) (source new : String) (front back : List Tree) : Prop where
  wellFormed : File.WellFormed new
  text : ∃ above below lines, source.toList = above ++ below ∧
    new.toList = above ++ (lines ++ below) ∧
    (lines = usesBehind paths ∨ above = [] ∧ lines = usesInFront paths)
  old : (File.read source).topNodes = front ++ back
  new : ∃ uses, uses.map Tree.importTree? = paths.map some ∧
    (File.read new).topNodes = front ++ (uses ++ back)
  behind : ∀ t ∈ front.getLast?, t.kind? = some .useItem
  inFront : ∀ t ∈ back, t.kind? ≠ some .useItem

/-- No tree goes, and one comes for each path. -/
theorem Inserts.importTrees_perm {front back : List Tree}
    (h : Inserts paths source new front back) :
    (File.read new).importTrees.Perm ((File.read source).importTrees ++ paths) := by
  obtain ⟨uses, huses, hnew⟩ := h.new
  have hpaths : uses.filterMap Tree.importTree? = paths := by
    have := congrArg List.reduceOption huses
    simpa [List.reduceOption, List.filterMap_map] using this
  rw [File.importTrees_eq, File.importTrees_eq, h.old, hnew, List.filterMap_append,
    List.filterMap_append, List.filterMap_append, hpaths, List.append_assoc]
  exact List.perm_append_comm.append_left _

theorem exists_inserts_behind (hw : File.WellFormed source) {p : Preamble}
    (hp : Preamble.ofChars? source.toList = some p) {last : Located}
    (hlast : (File.read source).imports.getLast? = some last) (hpaths : ∀ p ∈ paths, IsUseTree p)
    (hnew : new.toList = source.toList.take last.stop ++
      (usesBehind paths ++ source.toList.drop last.stop)) :
    ∃ front back, Inserts paths source new front back := by
  obtain ⟨vs, ws, A, B, U, front, tree, h⟩ := exists_lastUse hw (List.mem_of_getLast? hlast)
  have hnew' : new.toList = Token.concat vs ++ ';' :: (usesBehind paths ++ Token.concat ws) := by
    rw [hnew, h.stop hlast, h.toList, List.append_cons, List.take_left' (by simp),
      List.drop_left' (by simp), List.append_assoc]
    rfl
  obtain ⟨hlex, hws⟩ := h.ofSource hw hp hnew'
  obtain ⟨uses, trees, hadds⟩ := exists_adds_behind hpaths (Token.concat ws)
  rw [← hws] at hadds
  generalize Token.lex (_ ++ Token.concat ws) = ns at hlex hadds
  have houtline : outlineOf (Input.ofTokens false (Token.ofSource new)) =
      (A ++ U :: (uses.map (·.2) ++ B), []) := by
    rw [hlex]
    exact h.insert hadds.isUse hadds.inputs
  have hsound : ∀ x ∈ Token.ofSource new, x.sound = true := by
    have hsound := (File.wellFormed_iff.1 hw).1
    rw [h.tokens] at hsound
    obtain ⟨hvs, hsound⟩ := List.forall_mem_append.1 hsound
    obtain ⟨ht, hsound⟩ := List.forall_mem_cons.1 hsound
    rw [hlex]
    exact List.forall_mem_append.2 ⟨hvs, List.forall_mem_cons.2 ⟨ht, hadds.sound hsound⟩⟩
  refine ⟨Tree.nodes (front ++ [tree]), Tree.nodes (weaveAll B ws).1, ⟨
    File.wellFormed_iff.2 ⟨hsound, by rw [houtline]⟩,
    ⟨_, _, _, (List.take_append_drop last.stop _).symm, hnew, .inl rfl⟩, ?_,
    ⟨trees, hadds.importTrees, ?_⟩, ?_, fun b hb => h.last b (List.mem_filter.1 hb).1⟩⟩
  · rw [File.topNodes_read, h.outline, h.tokens, List.append_cons A, weaveAll_cat, h.weave,
      Tree.nodes_append]
  · rw [File.topNodes_read, houtline, hlex, List.append_cons A, weaveAll_cat, h.weave,
      Tree.nodes_append, hadds.nodes h.isNode]
  · rw [Tree.nodes_append, Tree.nodes, Tree.nodes, List.filter_singleton, h.kind,
      Option.isSome_some, cond_true, List.getLast?_concat]
    rintro x ⟨⟩
    exact h.kind

/-! ## At the top -/

/-- The lexer reads neither an interpreter's line nor frontmatter. -/
theorem Token.kind_of_mem_lex {t : Token} {cs : List Char} (h : t ∈ Token.lex cs) :
    t.kind ≠ .shebang ∧ t.kind ≠ .frontmatter := by
  have hscan (c : Char) (cs : List Char) (hk : (scan c cs).1.isMark = true) :
      (scan c cs).1 ≠ .shebang ∧ (scan c cs).1 ≠ .frontmatter := by
    cases hb : isBlank c with
    | true => simp [scan_of_blank hb]
    | false =>
      by_cases hc : c = '/'
      · subst hc
        rcases kind_scan_slash cs with h | h <;> simp [h]
      · rcases TokenKind.mem_closers (scan_mark hc hb hk).1 with ⟨h, -⟩ | ⟨h, -⟩ | ⟨h, -⟩ <;>
          simp [h]
  fun_induction lex cs with
  | case1 => cases h
  | case2 c cs kind e hs ih =>
    rcases List.mem_cons.1 h with rfl | h
    · obtain rfl : (scan c cs).1 = kind := congrArg Prod.fst hs
      refine ⟨fun hk => ?_, fun hk => ?_⟩
      · exact (hscan c cs (by rw [show (scan c cs).1 = _ from hk]; rfl)).1 hk
      · exact (hscan c cs (by rw [show (scan c cs).1 = _ from hk]; rfl)).2 hk
    · exact ih h

theorem exists_inserts_front (hw : File.WellFormed source)
    (hp : Preamble.ofChars? source.toList = some ⟨0, 0⟩)
    (hattr : (File.read source).root.childrenOf .attr = [])
    (huse : (File.read source).imports = []) (hpaths : ∀ p ∈ paths, IsUseTree p)
    (hnew : new.toList =
      usesInFront paths ++ source.toList) :
    ∃ front back, Inserts paths source new front back := by
  obtain ⟨hsound, hfaults⟩ := File.wellFormed_iff.1 hw
  have hold := File.topNodes_read source
  have hnew' : Token.ofSource new = Token.lex new.toList := by
    refine ofSource_of_plain ?_
    rw [hnew]
    cases paths with
    | nil => exact hp
    | cons path paths =>
      rw [usesInFront, List.flatMap_cons, List.append_assoc, List.append_assoc]
      exact ofChars?_useText path _
  rw [ofSource_of_plain hp] at hsound hfaults hold
  generalize hos : outlineOf (Input.ofTokens false (Token.lex source.toList)) = r at hfaults hold
  obtain ⟨os, faults⟩ := r
  obtain rfl : faults = [] := hfaults
  have hattr' : ∀ o ∈ os, o.kind? ≠ some .attr := by
    intro o ho hk
    obtain ⟨t, ht, hkt⟩ := exists_kind_weaveAll.2 ⟨o, ho, hk⟩
    rw [← hold] at ht
    exact File.childrenOf_eq_nil_iff.1 hattr t ht hkt
  have hline : ∀ u ∈ (Input.ofTokens false (Token.lex source.toList)).head?,
      u.kind ≠ .shebang ∧ u.kind ≠ .frontmatter := by
    intro u hu
    obtain ⟨us, hus⟩ := List.head?_eq_some_iff.1 hu
    obtain ⟨vs, t, ws, hts, -, htk, -⟩ := Input.exists_token (hus.trans (List.nil_append _).symm)
    have ht : t ∈ Token.lex source.toList := by rw [hts]; simp
    rw [← htk]
    exact Token.kind_of_mem_lex ht
  obtain ⟨hnodes, hall⟩ := Grammar.outlineOf_in_front hos hline hattr'
  obtain ⟨uses, trees, hadds⟩ := exists_adds_front hpaths source.toList
  rw [← hnew] at hadds
  have houtline : outlineOf (Input.ofTokens false (Token.ofSource new)) =
      (uses.map (·.2) ++ os, []) := by
    rw [hnew', hadds.inputs]
    exact hall uses hadds.isUse
  have hsound' : ∀ t ∈ Token.ofSource new, t.sound = true := by
    rw [hnew']
    exact hadds.sound hsound
  refine ⟨[], (File.read source).topNodes, File.wellFormed_iff.2 ⟨hsound', by rw [houtline]⟩,
    ⟨[], _, _, rfl, hnew, .inr ⟨rfl, rfl⟩⟩, (List.nil_append _).symm,
    ⟨trees, hadds.importTrees, ?_⟩, by simp, fun t => File.childrenOf_eq_nil_iff.1 huse t⟩
  rw [File.topNodes_read, houtline, hnew', hadds.nodes hnodes, hold, List.nil_append]

/-! ## Missing imports -/

/-- The paths that are neither known nor named before, up to case. -/
def freshNames (known imports : List String) : List String :=
  let names := imports.map importedName
  (names.zipIdx.filter fun p =>
    toLower p.1 ∉ known ∧ toLower p.1 ∉ (names.take p.2).map toLower).map (·.1)

theorem freshNames_cons (known : List String) (i : String) (imports : List String) :
    freshNames known (i :: imports) =
      (if toLower (importedName i) ∈ known then [] else [importedName i]) ++
        freshNames (toLower (importedName i) :: known) imports := by
  have hlater : (((imports.map importedName).zipIdx 1).filter fun p =>
      decide (toLower p.1 ∉ known ∧ toLower p.1 ∉
        ((importedName i :: imports.map importedName).take p.2).map toLower)).map (·.1) =
          freshNames (toLower (importedName i) :: known) imports := by
    rw [List.zipIdx_succ, List.filter_map, List.map_map]
    refine congrArg (List.map _) (List.filter_congr fun p _ => ?_)
    simp
    grind
  rw [← hlater, freshNames, List.map_cons, List.zipIdx_cons, List.filter_cons]
  split <;> split <;> simp_all

theorem freshNames_congr {known known' : List String} (h : ∀ s, s ∈ known ↔ s ∈ known')
    (imports : List String) : freshNames known imports = freshNames known' imports := by
  simp only [freshNames, h]

theorem newImports_eq_freshNames {imports : List String} (h : ∀ i ∈ imports, importedName i ≠ "")
    (known : List String) : newImports known imports = freshNames known imports := by
  induction imports generalizing known with
  | nil => rfl
  | cons i imports ih =>
    obtain ⟨hi, h⟩ := List.forall_mem_cons.1 h
    rw [newImports, freshNames_cons, ← ih h]
    by_cases hk : toLower (importedName i) ∈ known
    · rw [if_pos (by simp [hk]), if_pos hk, ih h, ih h, List.nil_append]
      exact freshNames_congr (by simp [hk]) imports
    · rw [if_neg (by simp [hk, hi]), if_neg hk]
      rfl

/-- What is not fresh is known. -/
theorem mem_freshNames {known imports : List String} {i : String} (h : i ∈ imports) :
    toLower (importedName i) ∈ known ∨
      toLower (importedName i) ∈ (freshNames known imports).map toLower := by
  induction imports generalizing known with
  | nil => cases h
  | cons j imports ih =>
    rw [freshNames_cons, List.map_append, List.mem_append]
    have hj : toLower (importedName j) ∈ known ∨ toLower (importedName j) ∈
        (if toLower (importedName j) ∈ known then [] else [importedName j]).map toLower := by
      split <;> simp [*]
    rcases List.mem_cons.1 h with rfl | h
    · exact hj.imp_right .inl
    · rcases @ih (toLower (importedName j) :: known) h with h | h
      · rcases List.mem_cons.1 h with h | h
        · rw [h]
          exact hj.imp_right .inl
        · exact .inl h
      · exact .inr (.inr h)

/-- A file at whose last use, or else at whose top, there may be uses. -/
structure HoldsUses (source : String) : Prop where
  wellFormed : File.WellFormed source
  /-- No fence opens frontmatter that does not end. -/
  fences : (Preamble.ofChars? source.toList).isSome
  /-- Nothing that must come first stands at the top. -/
  top : (File.read source).imports = [] → Preamble.ofChars? source.toList = some ⟨0, 0⟩ ∧
    (File.read source).root.childrenOf .attr = []

theorem toList_addImports (source : String) (imports : List String) :
    (addImports source imports).after.toList =
      let missing := newImports ((File.read source).importTrees.map toLower) imports
      match (File.read source).imports.getLast? with
      | some last => source.toList.take last.stop ++
          (usesBehind missing ++ source.toList.drop last.stop)
      | none => usesInFront missing ++ source.toList := by
  have hbehind (missing : List String) :
      (missing.flatMap fun p => s!"\nuse {p};".toList) = usesBehind missing := by
    simp [usesBehind, useText, String.toList_append, ToString.toString]
  have hfront (missing : List String) :
      (missing.flatMap fun p => s!"use {p};\n".toList) = usesInFront missing := by
    simp [usesInFront, useText, String.toList_append, ToString.toString]
  rw [addImports]
  dsimp only
  generalize newImports _ imports = missing
  split
  · rename_i hnil
    rw [List.isEmpty_iff.1 hnil]
    split
    · exact (List.take_append_drop _ _).symm
    · rfl
  · rw [hbehind, hfront, String.toList_ofList, Edit.applyAll_singleton]
    cases (File.read source).imports.getLast? <;> simp [Edit.apply, Edit.insert]

/-- New uses are put next to each other, one for each path that is neither used at the top level nor
asked for before. Then every path is used, and nothing is missing. -/
theorem addImports_inserts {imports : List String} (h : HoldsUses source)
    (hpaths : ∀ i ∈ imports, IsUseTree (importedName i)) :
    (∃ front back, Inserts (freshNames ((File.read source).importTrees.map toLower) imports) source
      (addImports source imports).after front back) ∧
    (∀ i ∈ imports, toLower (importedName i) ∈
      (File.read (addImports source imports).after).importTrees.map toLower) ∧
    addImports (addImports source imports).after imports =
      .unchanged (addImports source imports).after := by
  have hname : ∀ i ∈ imports, importedName i ≠ "" := fun i hi hnil => by
    have := hpaths i hi
    rw [hnil] at this
    revert this
    decide +kernel
  have htext := toList_addImports source imports
  generalize (addImports source imports).after = new at htext
  dsimp only at htext
  rw [newImports_eq_freshNames hname] at htext
  have hfresh : ∀ p ∈ freshNames ((File.read source).importTrees.map toLower) imports,
      IsUseTree p := by
    intro p hp
    obtain ⟨q, hq, rfl⟩ := List.mem_map.1 hp
    obtain ⟨i, hi, hq⟩ := List.mem_map.1 (List.fst_mem_of_mem_zipIdx (List.mem_filter.1 hq).1)
    rw [← hq]
    exact hpaths i hi
  have hinserts : ∃ front back, Inserts (freshNames ((File.read source).importTrees.map toLower)
      imports) source new front back := by
    split at htext
    · rename_i last hlast
      obtain ⟨p, hp⟩ := Option.isSome_iff_exists.1 h.fences
      exact exists_inserts_behind h.wellFormed hp hlast hfresh htext
    · rename_i hnil
      have hnone := List.getLast?_eq_none_iff.1 hnil
      obtain ⟨hp, hattr⟩ := h.top hnone
      exact exists_inserts_front h.wellFormed hp hattr hnone hfresh htext
  have hused : ∀ i ∈ imports, toLower (importedName i) ∈
      (File.read new).importTrees.map toLower := by
    intro i hi
    obtain ⟨front, back, h⟩ := hinserts
    rw [h.importTrees_perm.map toLower |>.mem_iff, List.map_append, List.mem_append]
    exact mem_freshNames hi
  refine ⟨hinserts, hused, ?_⟩
  have hnil := newImports_eq_nil_iff.2 fun i hi => .inr (hused i hi)
  rw [addImports]
  dsimp only
  rw [hnil]
  rfl

theorem addImports_inserts_behind_use :
    HoldsUses "use x::Y;\nstruct A;\n" ∧
      (∀ i ∈ ["use a::B;", "A::b", "X::y", "c"], IsUseTree (importedName i)) ∧
      freshNames ((File.read "use x::Y;\nstruct A;\n").importTrees.map toLower)
        ["use a::B;", "A::b", "X::y", "c"] = ["a::B", "c"] ∧
      ∃ front back, Inserts
        (freshNames ((File.read "use x::Y;\nstruct A;\n").importTrees.map toLower)
          ["use a::B;", "A::b", "X::y", "c"])
        "use x::Y;\nstruct A;\n"
        (addImports "use x::Y;\nstruct A;\n" ["use a::B;", "A::b", "X::y", "c"]).after
        front back := by
  have h : HoldsUses "use x::Y;\nstruct A;\n" :=
    ⟨by decide +kernel, by decide +kernel, fun h => absurd h (by decide +kernel)⟩
  have hpaths : ∀ i ∈ ["use a::B;", "A::b", "X::y", "c"], IsUseTree (importedName i) := by
    decide +kernel
  exact ⟨h, hpaths, by decide +kernel, (addImports_inserts h hpaths).1⟩

/-- Files that start with an interpreter's line, with frontmatter and with an attribute of the file,
and one in which a fence opens that no frontmatter ends: their use trees, what the use of `a` makes
of them, and the use trees then. -/
def misplacedUses : List (String × List String × String × List String) := [
  ("#! use b;\n", [], "use a;\n#! use b;\n", ["a", "b"]),
  ("---\nuse b;\n---\n", [], "use a;\n---\nuse b;\n---\n", ["a", "b"]),
  ("#![x(use b;)]", [], "use a;\n#![x(use b;)]", ["a", "b"]),
  ("#!/**/[x] use b; /*\n---\n*/", ["b"], "#!/**/[x] use b;\nuse a; /*\n---\n*/", ["a"])]

/-- In front of what must come first, and next to an open fence, another use may come and one may
go. -/
theorem not_inserts_misplacedUses : IsUseTree (importedName "a") ∧
    ∀ c ∈ misplacedUses, File.WellFormed c.1 ∧ (File.read c.1).importTrees = c.2.1 ∧
      (addImports c.1 ["a"]).after = c.2.2.1 ∧ (File.read c.2.2.1).importTrees = c.2.2.2 ∧
      ¬ ∃ front back, Inserts (freshNames (c.2.1.map toLower) ["a"]) c.1 c.2.2.1 front back := by
  have hlength : ∀ c ∈ misplacedUses,
      c.2.2.2.length ≠ (c.2.1 ++ freshNames (c.2.1.map toLower) ["a"]).length := by
    decide +kernel
  have hread : ∀ c ∈ misplacedUses, File.WellFormed c.1 ∧ (File.read c.1).importTrees = c.2.1 ∧
      (addImports c.1 ["a"]).after = c.2.2.1 ∧ (File.read c.2.2.1).importTrees = c.2.2.2 := by
    decide +kernel
  refine ⟨by decide +kernel, fun c hc => ?_⟩
  obtain ⟨hw, hbefore, hafter, htrees⟩ := hread c hc
  refine ⟨hw, hbefore, hafter, htrees, ?_⟩
  rintro ⟨front, back, h⟩
  have hperm := h.importTrees_perm
  rw [hbefore, htrees] at hperm
  exact hlength c hc hperm.length_eq

end Docsmith.Source
