import Docsmith.Description.Regions
import Docsmith.Proofs.Description.Attributes
import Docsmith.Proofs.Description.Block
import Docsmith.Proofs.Source.Site

/-!
# Declaring constants

A file without a fault that gets constants declares them when it is read again, and keeps what it
declared before.

* `ofSource_regionBlock`: the tokens of the file, with those of the constants among them;
* `grown_of_spread`: its outlines;
* `Declarable.regionBlock`: its tree, and so the constants its impls declare;
* `Declarable.declareConstants`, `Declarable.declareIn`: one region, and several one by one.
-/

namespace Docsmith.Description

open Docsmith.Source Docsmith.Text Lexer Token

variable {source new region : String} {a : Leaf} {front behind : List Token}
  {indent outer ws : List Char} {constants : List (String × String)}

theorem regionBlock_eq (indent : List Char) (region : String) (constants : List (String × String)) :
    ∃ us, regionBlock indent region constants = '\n' :: indent ++ '/' :: us :=
  ⟨_, by simp [regionBlock, String.toList_append]; rfl⟩

/-- The tokens of a file after a region of constants has been put in front of a brace. -/
theorem ofSource_regionBlock (hw : File.WellFormed source)
    (hp : (Preamble.ofChars? source.toList).isSome) (h : Site source a front behind)
    (hnames : ∀ c ∈ constants, IsIdentifier c.1) (hregion : '\n' ∉ region.toList)
    (hindent : ∀ b ∈ indent, isBlank b = true) (houter : ∀ b ∈ outer, isBlank b = true)
    (hws : ws = [] ∨ ws = ['\n'])
    (hnew : new.toList = Edit.applyAll source.toList [(File.read source).insertBlock a.start outer
      (ws ++ regionBlock indent region constants)]) :
    (Preamble.ofChars? new.toList).isSome ∧ ∃ us gap fresh, front = us ++ gap ∧
      (∃ t ∈ us, t.kind.isTrivia = false) ∧ Trivial gap ∧ Spread constants fresh ∧
      ofSource new = us ++ fresh ++ ⟨.rCurly, "\x7d", true⟩ :: behind := by
  obtain ⟨p, hp⟩ := Option.isSome_iff_exists.1 hp
  obtain ⟨rest, more, gap, rfl, hmore, -, hgap, hbreak, hedit⟩ := h.apply_insertBlock houter
    (ws ++ regionBlock indent region constants)
  rw [hedit] at hnew
  obtain ⟨us, blanks, rfl, hblanks, hlast⟩ := exists_whitespace_end rest
  obtain ⟨ts, hfront, t, ht, hk⟩ := h.exists_preamble hw hp
  have hspace : ∀ t ∈ blanks ++ more, t.kind = .whitespace :=
    List.forall_mem_append.2 ⟨hblanks, hmore⟩
  have hsolid : t ∉ blanks ++ more := by
    intro ht
    rw [hspace t ht] at hk
    cases hk
  rw [List.append_assoc] at hfront
  obtain ⟨A, rfl, hA⟩ : ∃ A, us = preamble p source.toList ++ A ∧ t ∈ A := by
    rcases List.append_eq_append_iff.1 hfront with ⟨X, -, hX⟩ | ⟨A, rfl, rfl⟩
    · exact absurd (hX ▸ List.mem_append_right X ht) hsolid
    · exact ⟨A, rfl, (List.mem_append.1 ht).resolve_right hsolid⟩
  have hblank : ∀ b ∈ concat (blanks ++ more), isBlank b = true := by
    intro b hb
    obtain ⟨u, hu, hb⟩ := List.mem_flatMap.1 hb
    exact (h.fits (by rw [List.append_assoc]; exact List.mem_append_right _ hu)).blank
      (hspace u hu) b hb
  have hblank' : ∀ b ∈ concat blanks ++ ws, isBlank b = true := by
    rw [List.forall_mem_append]
    refine ⟨fun b hb => hblank b (by rw [concat_append]; exact List.mem_append_left _ hb), ?_⟩
    rcases hws with rfl | rfl <;> simp [isBlank]
  -- the old text and the new one behind the last token in front of the blanks
  let ds := concat (blanks ++ more) ++ '\x7d' :: concat behind
  let es := concat blanks ++ ws ++ regionBlock indent region constants ++ gap ++
    '\x7d' :: concat behind
  have hbrace : concat (⟨.rCurly, "\x7d", true⟩ :: behind) = '\x7d' :: concat behind := rfl
  have hold : source.toList = concat (preamble p source.toList ++ A) ++ ds :=
    h.toList.trans (by simp [ds, concat_append, hbrace])
  replace hnew : new.toList = concat (preamble p source.toList ++ A) ++ es := by
    simp [hnew, es, concat_append, hbrace]
  have hall : lex ('\x7d' :: concat behind) = ⟨.rCurly, "\x7d", true⟩ :: behind := by
    have htokens := h.tokens
    rw [ofSource_eq hp, List.append_assoc, List.append_assoc, List.append_assoc,
      List.append_cancel_left_eq, ← List.append_assoc, ← List.append_assoc] at htokens
    exact lex_concat htokens
  have hpost : ∀ c ∈ ('\x7d' :: concat behind).head?, isBlank c = false := by
    rintro c ⟨⟩
    rfl
  obtain ⟨fresh, hfresh, hlex⟩ := lex_regionBlock hindent hregion hnames hblank' hgap hbreak hpost
  obtain ⟨vs, hvs⟩ := regionBlock_eq indent region constants
  have hhalts : Halts es := by
    have h := halts_blanks (c := '\n') hblank' (by decide)
      (indent ++ '/' :: (vs ++ (gap ++ '\x7d' :: concat behind)))
    simpa [es, hvs] using h
  have hopens : Preamble.OpensNone es := by
    have h : ∀ b ∈ concat blanks ++ ws ++ '\n' :: indent, isBlank b = true :=
      List.forall_mem_append.2 ⟨hblank', List.forall_mem_cons.2 ⟨rfl, hindent⟩⟩
    have h := Preamble.opensNone_blanks (c := '/') h (by decide) rfl
      (vs ++ (gap ++ '\x7d' :: concat behind))
    simpa [es, hvs] using h
  have hcomment : es.head? = some '\n' ∨ es.head? = ds.head? := by
    cases blanks with
    | nil =>
      left
      rcases hws with rfl | rfl <;> simp [es, hvs, concat]
    | cons u blanks =>
      right
      obtain ⟨c, cs, hc⟩ := List.exists_cons_of_ne_nil (h.fits (u := u) (by simp)).nonempty
      simp [es, ds, concat_cons, hc]
  obtain ⟨hp', htokens, -⟩ := ofSource_append (A := A)
    (B := blanks ++ more ++ ⟨.rCurly, "\x7d", true⟩ :: behind) hold hnew
    (halts_blanks hblank (by decide) _) hhalts
    (Preamble.opensNone_blanks hblank (by decide) rfl _) hopens (by simp [ds]) hp
    (by rw [h.tokens]; simp) rfl
    (fun u hu => (File.wellFormed_iff.1 hw).1 u (by rw [h.tokens]; simp [hu]))
    ⟨t, hA, by rintro hw; rw [hw] at hk; cases hk⟩
    (fun u hu => ⟨fun _ => hcomment, fun hw => absurd hw (hlast u (by
      rw [List.getLast?_append, Option.mem_def.1 hu]
      rfl))⟩)
  rw [hlex, hall] at htokens
  refine ⟨Option.isSome_iff_exists.2 ⟨p, hp'⟩, preamble p source.toList ++ A, blanks ++ more, fresh,
    by rw [List.append_assoc], ⟨t, List.mem_append_right _ hA, hk⟩, ?_, hfresh, ?_⟩
  · intro u hu
    rw [hspace u hu]
    rfl
  · rw [htokens, List.append_assoc _ fresh]

open Grammar Outline in
/-- The outlines of a file in which constants have been put in front of a brace. -/
theorem grown_of_spread {us gap fresh : List Token} (hne : constants ≠ [])
    (hus : ∃ t ∈ us, t.kind.isTrivia = false) (hgap : Trivial gap) (hfresh : Spread constants fresh)
    (hc : (outlineOf (Input.ofTokens false (us ++ gap ++ ⟨.rCurly, "\x7d", true⟩ :: behind))).2 = [])
    (hholder : (holdersAll none (outlineOf (Input.ofTokens false
      (us ++ gap ++ ⟨.rCurly, "\x7d", true⟩ :: behind))).1)[solidCount (us ++ gap)]? =
        some (some .assocItemList)) :
    (outlineOf (Input.ofTokens false (us ++ fresh ++ ⟨.rCurly, "\x7d", true⟩ :: behind))).2 = [] ∧
      GrownAll (List.replicate constants.length constantOutline) (solidCount behind)
        (outlineOf (Input.ofTokens false (us ++ gap ++ ⟨.rCurly, "\x7d", true⟩ :: behind))).1
        (outlineOf (Input.ofTokens false (us ++ fresh ++ ⟨.rCurly, "\x7d", true⟩ :: behind))).1 := by
  obtain ⟨c, cs, rfl⟩ := List.exists_cons_of_ne_nil hne
  have hcount : solidCount (us ++ gap) = solidCount us := by
    rw [solidCount_append, solidCount_of_trivial hgap, Nat.add_zero]
  obtain ⟨g₁, h₁⟩ := Input.exists_ofTokens_append false us (gap ++ ⟨.rCurly, "\x7d", true⟩ :: behind)
  obtain ⟨g₂, h₂⟩ := Input.exists_ofTokens_append_gap hgap g₁ (⟨.rCurly, "\x7d", true⟩ :: behind)
  obtain ⟨g₃, h₃⟩ := Input.exists_ofTokens_append false us
    (fresh ++ ⟨.rCurly, "\x7d", true⟩ :: behind)
  obtain ⟨g₄, h₄⟩ := hfresh.ofTokens ⟨.rCurly, "\x7d", true⟩ rfl g₃ behind
  rw [h₂, Input.ofTokens_cons rfl] at h₁
  rw [h₄] at h₃
  let I : Insertion := {
    closing := ⟨.rCurly, "\x7d", g₂⟩, closing' := ⟨.rCurly, "\x7d", g₄⟩
    behind := Input.ofTokens true behind, first := constantHead
    others := constantTail c.1 (quote c.2) ++ cs.flatMap inputOf
    items := List.replicate (c :: cs).length constantOutline
    closing_kind := rfl, closing_kind' := rfl, first_kind := rfl }
  have hI : I.Declares ((c :: cs).map fun c => (c.1, quote c.2)) := by
    refine ⟨?_, by rw [List.length_map]⟩
    rw [List.flatMap_map]
    rfl
  have hfront : Input.ofTokens false us ≠ [] := by
    intro hnil
    obtain ⟨t, ht, hk⟩ := hus
    rw [Input.trivial_of_ofTokens hnil t ht] at hk
    cases hk
  rw [List.append_assoc] at hc hholder
  rw [List.append_assoc, List.append_assoc, h₁, h₃]
  rw [h₁] at hc hholder
  rw [hcount, ← Input.length_ofTokens false] at hholder
  have h := Insertion.outlineOf_new hI hfront hc hholder
  rw [show I.behind.length = solidCount behind from Input.length_ofTokens true behind] at h
  exact h

/-! ## Files to declare constants in -/

/-- A file without a fault that starts with no broken fence, and in whose impls no impl stands inside
a type. -/
structure Declarable (source : String) : Prop where
  wellFormed : File.WellFormed source
  fences : (Preamble.ofChars? source.toList).isSome
  types : (File.read source).tree.TypesPlain

open Grammar Outline Tree in
/-- A region of constants in front of the brace of an impl's list declares the constants there, and
nothing else that is seen has changed. -/
theorem Declarable.regionBlock {typeName : String} {impl list : Located} (hd : Declarable source)
    (himpl : impl ∈ (File.read source).tree.nodesFrom 0) (hown : impl.tree.isOwn typeName = true)
    (hlist : impl.child? .assocItemList = some list) (ha : list.token? .rCurly = some a)
    (hne : constants ≠ []) (hnames : ∀ c ∈ constants, IsIdentifier c.1)
    (hregion : '\n' ∉ region.toList) (hindent : ∀ b ∈ indent, isBlank b = true)
    (houter : ∀ b ∈ outer, isBlank b = true) (hws : ws = [] ∨ ws = ['\n'])
    (hnew : new.toList = Edit.applyAll source.toList [(File.read source).insertBlock a.start outer
      (ws ++ Description.regionBlock indent region constants)]) :
    Declarable new ∧ ∃ added, Declaring (constants.map (·.1)) added ∧
      ∀ {β : Type} {see : Tree → Option β}, Steady typeName see →
        (seen see typeName (File.read new).tree.parts).Perm
          (seen see typeName (File.read source).tree.parts ++ added.filterMap see) := by
  have hs := File.sound_read source
  obtain ⟨hleaf, hka⟩ := Located.mem_ownLeaves_of_token? ha
  have hklist : list.kind? = some .assocItemList := Located.kind?_of_is (List.find?_some hlist)
  obtain ⟨front, behind, hsite⟩ := exists_site hd.wellFormed
    (mem_nodesFrom_of_mem_childNodes himpl (Located.mem_childNodes_of_child? hlist)) hklist hleaf hka
  obtain ⟨hfences, us, gap, fresh, rfl, hus, hgap, hfresh, htokens⟩ := ofSource_regionBlock
    hd.wellFormed hd.fences hsite hnames hregion hindent houter hws hnew
  have hlays := lays_ofSource hd.wellFormed
  have hclean := (File.wellFormed_iff.1 hd.wellFormed).2
  have hholder := hsite.holder
  have htree := File.tree_read source
  rw [hsite.tokens] at hlays hclean hholder htree
  obtain ⟨hclean', hgrown⟩ := grown_of_spread hne hus hgap hfresh hclean hholder
  have htree' := File.tree_read new
  rw [htokens] at htree'
  let F : Filling := {
    items := List.replicate constants.length constantOutline
    gap := gap, fresh := fresh, brace := ⟨.rCurly, "\x7d", true⟩, behind := behind
    Fine := Declaring (constants.map (·.1))
    trivial_gap := hgap, kind_brace := rfl
    woven := fun rest hrest => hfresh.woven rfl behind hrest }
  have hold : us ++ F.old = us ++ gap ++ ⟨.rCurly, "\x7d", true⟩ :: behind :=
    (List.append_assoc ..).symm
  have hnew' : us ++ F.new = us ++ fresh ++ ⟨.rCurly, "\x7d", true⟩ :: behind :=
    (List.append_assoc ..).symm
  rw [← hold] at hlays hgrown htree
  rw [← hnew'] at htree' hgrown
  obtain ⟨p, kids, gap', added, hgap', hadded, hswaps, hp⟩ := F.swaps_ofOutline hgrown hlays
  rw [← htree, ← htree'] at hswaps
  have hroot : (File.read source).tree.kind? ≠ some .assocItemList := by
    rw [htree]
    simp [ofOutline, Tree.kind?]
  have hstart : a.start = p + widthAll (kids ++ gap'.map ofToken) := by
    rw [hsite.start, widthAll_append, widthAll_map_ofToken, ← Nat.add_assoc]
    exact hp.symm
  have hbrace : '\x7d' ∈ F.brace.text.toList := (by decide : '\x7d' ∈ "\x7d".toList)
  obtain ⟨kind, left, right, himplTree, hleft, hswaps⟩ :=
    Located.swaps_of_child? hs himpl hlist hleaf hswaps hroot hstart hbrace
  rw [himplTree] at hown hswaps
  obtain ⟨hplain, hperm⟩ := hswaps.filled hown hleft hadded hbrace hd.types
  have hsound : ∀ t ∈ ofSource new, t.sound = true := by
    have hsound := (File.wellFormed_iff.1 hd.wellFormed).1
    rw [hsite.tokens] at hsound
    rw [htokens]
    simp only [List.forall_mem_append, List.forall_mem_cons] at hsound ⊢
    exact ⟨⟨hsound.1.1, hfresh.sound⟩, hsound.2⟩
  exact ⟨⟨File.wellFormed_iff.2 ⟨hsound, by rw [htokens]; exact hclean'⟩, hfences, hplain⟩, added,
    hadded, hperm⟩

/-! ## Declaring constants -/

/-- The constants of a table that no impl of the type declares. -/
def missing (source typeName : String) (constants : Table String String) : List (String × String) :=
  constants.entries.filter fun c => !(declared source typeName).contains c.1

theorem blank_indentOf? {f : File} (hs : f.tree.Sound) {l : Located} {indent : List Char}
    (h : f.indentOf? l = some indent) : ∀ b ∈ indent, isBlank b = true := by
  rw [File.indentOf?, Option.bind_eq_some_iff] at h
  obtain ⟨leaf, -, h⟩ := h
  cases isSeparator_of_breakIndent? hs h with
  | line hindent => exact fun b hb => (hindent b hb).1

/-- What becomes of a file in which constants are declared. -/
theorem declareConstants_cases {typeName : String} {constants : Table String String} {r : Revision}
    (h : declareConstants source typeName region constants = .ok r) :
    missing source typeName constants = [] ∧ r.after = source ∨
      missing source typeName constants ≠ [] ∧ ∃ impl list closing indent outer ws,
        ((File.read source).ownImpls typeName).getLast? = some impl ∧
        impl.child? .assocItemList = some list ∧ list.token? .rCurly = some closing ∧
        (∀ b ∈ indent, isBlank b = true) ∧ (∀ b ∈ outer, isBlank b = true) ∧
        (ws = [] ∨ ws = ['\n']) ∧
        r.after.toList = Edit.applyAll source.toList [(File.read source).insertBlock closing.start
          outer (ws ++ regionBlock indent region (missing source typeName constants))] := by
  have hs := File.sound_read source
  unfold declareConstants at h
  dsimp only at h
  rw [← declared, ← missing] at h
  generalize missing source typeName constants = new at h ⊢
  generalize File.read source = f at h hs ⊢
  by_cases hne : new = []
  · rw [if_pos (List.isEmpty_iff.2 hne)] at h
    obtain rfl := Except.ok.inj h
    exact .inl ⟨hne, rfl⟩
  · rw [if_neg (mt List.isEmpty_iff.1 hne)] at h
    cases hl : (f.ownImpls typeName).getLast?.bind (·.child? .assocItemList) with
    | none =>
      rw [hl] at h
      cases h
    | some list =>
      rw [hl] at h
      dsimp only at h
      cases hc : list.token? .rCurly with
      | none =>
        rw [hc] at h
        cases h
      | some closing =>
        rw [hc] at h
        simp only [pure, Except.pure, Except.ok.injEq] at h
        subst h
        obtain ⟨impl, himpl, hlist⟩ := Option.bind_eq_some_iff.1 hl
        have houter := blank_indentAt source.toList closing.start
        refine .inr ⟨hne, impl, list, closing, _, _, _, himpl, hlist, hc, ?_, houter, ?_,
          String.toList_ofList⟩
        · cases hi : list.members.head?.bind f.indentOf? with
          | none =>
            exact List.forall_mem_append.2 ⟨houter, List.all_eq_true.1 rfl⟩
          | some indent =>
            obtain ⟨first, -, hi⟩ := Option.bind_eq_some_iff.1 hi
            exact blank_indentOf? hs hi
        · split
          · exact .inr rfl
          · exact .inl rfl

/-- Where constants have been declared, those that were missing are declared once each in addition,
and nothing else that is seen has changed. -/
theorem Declarable.seen_declareConstants {typeName : String} {constants : Table String String}
    {r : Revision} (hd : Declarable source) (hnames : ∀ c ∈ constants.entries, IsIdentifier c.1)
    (hregion : '\n' ∉ region.toList)
    (h : declareConstants source typeName region constants = .ok r) :
    Declarable r.after ∧ ∃ added,
      Tree.Declaring ((missing source typeName constants).map (·.1)) added ∧
      ∀ {β : Type} {see : Tree → Option β}, Tree.Steady typeName see →
        (Tree.seen see typeName (File.read r.after).tree.parts).Perm
          (Tree.seen see typeName (File.read source).tree.parts ++ added.filterMap see) := by
  rcases declareConstants_cases h with ⟨hnone, hr⟩ | ⟨hne, impl, list, closing, indent, outer, ws,
    himpl, hlist, hclosing, hindent, houter, hws, hnew⟩
  · rw [hr, hnone, List.map_nil]
    refine ⟨hd, [], ⟨rfl, by simp, fun x hx => by cases hx⟩, fun _ => ?_⟩
    rw [List.filterMap_nil, List.append_nil]
  · have hmem := List.mem_of_getLast? himpl
    have hown : impl.tree.isOwn typeName = true := by
      have h := List.mem_map_of_mem (f := Located.tree) hmem
      rw [map_tree_ownImpls] at h
      exact (List.mem_filter.1 h).2
    have hnode : impl ∈ (File.read source).nodes :=
      (List.mem_filter.1 (List.mem_filter.1 hmem).1).1
    rw [File.nodes_eq] at hnode
    exact hd.regionBlock hnode hown hlist hclosing hne
      (fun c hc => hnames c (List.mem_filter.1 hc).1) hregion hindent houter hws hnew

/-- The constants that were missing are declared once each in addition. -/
theorem Declarable.declareConstants {typeName : String} {constants : Table String String}
    {r : Revision} (hd : Declarable source) (hnames : ∀ c ∈ constants.entries, IsIdentifier c.1)
    (hregion : '\n' ∉ region.toList)
    (h : declareConstants source typeName region constants = .ok r) :
    Declarable r.after ∧ (declared r.after typeName).Perm
      (declared source typeName ++ (missing source typeName constants).map (·.1)) := by
  obtain ⟨hd', added, hadded, hperm⟩ := hd.seen_declareConstants hnames hregion h
  refine ⟨hd', ?_⟩
  have hadded' : added.filterMap (fun t => t.constant?.filter Tree.isName) =
      (missing source typeName constants).map (·.1) := by
    rw [← List.filter_filterMap, hadded.constants, List.filter_eq_self, List.forall_mem_map]
    exact fun c hc => isName_of_isIdentifier (hnames c (List.mem_filter.1 hc).1)
  rw [declared_eq_names hd'.wellFormed, declared_eq_names hd.wellFormed, ← hadded']
  exact hperm (Tree.steady_name typeName)

/-- So all of them are declared, and what was declared still is. -/
theorem Declarable.mem_declared {typeName : String} {constants : Table String String}
    {r : Revision} (hd : Declarable source) (hnames : ∀ c ∈ constants.entries, IsIdentifier c.1)
    (hregion : '\n' ∉ region.toList)
    (h : Description.declareConstants source typeName region constants = .ok r) :
    (∀ c ∈ constants.entries, c.1 ∈ declared r.after typeName) ∧
      ∀ n ∈ declared source typeName, n ∈ declared r.after typeName := by
  have hperm := (hd.declareConstants hnames hregion h).2
  have hold : ∀ n ∈ declared source typeName, n ∈ declared r.after typeName :=
    fun n hn => hperm.mem_iff.2 (List.mem_append_left _ hn)
  refine ⟨fun c hc => ?_, hold⟩
  by_cases hmem : c.1 ∈ declared source typeName
  · exact hold _ hmem
  · refine hperm.mem_iff.2 (List.mem_append_right _ ?_)
    exact List.mem_map_of_mem (List.mem_filter.2 ⟨hc, by simpa using hmem⟩)

/-! ## Declaring regions -/

/-- The constants of all regions are declared at the end. -/
theorem Declarable.declareEach {typeName : String}
    {regions : List (String × Table String String)} {done r : Revision}
    (hd : Declarable done.after)
    (hregions : ∀ e ∈ regions, '\n' ∉ e.1.toList ∧ ∀ c ∈ e.2.entries, IsIdentifier c.1)
    (h : Regions.declareEach typeName regions done = .ok r) :
    Declarable r.after ∧ (∀ e ∈ regions, ∀ c ∈ e.2.entries, c.1 ∈ declared r.after typeName) ∧
      ∀ n ∈ declared done.after typeName, n ∈ declared r.after typeName := by
  induction regions generalizing done with
  | nil =>
    obtain rfl := Except.ok.inj h
    exact ⟨hd, by simp, fun _ hn => hn⟩
  | cons e rest ih =>
    obtain ⟨region, constants⟩ := e
    obtain ⟨⟨hregion, hnames⟩, hrest⟩ := List.forall_mem_cons.1 hregions
    rw [Regions.declareEach] at h
    cases hs : Description.declareConstants done.after typeName region constants with
    | error e =>
      rw [hs] at h
      cases h
    | ok step =>
      rw [hs] at h
      replace h : Regions.declareEach typeName rest ⟨done.before, step.after⟩ = .ok r := h
      obtain ⟨hnew, hold⟩ := hd.mem_declared hnames hregion hs
      have hstep : Declarable (Revision.mk done.before step.after).after :=
        (hd.declareConstants hnames hregion hs).1
      obtain ⟨hr, hlater, hkept⟩ := ih hstep hrest h
      refine ⟨hr, List.forall_mem_cons.2 ⟨fun c hc => ?_, hlater⟩,
        fun n hn => hkept n (hold n hn)⟩
      exact hkept _ (hnew c hc)

/-- The constants of regions are declared where the regions have been. -/
theorem Declarable.declareIn {typeName : String} {regions : Regions} {r : Revision}
    (hd : Declarable source)
    (hregions : ∀ e ∈ regions.byName.entries,
      '\n' ∉ e.1.toList ∧ ∀ c ∈ e.2.entries, IsIdentifier c.1)
    (h : regions.declareIn source typeName = .ok r) :
    ∀ e ∈ regions.byName.entries, ∀ c ∈ e.2.entries, c.1 ∈ declared r.after typeName := by
  intro e he c hc
  have hne : e.2.isEmpty = false := by
    rw [Table.isEmpty, List.isEmpty_eq_false_iff]
    exact List.ne_nil_of_mem hc
  refine (Declarable.declareEach hd (fun e he => hregions e (List.mem_filter.1 he).1) h).2.1 e ?_ c hc
  exact List.mem_filter.2 ⟨he, by rw [hne]; rfl⟩

end Docsmith.Description
