import Docsmith.Proofs.Description.Places

/-!
# Fields that are described already

A field is left out if the text of one of its attributes shows a description argument. Its text is
looked at line by line, so an argument of a schema attribute that stands further down than the line
of its parenthesis is found only directly behind the break of that line.

* `isSchemaDescription_iff`: what the text of an attribute shows;
* `DescriptionArgument.showsAt_iff`: which arguments it shows;
* `annotate_skips_iff`: when a field with such an argument is left out;
* `annotate_next_line`: a field with such an argument that is not.
-/

namespace Docsmith

open Docsmith.Source Docsmith.Naming Docsmith.Text

namespace Description

/-! ## What a text shows -/

/-- What stands between a parenthesis and an argument that is found: nothing, or a line's beginning
and one separator, which may be the line's break. -/
def Near (front : List Char) : Prop :=
  front = [] ∨ ∃ line c, front = line ++ [c] ∧ '\n' ∉ line ∧ separatesArguments c = true

/-- The text is that of a schema attribute, and shows a description argument behind `n`
characters. -/
def ShowsAt (n : Nat) (body : List Char) : Prop :=
  ∃ gap front gap' back : List Char,
    body = "schema".toList ++ (gap ++ '(' :: (front ++ (description ++ (gap' ++ '=' :: back)))) ∧
      "schema".length + gap.length + 1 + front.length = n ∧
      (∀ c ∈ gap ++ gap', isWhite c = true) ∧ Near front

theorem dropWhile_eq_cons_iff {p : Char → Bool} {c : Char} (hc : p c = false)
    {cs rest : List Char} :
    cs.dropWhile p = c :: rest ↔ ∃ gap, (∀ d ∈ gap, p d = true) ∧ cs = gap ++ c :: rest := by
  constructor
  · intro h
    refine ⟨cs.takeWhile p, fun d hd => List.mem_takeWhile_imp hd, ?_⟩
    rw [← h, List.takeWhile_append_dropWhile]
  · rintro ⟨gap, hgap, rfl⟩
    rw [List.dropWhile_append_of_pos hgap, List.dropWhile_cons_of_neg (by simp [hc])]

theorem afterStart?_eq_some_iff {start cs rest : List Char} :
    afterStart? start cs = some rest ↔ cs = start ++ rest :=
  ⟨eq_append_of_afterStart?, fun h => h ▸ afterStart?_append start rest⟩

theorem isWhite_sign : isWhite '=' = false := by decide

theorem isWhite_parenthesis : isWhite '(' = false := by decide

theorem startsDescription_iff {cs : List Char} : startsDescription cs = true ↔
    ∃ gap back, (∀ c ∈ gap, isWhite c = true) ∧ cs = description ++ (gap ++ '=' :: back) := by
  rw [startsDescription]
  constructor
  · intro h
    split at h
    · rename_i rest hrest
      obtain ⟨back, hback⟩ := List.head?_eq_some_iff.1 (of_decide_eq_true h)
      obtain ⟨gap, hgap, rfl⟩ := (dropWhile_eq_cons_iff isWhite_sign).1 hback
      exact ⟨gap, back, hgap, afterStart?_eq_some_iff.1 hrest⟩
    · cases h
  · rintro ⟨gap, back, hgap, rfl⟩
    have hdrop := (dropWhile_eq_cons_iff isWhite_sign).2 ⟨gap, hgap, Eq.refl (gap ++ '=' :: back)⟩
    simp only [afterStart?_append, hdrop, List.head?_cons, decide_true]

theorem describesLater_iff {cs : List Char} : describesLater cs = true ↔
    ∃ line c rest, '\n' ∉ line ∧ separatesArguments c = true ∧ cs = line ++ c :: rest ∧
      startsDescription rest = true := by
  induction cs with
  | nil => simp [describesLater]
  | cons c cs ih =>
    rw [describesLater, Bool.or_eq_true, Bool.and_eq_true, Bool.and_eq_true, ih]
    constructor
    · rintro (⟨hc, h⟩ | ⟨hc, line, d, rest, hline, hd, rfl, h⟩)
      · exact ⟨[], c, cs, List.not_mem_nil, hc, rfl, h⟩
      · refine ⟨c :: line, d, rest, ?_, hd, rfl, h⟩
        rw [List.mem_cons, not_or]
        exact ⟨fun he => of_decide_eq_true hc he.symm, hline⟩
    · rintro ⟨line, d, rest, hline, hd, heq, h⟩
      cases line with
      | nil =>
        obtain ⟨rfl, rfl⟩ := List.cons.inj heq
        exact .inl ⟨hd, h⟩
      | cons b line =>
        obtain ⟨rfl, rfl⟩ := List.cons.inj heq
        rw [List.mem_cons, not_or] at hline
        exact .inr ⟨decide_eq_true fun he => hline.1 he.symm, line, d, rest, hline.2, hd, rfl, h⟩

/-- The text of an attribute is taken for that of a schema with a description exactly if it shows a
description argument somewhere. -/
theorem isSchemaDescription_iff {body : List Char} :
    isSchemaDescription body = true ↔ ∃ n, ShowsAt n body := by
  have hargs (arguments : List Char) :
      (startsDescription arguments || describesLater arguments) = true ↔
        ∃ front rest, arguments = front ++ rest ∧ Near front ∧ startsDescription rest = true := by
    rw [Bool.or_eq_true, describesLater_iff]
    constructor
    · rintro (h | ⟨line, c, rest, hline, hc, rfl, h⟩)
      · exact ⟨[], arguments, rfl, .inl rfl, h⟩
      · exact ⟨line ++ [c], rest, by simp, .inr ⟨line, c, rfl, hline, hc⟩, h⟩
    · rintro ⟨front, rest, rfl, rfl | ⟨line, c, rfl, hline, hc⟩, h⟩
      · exact .inl h
      · exact .inr ⟨line, c, rest, hline, hc, by simp, h⟩
  rw [isSchemaDescription]
  constructor
  · intro h
    split at h
    · cases h
    · rename_i rest hrest
      split at h
      · rename_i arguments hdrop
        obtain ⟨gap, hgap, rfl⟩ := (dropWhile_eq_cons_iff isWhite_parenthesis).1 hdrop
        obtain ⟨front, rest, rfl, hfront, h⟩ := (hargs arguments).1 h
        obtain ⟨gap', back, hgap', rfl⟩ := startsDescription_iff.1 h
        exact ⟨_, gap, front, gap', back, afterStart?_eq_some_iff.1 hrest, rfl,
          List.forall_mem_append.2 ⟨hgap, hgap'⟩, hfront⟩
      · cases h
  · rintro ⟨n, gap, front, gap', back, rfl, -, hgaps, hfront⟩
    obtain ⟨hgap, hgap'⟩ := List.forall_mem_append.1 hgaps
    let rest := description ++ (gap' ++ '=' :: back)
    have hdrop := (dropWhile_eq_cons_iff isWhite_parenthesis).2
      ⟨gap, hgap, Eq.refl (gap ++ '(' :: (front ++ rest))⟩
    rw [afterStart?_append]
    simp only [rest] at hdrop
    simp only [hdrop]
    exact (hargs _).2 ⟨front, rest, rfl, hfront, startsDescription_iff.2 ⟨gap', back, hgap', rfl⟩⟩

/-! ## What the tokens are -/

/-- The text of some tokens. -/
def charsOf (leaves : List Leaf) : List Char := leaves.flatMap (·.text.toList)

theorem charsOf_append (as bs : List Leaf) : charsOf (as ++ bs) = charsOf as ++ charsOf bs :=
  List.flatMap_append

theorem charsOf_cons (a : Leaf) (as : List Leaf) :
    charsOf (a :: as) = a.text.toList ++ charsOf as :=
  List.flatMap_cons

/-- Tokens that tile a text make it up, and stand where those in front of them end. -/
theorem tiles_charsOf {n : Nat} {ls : List (Option Leaf)} {cs : List Char} (h : Tiles n ls cs) :
    cs = charsOf ls.reduceOption ∧ ∀ front a back, ls.reduceOption = front ++ a :: back →
      a.start = n + (charsOf front).length := by
  induction h with
  | nil n => exact ⟨rfl, fun front a back h => by simp at h⟩
  | hollow _ ih => exact ih
  | @leaf n ls cs kind text _ ih =>
    obtain ⟨rfl, ih⟩ := ih
    rw [List.reduceOption_cons_of_some]
    refine ⟨(charsOf_cons ⟨n, kind, text⟩ _).symm, fun front a back h => ?_⟩
    cases front with
    | nil =>
      obtain ⟨rfl, -⟩ := List.cons.inj h
      rfl
    | cons b front =>
      obtain ⟨rfl, hls⟩ := List.cons.inj h
      rw [ih front a back hls, charsOf_cons, List.length_append, String.length_toList, Nat.add_assoc]

/-- White space in front of a mark is told from blanks and comments in front of it by that mark. -/
theorem eq_of_gap {c : Char} (hblank : Lexer.isBlank c = false) (hslash : c ≠ '/')
    (hwhite : isWhite c = false) {gap : List Leaf} (htrivia : ∀ a ∈ gap, a.kind.isTrivia = true)
    (hfits : ∀ a ∈ gap, a.kind.Fits a.text) {white X Y : List Char}
    (hw : ∀ d ∈ white, isWhite d = true) (h : white ++ c :: X = charsOf gap ++ c :: Y) :
    white = charsOf gap ∧ X = Y := by
  induction gap generalizing white with
  | nil =>
    cases white with
    | nil => exact ⟨rfl, (List.cons.inj h).2⟩
    | cons d white =>
      have hd := hw d (List.mem_cons_self ..)
      rw [(List.cons.inj h).1, hwhite] at hd
      cases hd
  | cons a gap ih =>
    obtain ⟨hkind, htrivia⟩ := List.forall_mem_cons.1 htrivia
    obtain ⟨hfit, hfits⟩ := List.forall_mem_cons.1 hfits
    rw [charsOf_cons, List.append_assoc] at h
    unfold TokenKind.isTrivia at hkind
    split at hkind
    · -- white space holds no mark, so what stands in front of the mark starts with it
      rename_i hk
      have hnot : c ∉ a.text.toList := fun hc => by
        rw [hfit.blank hk c hc] at hblank
        cases hblank
      rcases List.append_eq_append_iff.1 h with ⟨us, hus, hrest⟩ | ⟨us, rfl, hrest⟩
      · cases us with
        | nil =>
          obtain ⟨hgap, hXY⟩ := ih htrivia hfits (List.forall_mem_nil (isWhite · = true)) hrest
          rw [charsOf_cons, hus, ← hgap]
          exact ⟨by simp, hXY⟩
        | cons u us =>
          obtain ⟨rfl, -⟩ := List.cons.inj hrest
          exact absurd (hus ▸ List.mem_append_right _ (List.mem_cons_self ..)) hnot
      · obtain ⟨rfl, hXY⟩ := ih htrivia hfits
          (fun d hd => hw d (List.mem_append_right _ hd)) hrest.symm
        exact ⟨(charsOf_cons ..).symm, hXY⟩
    · -- a comment starts with neither
      rename_i hk
      obtain ⟨cs, hcs⟩ := List.head?_eq_some_iff.1 (hfit.slash hk)
      rw [hcs, List.cons_append] at h
      cases white with
      | nil => exact absurd (List.cons.inj h).1 hslash
      | cons d white =>
        have hd := hw d (List.mem_cons_self ..)
        rw [(List.cons.inj h).1] at hd
        exact absurd hd (by decide)
    · cases hkind

/-- An argument `description = ...` in the parentheses of an attribute `schema(...)`, with blanks and
comments wherever they may stand and anything in front of it. -/
structure DescriptionArgument (body : Located) where
  name : Leaf
  gap : List Leaf
  opening : Leaf
  front : List Leaf
  key : Leaf
  gap' : List Leaf
  sign : Leaf
  back : List Leaf
  leaves : (body.tree.leavesFrom body.start).reduceOption =
    name :: (gap ++ opening :: (front ++ key :: (gap' ++ sign :: back)))
  name_text : name.text = "schema"
  opening_text : opening.text = "("
  key_text : key.text = "description"
  sign_text : sign.text = "="
  trivia : ∀ a ∈ gap ++ gap', a.kind.isTrivia = true

namespace DescriptionArgument

variable {body : Located} (arg : DescriptionArgument body)

/-- Where the argument starts in the text of the attribute. -/
def offset : Nat := arg.key.start - body.start

/-- No comment stands in its way, and no line break but one directly in front of it. -/
def InReach : Prop :=
  (∀ c ∈ charsOf arg.gap ++ charsOf arg.gap', isWhite c = true) ∧ Near (charsOf arg.front)

theorem chars_eq : body.chars = "schema".toList ++ (charsOf arg.gap ++ '(' ::
    (charsOf arg.front ++ (description ++ (charsOf arg.gap' ++ '=' :: charsOf arg.back)))) := by
  rw [Located.chars, (tiles_charsOf (Tree.tiles_leavesFrom body.start body.tree)).1, arg.leaves]
  simp only [charsOf_append, charsOf_cons, arg.name_text, arg.opening_text, arg.key_text,
    arg.sign_text]
  rfl

theorem offset_eq : arg.offset =
    "schema".length + (charsOf arg.gap).length + 1 + (charsOf arg.front).length := by
  have h := (tiles_charsOf (Tree.tiles_leavesFrom body.start body.tree)).2
    (arg.name :: (arg.gap ++ arg.opening :: arg.front)) arg.key (arg.gap' ++ arg.sign :: arg.back)
    (by rw [arg.leaves]; simp)
  rw [offset, h, Nat.add_sub_cancel_left]
  simp only [charsOf_append, charsOf_cons, arg.name_text, arg.opening_text, List.length_append,
    String.length_toList]
  simp only [Nat.add_assoc]
  rfl

/-- The text of an attribute shows an argument where it stands exactly if that is in reach. -/
theorem showsAt_iff (hs : body.tree.Sound) :
    ShowsAt arg.offset body.chars ↔ arg.InReach := by
  have hfits (a : Leaf) (ha : a ∈ (body.tree.leavesFrom body.start).reduceOption) :
      a.kind.Fits a.text := Tree.fits_of_mem_leavesFrom hs (List.reduceOption_mem_iff.1 ha)
  rw [arg.leaves] at hfits
  obtain ⟨htrivia, htrivia'⟩ := List.forall_mem_append.1 arg.trivia
  constructor
  · rintro ⟨gap, front, gap', back, hchars, hoffset, hgaps, hfront⟩
    obtain ⟨hw, hw'⟩ := List.forall_mem_append.1 hgaps
    rw [arg.chars_eq] at hchars
    obtain ⟨rfl, hbehind⟩ := eq_of_gap (by decide) (by decide) isWhite_parenthesis htrivia
      (fun a ha => hfits a (by simp [ha])) hw (List.append_cancel_left hchars).symm
    rw [arg.offset_eq] at hoffset
    obtain ⟨rfl, hkey⟩ := List.append_inj hbehind (by omega)
    obtain ⟨rfl, -⟩ := eq_of_gap (by decide) (by decide) isWhite_sign htrivia'
      (fun a ha => hfits a (by simp [ha])) hw' (List.append_cancel_left hkey)
    exact ⟨hgaps, hfront⟩
  · rintro ⟨hw, hfront⟩
    exact ⟨_, _, _, _, arg.chars_eq, arg.offset_eq.symm, hw, hfront⟩

end DescriptionArgument

/-! ## Which fields are left out -/

variable {o : MarkOptions} {f : File} {s field attr body : Located} {owner name : String}

/-- A field is left out if it is described, holds the new attribute already, or starts with a node
that holds no token. -/
theorem markField?_eq_none_iff (hname : field.name? = some name) :
    markField? o f owner field = none ↔
      (∃ attr ∈ field.childrenOf .attr, ∃ n, ShowsAt n attr.attributeBody) ∨
        occurs (fieldAttr o (constantOf owner name)) field.chars = true ∨
          f.insertAttr? field [] = none := by
  have hany : field.attributeBodies.any isSchemaDescription = true ↔
      ∃ attr ∈ field.childrenOf .attr, ∃ n, ShowsAt n attr.attributeBody := by
    rw [Located.attributeBodies, List.any_map, List.any_eq_true]
    simp only [Function.comp_apply, isSchemaDescription_iff]
  have hinsert (new : List Char) :
      f.insertAttr? field new = none ↔ f.insertAttr? field [] = none := by
    simp only [File.insertAttr?, Option.bind_eq_bind, Option.bind_eq_none_iff, pure, reduceCtorEq]
  rw [markField?, hname, ← hany, ← or_assoc, ← Bool.or_eq_true]
  simp only [Option.bind_eq_bind, Option.bind_some]
  split
  · rename_i h
    exact iff_of_true rfl (.inl h)
  · rename_i h
    simp only [Option.bind_eq_none_iff, pure, reduceCtorEq]
    rw [or_iff_right h, ← hinsert (fieldAttr o (constantOf owner name))]
    exact Option.eq_none_iff_forall_ne_some.symm

/-- The places of new attributes hold a field exactly if it gets one. -/
theorem mem_places_field_iff (hs : s ∈ f.nodesOf .structItem) (howner : s.name? = some owner)
    (hfield : field ∈ s.recordFields) :
    (∃ p ∈ places o f, p.holder = s ∧ p.item = field) ↔ markField? o f owner field ≠ none := by
  rw [Ne, ← Option.not_isSome_iff_eq_none, not_not, Option.isSome_iff_exists]
  constructor
  · rintro ⟨p, hp, rfl, rfl⟩
    rw [places] at hp
    rcases List.mem_append.1 hp with hp | hp
    · obtain ⟨-, owner', howner', -, hm⟩ := mem_fieldPlaces.1 hp
      rw [howner, Option.some.injEq] at howner'
      exact ⟨p.mark, howner' ▸ hm⟩
    · split at hp
      · have himpl := (List.mem_filter.1 (mem_parameterPlaces.1 hp).1.1).2
        have hstruct := (List.mem_filter.1 hs).2
        rw [Located.is, decide_eq_true_eq] at himpl hstruct
        rw [himpl] at hstruct
        cases hstruct
      · cases hp
  · rintro ⟨m, hm⟩
    have hp : (⟨s, field, m⟩ : Place) ∈ fieldPlaces o f :=
      mem_fieldPlaces.2 ⟨hs, owner, howner, hfield, hm⟩
    exact ⟨⟨s, field, m⟩, List.mem_append_left _ hp, rfl, rfl⟩

theorem sound_of_attribute (hsound : f.tree.Sound) (hs : s ∈ f.nodesOf .structItem)
    (hfield : field ∈ s.recordFields) (hattr : attr ∈ field.childrenOf .attr)
    (hbody : attr.child? .attrBody = some body) : body.tree.Sound := by
  have hfield := mem_nodes_of_recordFields (List.mem_filter.1 hs).1 hfield
  have hattr := Tree.mem_nodesFrom_of_mem_childNodes hfield
    (Located.mem_childNodes_of_childrenOf hattr)
  exact hsound.of_mem_nodesFrom (Tree.mem_nodesFrom_of_mem_childNodes hattr
    (Located.mem_childNodes_of_child? hbody))

/-- A field with a schema attribute that holds a description argument gets no attribute, and its
constant is returned for other places only, exactly if the argument is in reach, or if it is left out
for another reason: its attributes show a description argument elsewhere, it holds the new attribute
already, or it starts with a node that holds no token. -/
theorem annotate_skips_iff (o : MarkOptions) (source : String)
    (hs : s ∈ (File.read source).nodesOf .structItem) (howner : s.name? = some owner)
    (hfield : field ∈ s.recordFields) (hname : field.name? = some name)
    (hattr : attr ∈ field.childrenOf .attr) (hbody : attr.child? .attrBody = some body)
    (arg : DescriptionArgument body) :
    ∃ ps : List Place,
      Rewrites (Place.Describes o) 0 source.toList ps (annotate o source).revision.after.toList ∧
      (∀ c, c ∈ (annotate o source).constants ↔ ∃ p ∈ ps, p.constant = c) ∧
      ((∀ p ∈ ps, ¬ (p.holder = s ∧ p.item = field)) ↔
        arg.InReach ∨
        (∃ other ∈ field.childrenOf .attr, ∃ n, ShowsAt n other.attributeBody ∧
          (other ≠ attr ∨ n ≠ arg.offset)) ∨
        occurs (fieldAttr o (constantOf owner name)) field.chars = true ∨
        (File.read source).insertAttr? field [] = none) := by
  obtain ⟨ps, hperm, -, hr, hconstants⟩ := annotate_at_places o source
  refine ⟨ps, hr, fun c => ?_, ?_⟩
  · rw [hconstants, List.mem_eraseDups, List.mem_map]
    simp only [hperm.mem_iff]
  have hsound := sound_of_attribute (File.sound_read source) hs hfield hattr hbody
  have hreach : ShowsAt arg.offset attr.attributeBody ↔ arg.InReach := by
    rw [Located.attributeBody, hbody, Option.getD_some]
    exact arg.showsAt_iff hsound
  have hshown : (∃ other ∈ field.childrenOf .attr, ∃ n, ShowsAt n other.attributeBody) ↔
      arg.InReach ∨ ∃ other ∈ field.childrenOf .attr, ∃ n, ShowsAt n other.attributeBody ∧
        (other ≠ attr ∨ n ≠ arg.offset) := by
    rw [← hreach]
    constructor
    · rintro ⟨other, hother, n, h⟩
      by_cases hne : other ≠ attr ∨ n ≠ arg.offset
      · exact .inr ⟨other, hother, n, h, hne⟩
      · obtain ⟨rfl, rfl⟩ : other = attr ∧ n = arg.offset := by simpa using hne
        exact .inl h
    · rintro (h | ⟨other, hother, n, h, -⟩)
      · exact ⟨attr, hattr, _, h⟩
      · exact ⟨other, hother, n, h⟩
  have hleft : (∀ p ∈ ps, ¬ (p.holder = s ∧ p.item = field)) ↔
      markField? o (File.read source) owner field = none := by
    rw [← not_iff_not, ← Ne.eq_def, ← mem_places_field_iff hs howner hfield]
    simp only [not_forall, not_not, exists_prop, hperm.mem_iff]
  rw [hleft, markField?_eq_none_iff hname, hshown, or_assoc]

/-- The first attribute of the first field of the first structure, with its body. -/
def firstAttribute? (f : File) : Option (Located × Located × Located × Located) := do
  let s ← (f.nodesOf .structItem).head?
  let field ← s.recordFields.head?
  let attr ← (field.childrenOf .attr).head?
  let body ← attr.child? .attrBody
  return (s, field, attr, body)

theorem mem_of_firstAttribute? (h : firstAttribute? f = some (s, field, attr, body)) :
    s ∈ f.nodesOf .structItem ∧ field ∈ s.recordFields ∧ attr ∈ field.childrenOf .attr ∧
      attr.child? .attrBody = some body := by
  simp only [firstAttribute?, Option.bind_eq_bind, Option.bind_eq_some_iff] at h
  obtain ⟨s', hs, field', hfield, attr', hattr, body', hbody, h⟩ := h
  cases h
  exact ⟨List.mem_of_mem_head? hs, List.mem_of_mem_head? hfield, List.mem_of_mem_head? hattr, hbody⟩

/-- What is told of the attribute that is found first: the names of its structure and its field, and
its tokens. -/
theorem exists_firstAttribute (f : File) (owner name : String) (leaves : List Leaf)
    (h : (firstAttribute? f).map (fun (s, field, _, body) =>
      (s.name?, field.name?, (body.tree.leavesFrom body.start).reduceOption)) =
        some (some owner, some name, leaves)) :
    ∃ s field attr body, s ∈ f.nodesOf .structItem ∧ s.name? = some owner ∧
      field ∈ s.recordFields ∧ field.name? = some name ∧ attr ∈ field.childrenOf .attr ∧
      attr.child? .attrBody = some body ∧
      (body.tree.leavesFrom body.start).reduceOption = leaves := by
  obtain ⟨⟨s, field, attr, body⟩, hfound, h⟩ := Option.map_eq_some_iff.1 h
  obtain ⟨hs, hfield, hattr, hbody⟩ := mem_of_firstAttribute? hfound
  simp only [Prod.mk.injEq] at h
  exact ⟨s, field, attr, body, hs, h.1, hfield, h.2.1, hattr, hbody, h.2.2⟩

/-- An argument behind another one on its line. -/
def besideTitle : String :=
  "struct S \x7b #[schema(title = \"t\", description = \"x\")] a: u8 \x7d"

theorem annotate_skips_beside :
    ∃ s field attr body, s ∈ (File.read besideTitle).nodesOf .structItem ∧ s.name? = some "S" ∧
      field ∈ s.recordFields ∧ field.name? = some "a" ∧ attr ∈ field.childrenOf .attr ∧
      attr.child? .attrBody = some body ∧ ∃ arg : DescriptionArgument body, arg.InReach ∧
      ∃ ps : List Place, Rewrites (Place.Describes .standard) 0 besideTitle.toList ps
          (annotate .standard besideTitle).revision.after.toList ∧
        ∀ p ∈ ps, ¬ (p.holder = s ∧ p.item = field) := by
  let front : List Leaf := [⟨20, .ident, "title"⟩, ⟨25, .whitespace, " "⟩, ⟨26, .eq, "="⟩,
    ⟨27, .whitespace, " "⟩, ⟨28, .string, "\"t\""⟩, ⟨31, .comma, ","⟩, ⟨32, .whitespace, " "⟩]
  let back : List Leaf := [⟨46, .whitespace, " "⟩, ⟨47, .string, "\"x\""⟩, ⟨50, .rParen, ")"⟩]
  obtain ⟨s, field, attr, body, hs, howner, hfield, hname, hattr, hbody, hleaves⟩ :=
    exists_firstAttribute (File.read besideTitle) "S" "a"
      (⟨13, .ident, "schema"⟩ :: ([] ++ ⟨19, .lParen, "("⟩ :: (front ++
        ⟨33, .ident, "description"⟩ :: ([⟨44, .whitespace, " "⟩] ++ ⟨45, .eq, "="⟩ :: back))))
      (by decide +kernel)
  let arg : DescriptionArgument body := ⟨_, [], _, front, _, [⟨44, .whitespace, " "⟩], _, back,
    hleaves, rfl, rfl, rfl, rfl, by decide⟩
  have hgaps : ∀ c ∈ charsOf [] ++ charsOf [⟨44, .whitespace, " "⟩], isWhite c = true :=
    List.all_eq_true.1 (by decide)
  have hfront : charsOf front = "title = \"t\",".toList ++ [' '] := by decide
  have hreach : arg.InReach := ⟨hgaps, .inr ⟨_, ' ', hfront, by decide, by decide⟩⟩
  obtain ⟨ps, hr, -, hskips⟩ := annotate_skips_iff .standard besideTitle hs howner hfield hname hattr
    hbody arg
  exact ⟨s, field, attr, body, hs, howner, hfield, hname, hattr, hbody, arg, hreach, ps, hr,
    hskips.2 (.inl hreach)⟩

/-- An argument on the line behind that of its parenthesis, with an indentation. -/
def nextLine : String :=
  "struct S \x7b\n    #[schema(\n        description = \"x\"\n    )]\n    a: u8,\n\x7d\n"

/-- The indentation keeps the only argument from being found, and the only field of the document gets
another description. -/
theorem annotate_next_line :
    (∃ s field attr body, s ∈ (File.read nextLine).nodesOf .structItem ∧ s.name? = some "S" ∧
      field ∈ s.recordFields ∧ field.name? = some "a" ∧ attr ∈ field.childrenOf .attr ∧
      attr.child? .attrBody = some body ∧ ∃ arg : DescriptionArgument body,
        charsOf arg.front = "\n        ".toList ∧ ¬ arg.InReach) ∧
      (annotate .standard nextLine).constants = ["SA"] := by
  let back : List Leaf := [⟨46, .whitespace, " "⟩, ⟨47, .string, "\"x\""⟩,
    ⟨50, .whitespace, "\n    "⟩, ⟨55, .rParen, ")"⟩]
  obtain ⟨s, field, attr, body, hs, howner, hfield, hname, hattr, hbody, hleaves⟩ :=
    exists_firstAttribute (File.read nextLine) "S" "a"
      (⟨17, .ident, "schema"⟩ :: ([] ++ ⟨23, .lParen, "("⟩ ::
        ([⟨24, .whitespace, "\n        "⟩] ++ ⟨33, .ident, "description"⟩ ::
          ([⟨44, .whitespace, " "⟩] ++ ⟨45, .eq, "="⟩ :: back))))
      (by decide +kernel)
  let arg : DescriptionArgument body := ⟨_, [], _, [⟨24, .whitespace, "\n        "⟩], _,
    [⟨44, .whitespace, " "⟩], _, back, hleaves, rfl, rfl, rfl, rfl, by decide⟩
  refine ⟨⟨s, field, attr, body, hs, howner, hfield, hname, hattr, hbody, arg, rfl, ?_⟩,
    by decide +kernel⟩
  have hfront : charsOf arg.front = '\n' :: ("       ".toList ++ [' ']) := rfl
  rintro ⟨-, hnear | ⟨line, c, hline, hbreak, -⟩⟩
  · rw [hfront] at hnear
    cases hnear
  · -- the break stands in front of the last blank
    rw [hfront, ← List.cons_append] at hline
    obtain ⟨rfl, -⟩ := List.append_inj' hline rfl
    exact hbreak (List.mem_cons_self ..)

end Description

end Docsmith
