import Docsmith.Proofs.Example.Literal
import Docsmith.Proofs.Source.Site
import Docsmith.Proofs.Text.Search

/-!
# Which literals are completed

A literal belongs to a model if the last segment of its path is the model's short name. What is looked
at is the text of the path in front of its first angle bracket: it must be that name, or end with it
behind colons or a point.

* `shortName_eq_iff`: the names with a given last segment;
* `populate_completes`: one edit for each literal whose path's text is such a text and that lacks a
  field;
* `populate_passes_turbofish`: a literal of a model whose path's text is no such text.
-/

namespace Docsmith.Example

open Docsmith.Source Docsmith.Naming Docsmith.Text

/-- A text is a word, or ends with it behind colons or a point. -/
def EndsInWord (cs word : List Char) : Prop :=
  cs = word ∨ colons ++ word <:+ cs ∨ '.' :: word <:+ cs

instance (cs word : List Char) : Decidable (EndsInWord cs word) :=
  inferInstanceAs (Decidable (_ ∨ _ ∨ _))

theorem shortName_eq_iff {name word : String} (hcolon : ':' ∉ word.toList)
    (hpoint : '.' ∉ word.toList) : shortName name = word ↔ EndsInWord name.toList word.toList := by
  rw [← String.toList_inj, shortName, String.toList_ofList]
  generalize name.toList = cs, word.toList = w at hcolon hpoint
  have hcolons : ∀ c ∈ colons, c ∉ w := by simpa [colons] using hcolon
  have hpoints : ∀ c ∈ ['.'], c ∉ w := by simpa using hpoint
  have hword : afterLast ['.'] w = w := afterLast_of_notMem (by decide) hpoints
  have hsegment := afterLast_suffix colons cs
  refine ⟨fun h => ?_, ?_⟩
  · cases hdot : occurs ['.'] (afterLast colons cs) with
    | true =>
      have hend := afterLast_of_occurs hdot
      rw [h] at hend
      exact .inr (.inr (hend.trans hsegment))
    | false =>
      rw [afterLast_of_not_occurs hdot] at h
      cases hsep : occurs colons cs with
      | true =>
        have hend := afterLast_of_occurs hsep
        rw [h] at hend
        exact .inr (.inl hend)
      | false =>
        rw [afterLast_of_not_occurs hsep] at h
        exact .inl h
  · rintro (h | ⟨front, h⟩ | hend)
    · rw [h, afterLast_of_notMem (by decide) hcolons, hword]
    · rw [← h, afterLast_append (by decide) hcolons, hword]
    · -- the point stands behind the last colons
      have hpart : '.' :: w <:+ afterLast colons cs := by
        cases hsep : occurs colons cs with
        | false => rwa [afterLast_of_not_occurs hsep]
        | true =>
          have hbehind := afterLast_of_occurs hsep
          generalize afterLast colons cs = segment at hbehind
          rcases List.suffix_or_suffix_of_suffix hend hbehind with h | h
          · rw [colons, List.cons_append, List.cons_append, List.nil_append,
              List.suffix_cons_iff, List.suffix_cons_iff] at h
            rcases h with h | h | h
            · cases h
            · cases h
            · exact h
          · have hmem := h.subset (show ':' ∈ colons ++ segment from List.mem_cons_self ..)
            exact absurd ((List.mem_cons.1 hmem).resolve_left (by decide)) hcolon
      obtain ⟨front, hfront⟩ := hpart
      rw [← hfront]
      exact afterLast_append (by decide) hpoints front

/-! ## Literals -/

/-- The name of the last segment of a path. -/
def lastName? (path : Located) : Option String := do
  let segment ← path.child? .pathSegment
  let name ← segment.child? .nameRef
  return name.text

/-- The field lists of the literals with a path of some kind. -/
def listsOf (f : File) (p : Located → Prop) [DecidablePred p] : List Located :=
  (f.nodesOf .recordExpr).filterMap fun literal => do
    let path ← literal.child? .path
    let list ← literal.child? .recordExprFieldList
    if p path then some list else none

/-- The field lists of the literals whose path ends in a name. -/
def namedLists (f : File) (name : String) : List Located :=
  listsOf f (lastName? · = some name)

/-- In front of its first angle bracket the path's text is a word or ends with it. -/
def ShowsName (name : String) (path : Located) : Prop :=
  EndsInWord (trimWhile isWhite (path.chars.takeWhile (· ≠ '<'))) name.toList

instance (name : String) : DecidablePred (ShowsName name) :=
  fun _ => inferInstanceAs (Decidable (EndsInWord _ _))

theorem listsOf_congr {f : File} {p q : Located → Prop} [DecidablePred p] [DecidablePred q]
    (h : ∀ literal ∈ f.nodesOf .recordExpr, ∀ path, literal.child? .path = some path →
      (p path ↔ q path)) : listsOf f p = listsOf f q := by
  refine List.filterMap_congr fun literal hliteral => ?_
  cases hpath : literal.child? .path with
  | none => rfl
  | some path => simp only [Option.bind_eq_bind, Option.bind_some, h literal hliteral path hpath]

/-- The literals of a model are those whose paths show its short name. -/
theorem literalLists_eq (f : File) {model : String} (hmodel : ':' ∉ (shortName model).toList) :
    literalLists f model = listsOf f (ShowsName (shortName model)) := by
  have hpoint : '.' ∉ (shortName model).toList := by
    rw [shortName, String.toList_ofList]
    exact notMem_afterLast _
  refine listsOf_congr fun literal _ path _ => ?_
  rw [shortTypeName, shortName_eq_iff hmodel hpoint, String.toList_ofList]
  rfl

/-! ## Edits -/

/-- The fields a literal needs a value for. -/
def lacking (fields : List Field) (list : Located) : List Field :=
  fields.filter fun x => !(presentFields list).contains x.name

/-- Each field with some value. -/
def Values (fields : List Field) (items : List (List Char)) : Prop :=
  List.Forall₂ (fun field item => ∃ value : String, item = s!"{field.name}: {value}".toList)
    fields items

theorem values_renderFields (model : String) (fields : List Field) (s : Synthesizer) :
    Values fields (renderFields model fields s).1 := by
  induction fields generalizing s with
  | nil => exact .nil
  | cons field rest ih => exact .cons ⟨_, rfl⟩ (ih _)

/-- An edit gives a literal the fields it lacks, in front of what ends its list. -/
def Completes (f : File) (source : List Char) (fields : List Field) (list : Located) (e : Edit) :
    Prop :=
  ∃ a items, fieldAnchor? list = some a ∧ Values (lacking fields list) items ∧
    e = f.appendItems source a.start items ((fieldsOf list).head?.bind f.indentOf?)

theorem forall₂_completions {f : File} {source : List Char} {model : String} {fields : List Field}
    (lists : List Located) (s : Synthesizer) : List.Forall₂ (Completes f source fields)
      (lists.filter fun list => lacking fields list ≠ [] ∧ (fieldAnchor? list).isSome)
      (completions f source model fields lists s).1 := by
  induction lists generalizing s with
  | nil => exact .nil
  | cons list rest ih =>
    have hvalues := values_renderFields model (lacking fields list) s
    have hrest := ih (renderFields model (lacking fields list) s).2
    rw [completions, ← lacking]
    generalize renderFields model (lacking fields list) s = r at hvalues hrest
    obtain ⟨items, s'⟩ := r
    dsimp only at hvalues hrest ⊢
    generalize completions f source model fields rest s' = r at hrest
    obtain ⟨edits, s''⟩ := r
    dsimp only at hrest ⊢
    cases items with
    | nil =>
      rw [List.filter_cons_of_neg (by simp [List.forall₂_nil_right_iff.1 hvalues])]
      exact hrest
    | cons item items =>
      have hlacks : lacking fields list ≠ [] := by
        rintro hnil
        rw [hnil] at hvalues
        cases hvalues
      cases hanchor : fieldAnchor? list with
      | none =>
        rw [List.filter_cons_of_neg (by simp [hanchor])]
        exact hrest
      | some a =>
        rw [List.filter_cons_of_pos (by simp [hanchor, hlacks])]
        exact .cons ⟨a, _, hanchor, hvalues, rfl⟩ hrest

/-- One edit for each literal whose path shows the model's short name and that lacks a field. If a path
shows that name exactly when its last segment has it, these are the literals of the model. -/
theorem populate_completes (source : String) {model : String} (fields : List Field)
    (hmodel : ':' ∉ (shortName model).toList) (s : Synthesizer) :
    (∃ edits, (populate source model fields s).1.after =
        String.ofList (Edit.applyAll source.toList edits) ∧ edits.Pairwise Edit.Apart ∧
      List.Forall₂ (Completes (File.read source) source.toList fields)
        ((listsOf (File.read source) (ShowsName (shortName model))).filter fun list =>
          lacking fields list ≠ [] ∧ (fieldAnchor? list).isSome) edits) ∧
    ((∀ literal ∈ (File.read source).nodesOf .recordExpr, ∀ path,
        literal.child? .path = some path →
          (ShowsName (shortName model) path ↔ lastName? path = some (shortName model))) →
      listsOf (File.read source) (ShowsName (shortName model)) =
        namedLists (File.read source) (shortName model)) := by
  refine ⟨?_, listsOf_congr⟩
  have hs := File.sound_read source
  rw [← literalLists_eq _ hmodel, populate]
  exact ⟨_, rfl, pairwise_apart_completions hs (fun a ha => mem_leavesFrom_of_mem_anchors ha)
    (nodup_anchors hs model) s, forall₂_completions _ s⟩

/-- Two literals of one model and one of another. -/
def threeLiterals : String := "fn f() \x7b (M \x7b a: 1 \x7d, b::M \x7b \x7d, N \x7b \x7d) \x7d"

theorem populate_completes_some :
    let fields : List Field := [⟨"a", ⟨.other, false⟩⟩]
    let s := Synthesizer.ofSeed 1 "Descriptions" fun _ => 0
    let lists := listsOf (File.read threeLiterals) (ShowsName (shortName "x::M"))
    ':' ∉ (shortName "x::M").toList ∧
      lists.map presentFields = [["a", extensionData], [extensionData]] ∧
      (lists.filter fun list => lacking fields list ≠ [] ∧ (fieldAnchor? list).isSome).map
        presentFields = [[extensionData]] ∧
      ∃ edits, (populate threeLiterals "x::M" fields s).1.after =
          String.ofList (Edit.applyAll threeLiterals.toList edits) ∧ edits.Pairwise Edit.Apart ∧
        List.Forall₂ (Completes (File.read threeLiterals) threeLiterals.toList fields)
          (lists.filter fun list => lacking fields list ≠ [] ∧ (fieldAnchor? list).isSome) edits := by
  intro fields s lists
  have hmodel : ':' ∉ (shortName "x::M").toList := by decide +kernel
  exact ⟨hmodel, by decide +kernel, by decide +kernel,
    (populate_completes threeLiterals fields hmodel s).1⟩

/-- A literal with the type's argument written behind two colons, as an expression needs it. -/
def turbofish : String := "fn f() \x7b let x = User::<u8> \x7b \x7d; \x7d"

/-- The literal lacks a field, and is left as it is. -/
theorem populate_passes_turbofish : File.WellFormed turbofish ∧
    (namedLists (File.read turbofish) (shortName "User")).map presentFields = [[extensionData]] ∧
    ∀ s, (populate turbofish "User" [⟨"id", ⟨.other, false⟩⟩] s).1.after = turbofish := by
  refine ⟨by decide +kernel, by decide +kernel, fun s => ?_⟩
  have hnone : literalLists (File.read turbofish) "User" = [] := by decide +kernel
  rw [populate]
  simp [hnone, completions, Edit.applyAll_nil]

end Docsmith.Example
