import Docsmith.Proofs.Description.Declaring

/-!
# Declared once

Constants that have been declared are declared once, beside those that were there, and declaring them
again changes nothing.

* `count_declared`: how often each name is declared;
* `filter_declarations_perm`: the declarations that were there stand as before;
* `declareConstants_again`: a second call finds nothing missing;
* `declareConstants_once`: all of it.
-/

namespace Docsmith.Source.Tree

/-- An inherent impl of the type stands inside. -/
def holdsOwn (typeName : String) (t : Tree) : Bool := t.parts.any (isOwn typeName)

/-- A constant in which no inherent impl of the type stands. -/
def isSettled (typeName : String) (t : Tree) : Bool :=
  t.kind? = some .constItem && !t.holdsOwn typeName

variable {typeName : String} {a t : Tree}

theorem not_isSettled (ha : a.isOwn typeName = true) (hmem : a ∈ t.parts) :
    t.isSettled typeName = false := by
  have hholds : t.holdsOwn typeName = true := List.any_eq_true.2 ⟨a, hmem, ha⟩
  rw [isSettled, hholds]
  exact Bool.and_false _

/-- Constants in which no impl can be swapped are seen whatever impls are swapped. -/
theorem steady_settled (typeName : String) :
    Steady typeName (Option.guard (isSettled typeName)) where
  token _ _ := rfl
  swaps {p n a b t t'} h hi := by
    have hold := not_isSettled hi.own_left (h.mem_parts a (mem_parts_self hi.left))
    have hnew := not_isSettled hi.own_right (h.symm.mem_parts b (mem_parts_self hi.right))
    rw [Option.guard, Option.guard, hold, hnew]
    rfl

end Docsmith.Source.Tree

namespace Docsmith.Description

open Docsmith.Source Token

variable {source typeName region name : String} {constants : Table String String} {r : Revision}

/-- The constants in the inherent impls of a type, as they are declared. -/
def declarations (source typeName : String) : List Tree :=
  ((File.read source).tree.parts.filter (Tree.isOwn typeName)).flatMap fun impl =>
    impl.items.filter fun t => t.kind? = some .constItem

/-- The names of the declarations are the constants that are declared. -/
theorem filterMap_declarations (source typeName : String) :
    (declarations source typeName).filterMap Tree.constant? = declared source typeName := by
  rw [declared_eq, Tree.seen, declarations, List.filterMap_flatMap]
  refine List.flatMap_congr fun impl _ => ?_
  rw [List.filterMap_filter]
  refine List.filterMap_congr fun t _ => ?_
  rw [Tree.constant?]
  by_cases hk : t.kind? = some .constItem <;> simp [hk]

theorem filter_declarations (source typeName : String) :
    (declarations source typeName).filter (!·.holdsOwn typeName) =
      Tree.seen (Option.guard (Tree.isSettled typeName)) typeName (File.read source).tree.parts := by
  rw [declarations, Tree.seen, List.filter_flatMap, List.filterMap_eq_filter]
  refine List.flatMap_congr fun impl _ => ?_
  rw [List.filter_filter]
  exact List.filter_congr fun t _ => Bool.and_comm _ _

/-- Constants that are all declared leave the text as it is. -/
theorem declareConstants_unchanged
    (h : ∀ c ∈ constants.entries, c.1 ∈ declared source typeName) :
    declareConstants source typeName region constants = .ok (.unchanged source) := by
  have hnone : missing source typeName constants = [] := by
    rw [missing, List.filter_eq_nil_iff]
    intro c hc
    simpa using h c hc
  rw [missing, declared] at hnone
  unfold declareConstants
  dsimp only
  rw [hnone]
  rfl

section

variable (hd : Declarable source) (hnames : ∀ c ∈ constants.entries, IsIdentifier c.1)
  (hregion : '\n' ∉ region.toList) (h : declareConstants source typeName region constants = .ok r)
include hd hnames hregion h

/-- What was declared is declared as often as before, and what was missing is declared once. -/
theorem count_declared (name : String) : (declared r.after typeName).count name =
    if name ∈ declared source typeName then (declared source typeName).count name
    else if name ∈ constants.keys then 1 else 0 := by
  have hperm := (hd.declareConstants hnames hregion h).2
  have hnodup : ((missing source typeName constants).map (·.1)).Nodup :=
    constants.nodup.sublist (List.filter_sublist.map _)
  have hmissing : name ∈ (missing source typeName constants).map (·.1) ↔
      name ∈ constants.keys ∧ name ∉ declared source typeName := by
    simp only [missing, Table.keys, List.mem_map, List.mem_filter, Bool.not_eq_true',
      List.contains_eq_mem, decide_eq_false_iff_not]
    constructor
    · rintro ⟨c, ⟨hc, hnot⟩, rfl⟩
      exact ⟨⟨c, hc, rfl⟩, hnot⟩
    · rintro ⟨⟨c, hc, rfl⟩, hnot⟩
      exact ⟨c, ⟨hc, hnot⟩, rfl⟩
  rw [hperm.count_eq, List.count_append, hnodup.count]
  by_cases hold : name ∈ declared source typeName
  · simp [hmissing, hold]
  · simp [hmissing, hold, List.count_eq_zero_of_not_mem]

/-- The declarations that were there stand as before, beside one for each constant that was missing.
Only one in which an inherent impl of the type stands may have got the new ones. -/
theorem filter_declarations_perm : ∃ added : List Tree,
    added.map Tree.constant? = (missing source typeName constants).map (some ·.1) ∧
      ((declarations r.after typeName).filter (!·.holdsOwn typeName)).Perm
        ((declarations source typeName).filter (!·.holdsOwn typeName) ++ added) := by
  obtain ⟨-, added, hadded, hperm⟩ := hd.seen_declareConstants hnames hregion h
  refine ⟨added.filter (Tree.isSettled typeName), ?_, ?_⟩
  · have hsettled (t : Tree) (ht : t ∈ added) :
        t.isSettled typeName = true ↔ t.constant?.isSome = true := by
      -- no impl at all has been added
      have hholds : t.holdsOwn typeName = false := by
        rw [Tree.holdsOwn, List.any_eq_false]
        intro x hx hown
        exact hadded.no_impl x (Tree.mem_partsAll ht hx) (Tree.kind?_of_isOwn hown)
      rw [Tree.isSettled, hholds, Bool.not_false, Bool.and_true, decide_eq_true_eq]
      refine ⟨hadded.named t ht, fun hsome => ?_⟩
      by_contra hk
      rw [Tree.constant?, if_neg hk] at hsome
      cases hsome
    have hnamed := List.map_filterMap_some_eq_filter_map_isSome (f := Tree.constant?) (l := added)
    rw [hadded.constants, List.map_map, List.filter_map] at hnamed
    rw [List.filter_congr fun t ht => Bool.eq_iff_iff.2 (hsettled t ht)]
    exact hnamed.symm
  · rw [filter_declarations, filter_declarations, ← List.filterMap_eq_filter]
    exact hperm (Tree.steady_settled typeName)

/-- Nothing is missing behind the first call. -/
theorem declareConstants_again :
    declareConstants r.after typeName region constants = .ok (.unchanged r.after) :=
  declareConstants_unchanged (hd.mem_declared hnames hregion h).1

end

/-- Constants that are declared in a file are declared once each: what was declared is declared as
often as before, and its declarations stand as they did but for one that holds the impl which got the
constants. Declaring them again changes nothing. -/
theorem declareConstants_once (hd : Declarable source)
    (hnames : ∀ c ∈ constants.entries, IsIdentifier c.1) (hregion : '\n' ∉ region.toList)
    (h : declareConstants source typeName region constants = .ok r) :
    (∀ name, (declared r.after typeName).count name =
      if name ∈ declared source typeName then (declared source typeName).count name
      else if name ∈ constants.keys then 1 else 0) ∧
    (∃ added : List Tree,
      added.map Tree.constant? = (missing source typeName constants).map (some ·.1) ∧
        ((declarations r.after typeName).filter (!·.holdsOwn typeName)).Perm
          ((declarations source typeName).filter (!·.holdsOwn typeName) ++ added)) ∧
    declareConstants r.after typeName region constants = .ok (.unchanged r.after) :=
  ⟨count_declared hd hnames hregion h, filter_declarations_perm hd hnames hregion h,
    declareConstants_again hd hnames hregion h⟩

/-- A file that declares one constant. -/
def oneDeclared : String := "impl D \x7b\n    pub const AB: &str = \"a\";\n\x7d\n"

/-- That constant and another one. -/
def twoConstants : Table String String := ⟨[("AB", "b"), ("CD", "d")], by decide⟩

theorem declareConstants_once_second :
    ∃ r, declareConstants oneDeclared "D" "R" twoConstants = .ok r ∧
      (declared r.after "D").count "AB" = 1 ∧ (declared r.after "D").count "CD" = 1 ∧
      declareConstants r.after "D" "R" twoConstants = .ok (.unchanged r.after) := by
  have hd : Declarable oneDeclared := ⟨by decide +kernel, by decide +kernel, by decide +kernel⟩
  have hnames : ∀ c ∈ twoConstants.entries, IsIdentifier c.1 := by decide +kernel
  have hold : declared oneDeclared "D" = ["AB"] := by decide +kernel
  have hok : (declareConstants oneDeclared "D" "R" twoConstants).isOk = true := by decide +kernel
  cases h : declareConstants oneDeclared "D" "R" twoConstants with
  | error e =>
    rw [h] at hok
    cases hok
  | ok r =>
    obtain ⟨hcount, -, hagain⟩ := declareConstants_once hd hnames (by decide) h
    rw [hold] at hcount
    exact ⟨r, rfl, hcount "AB", hcount "CD", hagain⟩

/-- Names of constants, in a file without a fault. -/
def Asked (source region : String) (constants : Table String String) : Prop :=
  File.WellFormed source ∧ '\n' ∉ region.toList ∧ ∀ c ∈ constants.entries, IsIdentifier c.1

instance (source region : String) (constants : Table String String) :
    Decidable (Asked source region constants) := inferInstanceAs (Decidable (_ ∧ _))

/-- A file whose last comment becomes frontmatter as soon as a line stands in front of it. -/
def looseFence : String := "#!/**/[a] impl D \x7b\x7d /*\n---\n*/"

/-- An impl of the type inside the type of another one, whose name ends at the next angle bracket. -/
def implInType : String :=
  "impl ([u8; \x7b impl D \x7b\x7d 0 \x7d], x::D<u8>) \x7b const A: u8 = 0; \x7d"

/-- An impl of the type inside a constant of another one. -/
def implInConstant : String := "impl D \x7b const A: u8 = \x7b impl D \x7b\x7d 0 \x7d; \x7d"

/-- A constant is not found again where the text is read as frontmatter, one that was declared is lost
where its impl gets another name, and one that holds the impl which gets the constants changes. -/
theorem declareConstants_not_once :
    let constants : Table String String := ⟨[("B", "<")], by decide⟩
    (∃ r, Asked looseFence "R" constants ∧
      declareConstants looseFence "D" "R" constants = .ok r ∧ "B" ∉ declared r.after "D") ∧
    (∃ r, Asked implInType "R" constants ∧
      declareConstants implInType "D" "R" constants = .ok r ∧
        "A" ∈ declared implInType "D" ∧ "A" ∉ declared r.after "D") ∧
    ∃ r, Asked implInConstant "R" constants ∧
      declareConstants implInConstant "D" "R" constants = .ok r ∧
        ∃ text ∈ (declarations implInConstant "D").map Tree.text,
          text ∉ (declarations r.after "D").map Tree.text := by
  intro constants
  refine ⟨⟨⟨looseFence, "#!/**/[a] impl D \x7b\n    // region: R\n" ++
      "    pub const B: &str = \"<\";\n    // endregion: R\n\x7d /*\n---\n*/"⟩, ?_⟩,
    ⟨⟨implInType, "impl ([u8; \x7b impl D \x7b\n    // region: R\n" ++
      "    pub const B: &str = \"<\";\n    // endregion: R\n" ++
      "\x7d 0 \x7d], x::D<u8>) \x7b const A: u8 = 0; \x7d"⟩, ?_⟩,
    ⟨implInConstant, "impl D \x7b const A: u8 = \x7b impl D \x7b\n    // region: R\n" ++
      "    pub const B: &str = \"<\";\n    // endregion: R\n\x7d 0 \x7d; \x7d"⟩, ?_⟩ <;>
    decide +kernel

end Docsmith.Description
