import Docsmith.Proofs.Workspace.Lawful
import Docsmith.Proofs.Workspace.Path
import Mathlib.Data.List.Basic

/-!
# What tells documents apart when they are looked for

A document is looked for by its name and its folders, which its key tells. Looking for a type picks
some of the documents there are, and which ones these are does not depend on their order.

* `moduleParts_congr`: documents of one key declare one module;
* `matching_eq_ite`: the documents found for a type are those of one of two classes;
* `matching_stable`: documents that are not found do not change what is found.
-/

namespace Docsmith.Document

open Docsmith.Naming Docsmith.Text

variable {d e : Document} {documents found : List Document} {typeName : String}

theorem folders_eq (d : Document) : d.folders = d.key.dropLast :=
  Path.components_parent? d.path

theorem name_congr (h : d.key = e.key) : d.name = e.name := by
  rw [name_eq, name_eq, h]

theorem stem_congr (h : d.key = e.key) : d.stem = e.stem := by
  unfold stem
  rw [name_congr h]

theorem moduleParts_congr (h : d.key = e.key) : d.moduleParts = e.moduleParts := by
  rw [moduleParts, moduleParts, stem_congr h, folders_eq, folders_eq, h]

/-! ## What is found for a type -/

/-- A document of the type's namespace that is named after it. -/
def bearsName (typeName : String) (d : Document) : Bool :=
  match (nameParts typeName).getLast? with
  | none => false
  | some type => d.isNamedAfter type && d.isWithin (nameParts typeName).dropLast

/-- The module that the type's namespace ends in. -/
def bearsModule (typeName : String) (d : Document) : Bool :=
  let space := (nameParts typeName).dropLast
  d.isModuleOf space && d.isWithin space

/-- The documents found are those named after the type. Only if there are none, they are those of
the module it is in. -/
theorem matching_eq_ite (documents : List Document) (typeName : String) :
    matching documents typeName =
      documents.filter (if documents.any (bearsName typeName) then bearsName typeName
        else bearsModule typeName) := by
  have hany (p : Document → Bool) : documents.any p = true ↔ documents.filter p ≠ [] := by
    rw [List.any_eq_true, ne_eq, List.filter_eq_nil_iff]
    push Not
    rfl
  rw [matching]
  dsimp only
  cases ht : (nameParts typeName).getLast? with
  | none =>
    -- a name without segments has no namespace either
    have hnil := List.getLast?_eq_none_iff.1 ht
    symm
    rw [List.filter_eq_nil_iff]
    intro d _
    simp [bearsName, bearsModule, isModuleOf, hnil]
  | some type =>
    have hname : bearsName typeName = fun d =>
        d.isNamedAfter type && d.isWithin (nameParts typeName).dropLast := by
      funext d
      rw [bearsName, ht]
    dsimp only
    rw [List.filter_filter, List.filter_filter, ← hname]
    by_cases h : documents.any (bearsName typeName) = true
    · rw [if_pos h]
      split
      · rename_i hnil
        exact absurd hnil ((hany _).1 h)
      · rfl
    · rw [if_neg h]
      split
      · rfl
      · rename_i hne
        exact absurd (not_not.1 (mt (hany _).2 h)) hne

theorem bearsName_congr (h : d.key = e.key) : bearsName typeName d = bearsName typeName e := by
  simp only [bearsName, isNamedAfter, isWithin, stem_congr h, moduleParts_congr h]

theorem bearsModule_congr (h : d.key = e.key) :
    bearsModule typeName d = bearsModule typeName e := by
  simp only [bearsModule, isModuleOf, isWithin, moduleParts_congr h]

/-- The documents found for a type are those of a class, in any list that has the same documents.
The class does not tell documents of one key apart. -/
theorem matching_eq_filter {documents documents' : List Document}
    (h : documents.Perm documents') (typeName : String) :
    ∃ f : Document → Bool, matching documents typeName = documents.filter f ∧
      matching documents' typeName = documents'.filter f ∧ ∀ d e, d.key = e.key → f d = f e := by
  -- both lists have documents named after the type, or none has
  have hany : documents'.any (bearsName typeName) = documents.any (bearsName typeName) := by
    rw [Bool.eq_iff_iff, List.any_eq_true, List.any_eq_true]
    simp only [h.mem_iff]
  refine ⟨_, matching_eq_ite documents typeName, ?_, fun d e h => ?_⟩
  · rw [matching_eq_ite, hany]
  · split
    · exact bearsName_congr h
    · exact bearsModule_congr h

/-- Documents of one key are found together. -/
theorem mem_matching_congr {documents : List Document} {typeName : String} (h : d.key = e.key)
    (hd : d ∈ matching documents typeName) (he : e ∈ documents) :
    e ∈ matching documents typeName := by
  obtain ⟨f, hf, -, hcongr⟩ := matching_eq_filter (.refl documents) typeName
  rw [hf, List.mem_filter] at hd ⊢
  exact ⟨he, hcongr d e h ▸ hd.2⟩

/-- Documents that are not found can be left out of the search. -/
theorem matching_of_sublist (h : found.Sublist documents)
    (hf : (matching documents typeName).Sublist found) :
    matching found typeName = matching documents typeName := by
  have hany : found.any (bearsName typeName) = documents.any (bearsName typeName) := by
    rw [Bool.eq_iff_iff, List.any_eq_true, List.any_eq_true]
    constructor
    · rintro ⟨d, hd, hb⟩
      exact ⟨d, h.subset hd, hb⟩
    · rintro ⟨d, hd, hb⟩
      -- if one is named after the type, all that are found are
      refine ⟨d, hf.subset ?_, hb⟩
      rw [matching_eq_ite, if_pos (List.any_eq_true.2 ⟨d, hd, hb⟩)]
      exact List.mem_filter.2 ⟨hd, hb⟩
  rw [matching_eq_ite] at hf
  rw [matching_eq_ite, matching_eq_ite, hany]
  refine (h.filter _).antisymm ?_
  have hagain := hf.filter (if documents.any (bearsName typeName) then bearsName typeName
    else bearsModule typeName)
  rw [List.filter_filter] at hagain
  simpa using hagain

theorem bearsName_iff {space : List String} {type : String}
    (hp : nameParts typeName = space ++ [type]) : bearsName typeName d = true ↔
      (∀ s ∈ space, s ∈ d.moduleParts) ∧ (d.stem = type ∨ d.stem = snakeCase type) := by
  rw [bearsName, hp, List.getLast?_concat, List.dropLast_concat]
  simp [isNamedAfter, isWithin, and_comm]

/-- What is found for a type does not hang on documents that are not found: these can be left out
one by one, or all at once. What is found stands in the order of the documents. And as soon as a
document of the type's namespace is named after the type, it is found, and so are only such. -/
theorem matching_stable (documents : List Document) (typeName : String) :
    (matching documents typeName).Sublist documents ∧
    (∀ front d back, documents = front ++ d :: back → d ∉ matching documents typeName →
      matching (front ++ back) typeName = matching documents typeName) ∧
    matching (matching documents typeName) typeName = matching documents typeName ∧
    ∀ space type, nameParts typeName = space ++ [type] → ∀ d ∈ documents,
      (∀ s ∈ space, s ∈ d.moduleParts) → (d.stem = type ∨ d.stem = snakeCase type) →
        d ∈ matching documents typeName ∧
          ∀ e ∈ matching documents typeName, e.stem = type ∨ e.stem = snakeCase type := by
  have hsub : (matching documents typeName).Sublist documents := by
    rw [matching_eq_ite]
    exact List.filter_sublist
  refine ⟨hsub, ?_, matching_of_sublist hsub (.refl _), ?_⟩
  · rintro front d back rfl hd
    have hrest : (front ++ back).Sublist (front ++ d :: back) :=
      (List.sublist_cons_self d back).append_left front
    refine matching_of_sublist hrest ?_
    rw [matching_eq_ite, List.mem_filter, not_and] at hd
    rw [matching_eq_ite, List.filter_append, List.filter_cons_of_neg (hd (by simp)),
      ← List.filter_append]
    exact List.filter_sublist
  · intro space type hp d hd hw hn
    have hb := (bearsName_iff hp).2 ⟨hw, hn⟩
    rw [matching_eq_ite, if_pos (List.any_eq_true.2 ⟨d, hd, hb⟩)]
    refine ⟨List.mem_filter.2 ⟨hd, hb⟩, fun e he => ?_⟩
    exact ((bearsName_iff hp).1 (List.mem_filter.1 he).2).2

theorem matching_stable_nested :
    let documents : List Document :=
      [⟨"src/v05/models/mod.rs"⟩, ⟨"src/v05/models/order.rs"⟩, ⟨"src/v05/models/user.rs"⟩]
    matching (documents.eraseIdx 1) "v05::models::User" = matching documents "v05::models::User" ∧
    ⟨"src/v05/models/user.rs"⟩ ∈ matching documents "v05::models::User" ∧
    ∀ e ∈ matching documents "v05::models::User", e.stem = "User" ∨ e.stem = snakeCase "User" := by
  intro documents
  obtain ⟨-, hdrop, -, hnamed⟩ := matching_stable documents "v05::models::User"
  refine ⟨hdrop [⟨"src/v05/models/mod.rs"⟩] ⟨"src/v05/models/order.rs"⟩ [⟨"src/v05/models/user.rs"⟩]
    rfl (by decide +kernel), ?_⟩
  exact hnamed ["v05", "models"] "User" (by decide +kernel) ⟨"src/v05/models/user.rs"⟩
    (by decide +kernel) (by decide +kernel) (by decide +kernel)

end Docsmith.Document
