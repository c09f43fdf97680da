import Docsmith.Example.Template
import Docsmith.Proofs.Example.Selection
import Docsmith.Proofs.Naming.Segments
import Docsmith.Proofs.Workspace.Document
import Docsmith.Run.Annotations

/-!
# The name of a type, wherever it is used

Documents are looked for by the segments of a type's name, split off from the left. Regions,
literals and file names go by its short name, found from the right. Both name the same type.

* `matching_of_nameParts`: the documents for a namespace and the type in it;
* `constants_annotateSubject`: the region that constants of a document are recorded in;
* `lastPart_names_type`: the last segment is what all of them go by.
-/

namespace Docsmith.Run

open Docsmith.Description Docsmith.Example Docsmith.Naming Docsmith.Source Docsmith.Text

variable {σ : Type} [DocumentStore σ] {c : Conventions} {r : DescribeRequest} {s : Subject}
  {done done' : Annotating} {p q : Progress σ}

/-- The documents of a namespace named after the type in it, or else those of its module. -/
theorem matching_of_nameParts {name type : String} {space : List String}
    (hname : nameParts name = space ++ [type]) (documents : List Document) :
    Document.matching documents name = documents.filter fun d =>
      d.isWithin space &&
        if documents.any (fun e => e.isWithin space && e.isNamedAfter type) then d.isNamedAfter type
        else d.isModuleOf space := by
  have hnamed : Document.bearsName name = fun d => d.isWithin space && d.isNamedAfter type := by
    funext d
    rw [Document.bearsName, hname, List.getLast?_concat, List.dropLast_concat, Bool.and_comm]
  have hmodule : Document.bearsModule name = fun d => d.isWithin space && d.isModuleOf space := by
    funext d
    rw [Document.bearsModule, hname, List.dropLast_concat, Bool.and_comm]
  rw [Document.matching_eq_ite, hnamed, hmodule]
  split <;> rfl

/-- The constants found in a document go to the region of the type it was first shown for. -/
theorem constants_annotateSubject (h : annotateSubject c r done s p = .ok done' q) :
    done'.constants = done.constants ∨
      ∃ o found, describeDocument c r s.document p = .ok (o, found) q ∧ found ≠ [] ∧
        done'.constants = done.constants.record (shortName (s.shown.headD "")) found := by
  rw [annotateSubject] at h
  cases hd : describeDocument c r s.document p with
  | ok answer q' =>
    obtain ⟨o, found⟩ := answer
    rw [hd] at h
    cases h
    cases found with
    | nil => exact .inl rfl
    | cons constant rest => exact .inr ⟨o, _, rfl, List.cons_ne_nil _ _, rfl⟩
  | error e q' =>
    rw [hd] at h
    dsimp only at h
    split at h
    · cases h
      exact .inl rfl
    · cases h

/-- Without three colons in a row, a name's last segment from the left is its short name, unless
that is empty; and segments are not empty and hold no separator. So the type that documents are
looked for by is the one of its literals, of its example's file and of its constants' region. -/
theorem lastPart_names_type {name : String} (hcolons : ¬[':', ':', ':'] <:+: name.toList)
    (hne : shortName name ≠ "") :
    (nameParts name).getLast? = some (shortName name) ∧
    (∀ part ∈ nameParts name, part ≠ "" ∧ ¬colons <:+: part.toList ∧ '.' ∉ part.toList) ∧
    ∃ space type, nameParts name = space ++ [type] ∧
      (∀ documents, Document.matching documents name = documents.filter fun d =>
        d.isWithin space &&
          if documents.any (fun e => e.isWithin space && e.isNamedAfter type) then
            d.isNamedAfter type
          else d.isModuleOf space) ∧
      (∀ f, literalLists f name = listsOf f fun path => shortTypeName path.chars = type) ∧
      Template.fileName name = snakeCase type ++ "_response_example.rs" ∧
      ∀ {σ : Type} [DocumentStore σ] (c : Conventions) (r : DescribeRequest) (d : Document)
        (more : List String) (done done' : Annotating) (p q : Progress σ),
        annotateSubject c r done ⟨d, name :: more⟩ p = .ok done' q →
          done'.constants = done.constants ∨
            ∃ o found, describeDocument c r d p = .ok (o, found) q ∧ found ≠ [] ∧
              done'.constants = done.constants.record type found := by
  have hlast := getLast?_nameParts hcolons hne
  obtain ⟨space, hname⟩ := List.getLast?_eq_some_iff.1 hlast
  refine ⟨hlast, fun _ => of_mem_nameParts, space, shortName name, hname,
    matching_of_nameParts hname, fun _ => rfl, rfl, ?_⟩
  intro σ _ c r d more done done' p q h
  exact constants_annotateSubject h

theorem lastPart_names_type_user :
    let name := "acme.v05::models::User"
    nameParts name = ["acme", "v05", "models", "User"] ∧
    (nameParts name).getLast? = some (shortName name) ∧
    ∀ part ∈ nameParts name, part ≠ "" ∧ ¬colons <:+: part.toList ∧ '.' ∉ part.toList := by
  intro name
  obtain ⟨hlast, hparts, -⟩ := lastPart_names_type
    (show ¬[':', ':', ':'] <:+: name.toList by decide +kernel) (by decide +kernel)
  exact ⟨by decide +kernel, hlast, hparts⟩

/-- Three colons are paired from the left for segments, and from the right for short names. -/
example : nameParts "a:::b" = ["a", ":b"] ∧ shortName "a:::b" = "b" := by decide +kernel

end Docsmith.Run
