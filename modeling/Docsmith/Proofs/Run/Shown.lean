import Docsmith.Discovery.Catalog
import Docsmith.Proofs.Metadata.Contents
import Docsmith.Run.Action

/-!
# Shown names

A type is shown without the target module its name starts with. Such a name is looked up as it is
before it is looked up inside the target, so it stands for the type unless another one bears it.

* `stripModule_cases`, `stripModule_join`: a name without a module;
* `shownName_resolves`: what shown names stand for, and the paths they belong to.
-/

namespace Docsmith.Naming

open Docsmith.Text

/-- A module and a name inside it. -/
theorem stripModule_join {module : String} (hmodule : module ≠ "") (rest : String) :
    stripModule (module ++ "::" ++ rest) module = rest := by
  have hchars : (module ++ "::" ++ rest).toList = module.toList ++ (colons ++ rest.toList) := by
    simp [colons]
  rw [stripModule, hchars, afterStart?_append, Option.bind_some, afterStart?_append]
  rw [if_neg (by simpa using hmodule)]
  exact String.ofList_toList

/-- Either nothing is stripped, or a module and the colons behind it. -/
theorem stripModule_cases (name module : String) :
    stripModule name module = name ∨
      module ≠ "" ∧ name = module ++ "::" ++ stripModule name module := by
  rw [stripModule]
  split
  · exact .inl rfl
  · rename_i hmodule
    split
    · rename_i rest hrest
      obtain ⟨behind, hbehind, hcolons⟩ := Option.bind_eq_some_iff.1 hrest
      refine .inr ⟨by simpa using hmodule, String.toList_injective ?_⟩
      rw [eq_append_of_afterStart? hbehind, eq_append_of_afterStart? hcolons]
      simp [colons]
    · exact .inl rfl

end Docsmith.Naming

namespace Docsmith.Run

open Docsmith.Discovery Docsmith.Metadata Docsmith.Naming

theorem append_ne_self {front : String} (h : front ≠ "") (name : String) : front ++ name ≠ name :=
  fun heq => h (by simpa using congrArg String.toList heq)

theorem append_colons_ne_self (module name : String) : module ++ "::" ++ name ≠ name :=
  append_ne_self (by simp) name

/-- A path starts at the crate if there was a module to strip. -/
theorem rootedPath_eq (name target : String) :
    rootedPath name target =
      if stripModule name target = name then name else "crate::" ++ stripModule name target := by
  rw [rootedPath]
  rcases stripModule_cases name target with hsame | ⟨-, hjoin⟩
  · rw [if_pos hsame, if_pos (congrArg _ hsame)]
  · have hother : stripModule name target ≠ name := fun h =>
      append_colons_ne_self target name ((congrArg _ h.symm).trans hjoin.symm)
    have hsize : (stripModule name target).utf8ByteSize ≠ name.utf8ByteSize := fun h => by
      have hlong := congrArg String.utf8ByteSize hjoin
      have hcolons : "::".utf8ByteSize = 2 := rfl
      rw [String.utf8ByteSize_append, String.utf8ByteSize_append] at hlong
      omega
    rw [if_neg hother, if_neg hsize]

variable {c : Catalog} {d : DescribedType}

/-- A type is found under its shown name if no other type is named so. -/
theorem find?_shownName_iff (hd : d ∈ c.session.types) :
    c.session.find? (c.shownName d.name false) = some d ↔
      ∀ e ∈ c.session.types, e.name = c.shownName d.name false → e = d := by
  have hshown : c.shownName d.name false = stripModule d.name c.session.target := rfl
  rcases stripModule_cases d.name c.session.target with hsame | ⟨-, hjoin⟩
  · -- shown as it is, the type is found by its own name
    rw [hshown, hsame]
    exact ⟨fun _ e he hn => eq_of_name_eq he hd hn, fun _ => Session.find?_of_mem hd⟩
  · rw [← hshown] at hjoin
    have hother : d.name ≠ c.shownName d.name false := fun h =>
      append_colons_ne_self c.session.target d.name ((congrArg _ h).trans hjoin.symm)
    -- so it can only be found inside the target, after all the names as they are
    rw [Session.find?_eq_some_iff]
    constructor
    · rintro (⟨-, h⟩ | ⟨hnone, -⟩) e he hn
      · exact absurd h hother
      · exact absurd hn (hnone e he)
    · intro honly
      refine .inr ⟨fun e he hn => hother ?_, hd, hjoin⟩
      exact honly e he hn ▸ hn

/-- The shown name of a type inside the target is its name there. It stands for the type exactly if no
other type is named so. A path starts at the crate and goes on with the shown name exactly if that is
not the name of the type, and is the name otherwise. -/
theorem shownName_resolves (c : Catalog) (hd : d ∈ c.session.types) :
    (∀ rest, c.session.target ≠ "" → d.name = c.session.target ++ "::" ++ rest →
      c.shownName d.name false = rest) ∧
    (c.session.find? (c.shownName d.name false) = some d ↔
      ∀ e ∈ c.session.types, e.name = c.shownName d.name false → e = d) ∧
    (rootedPath d.name c.session.target = "crate::" ++ c.shownName d.name false ↔
      c.shownName d.name false ≠ d.name) ∧
    (c.shownName d.name false = d.name → rootedPath d.name c.session.target = d.name) := by
  have hshown : c.shownName d.name false = stripModule d.name c.session.target := rfl
  rw [rootedPath_eq, ← hshown]
  refine ⟨fun rest ht hname => ?_, find?_shownName_iff hd, ⟨fun hpath hsame => ?_, fun h => if_neg h⟩,
    fun h => if_pos h⟩
  · rw [hshown, hname, stripModule_join ht]
  · rw [if_pos hsame, hsame] at hpath
    exact append_ne_self (by decide) d.name hpath.symm

/-- A user inside the target, and another type that is named as the first one is shown. -/
def shadowSession : Session :=
  .ofSnapshots [⟨"acme", [], ["acme::v1::User", "v1::User", "acme_ext::User"].map fun name =>
    ⟨name, "", .structured, none, [], [], [], []⟩⟩]

theorem shownName_resolves_shadow :
    let c : Catalog := ⟨shadowSession, .standard⟩
    ∃ d ∈ shadowSession.types, d.name = "acme::v1::User" ∧ c.shownName d.name false = "v1::User" ∧
      shadowSession.find? "v1::User" ≠ some d ∧
      rootedPath d.name shadowSession.target = "crate::v1::User" := by
  intro c
  have hd : (⟨"acme::v1::User", "acme", .structured, none, [], [], [], []⟩ : DescribedType) ∈
      shadowSession.types := List.mem_cons_self ..
  have he : (⟨"v1::User", "acme", .structured, none, [], [], [], []⟩ : DescribedType) ∈
      shadowSession.types := List.mem_cons_of_mem _ (List.mem_cons_self ..)
  obtain ⟨hrest, hfound, hpath, -⟩ := shownName_resolves c hd
  have hshown := hrest "v1::User" (by decide) (by decide)
  refine ⟨_, hd, rfl, hshown, fun h => ?_, ?_⟩
  · have hsame := congrArg DescribedType.name (hfound.1 (hshown ▸ h) _ he hshown.symm)
    simp at hsame
  · rw [hpath.2 (by rw [hshown]; decide), hshown]
    rfl

end Docsmith.Run
