import Docsmith.Proofs.Description.Places
import Docsmith.Proofs.Naming
import Docsmith.Proofs.Source.Names

/-!
# Constants that are identifiers

A new attribute names its constant by a path, so the constant has to be an identifier. The constants
of fields are; those of parameters start with the text of a type, as it is written.

* `isIdentifier_of_mem_fieldPlaces`: the constants of fields;
* `isIdentifier_iff_of_mem_parameterPlaces`: those of parameters;
* `annotate_identifiers_iff`: the documents all whose new constants are identifiers.
-/

namespace Docsmith.Description

open Docsmith.Source Docsmith.Naming Token

variable {o : MarkOptions} {source : String} {f : File} {p : Place}

/-- The name by which a parameter is described. -/
def parameterName? (param : Located) : Option String := param.pattern?.bind Located.boundName?

/-- The name that a pattern binds is that of a node inside it. -/
theorem exists_named_of_boundName? {pattern : Located} {name : String}
    (hp : pattern ∈ f.nodes) (h : pattern.boundName? = some name) :
    ∃ l ∈ f.nodes, l.name? = some name := by
  rw [Located.boundName?, Option.bind_eq_some_iff] at h
  obtain ⟨l, hl, h⟩ := h
  exact ⟨l, Tree.mem_nodesFrom_of_mem_nodes hp (List.mem_of_find?_eq_some hl), h⟩

section

variable (hw : File.WellFormed source)
include hw

theorem isIdentifier_parameterName? {param : Located} {name : String}
    (hp : param ∈ (File.read source).nodes) (h : parameterName? param = some name) :
    IsIdentifier name := by
  rw [parameterName?, Option.bind_eq_some_iff] at h
  obtain ⟨pattern, hpattern, h⟩ := h
  have hmem : pattern ∈ (File.read source).nodes :=
    Tree.mem_nodesFrom_of_mem_childNodes hp (Located.mem_childNodes_of_childWhere? hpattern)
  obtain ⟨l, hl, hname⟩ := exists_named_of_boundName? hmem h
  exact File.isIdentifier_of_name? hw hl hname

/-- The constants of fields are identifiers. -/
theorem isIdentifier_of_mem_fieldPlaces (h : p ∈ fieldPlaces o (File.read source)) :
    IsIdentifier p.constant := by
  obtain ⟨hholder, owner, howner, hitem, hm⟩ := mem_fieldPlaces.1 h
  have hholder := (List.mem_filter.1 hholder).1
  obtain ⟨name, e, hname, -, -, hmark⟩ := markField?_eq_some_iff.1 hm
  have hident := File.isIdentifier_of_name? hw (mem_nodes_of_recordFields hholder hitem) hname
  rw [Place.constant, hmark, isIdentifier_constantOf_iff hident]
  exact leads_of_isIdentifier (File.isIdentifier_of_name? hw hholder howner)
    (isIdentContinue_of_mem_compactName hident)

/-- The constants of parameters are those identifiers that the short names of types lead to. -/
theorem isIdentifier_iff_of_mem_parameterPlaces (h : p ∈ parameterPlaces o (File.read source)) :
    IsIdentifier p.constant ↔ ∀ owner ∈ p.holder.implOwner?, ∀ name ∈ parameterName? p.item,
      leads (shortTypeName owner.chars).toList (compactName name).toList = true := by
  obtain ⟨⟨hholder, -⟩, owner, howner, hitem, hm⟩ := mem_parameterPlaces.1 h
  have hholder := (List.mem_filter.1 hholder).1
  obtain ⟨fn, hfn, hparam⟩ := List.mem_flatMap.1 hitem
  obtain ⟨pattern, name, -, e, hpattern, hbound, -, -, -, hmark⟩ := markParameter?_eq_some_iff.1 hm
  have hname : parameterName? p.item = some name :=
    Option.bind_eq_some_iff.2 ⟨pattern, hpattern, hbound⟩
  have hident := isIdentifier_parameterName? hw (mem_nodes_of_parameters hholder hfn hparam) hname
  rw [Place.constant, hmark, isIdentifier_constantOf_iff hident, howner, hname]
  simp

/-- The new constants of a document without a fault are identifiers exactly if in front of the name of
each described parameter its impl's type, as it is written behind the last `::` and the last point and in
front of an angle bracket, makes an identifier. -/
theorem annotate_identifiers_iff (o : MarkOptions) :
    (∀ constant ∈ (annotate o source).constants, IsIdentifier constant) ↔
      ∀ p ∈ places o (File.read source), p.holder.is .implItem = true →
        ∀ owner ∈ p.holder.implOwner?, ∀ name ∈ parameterName? p.item,
          leads (shortTypeName owner.chars).toList (compactName name).toList = true := by
  obtain ⟨-, -, -, -, hconstants⟩ := annotate_at_places o source
  have hall : (∀ constant ∈ (annotate o source).constants, IsIdentifier constant) ↔
      ∀ p ∈ places o (File.read source), IsIdentifier p.constant := by
    simp only [hconstants, List.mem_eraseDups, List.forall_mem_map]
  rw [hall]
  refine forall₂_congr fun p hp => ?_
  rw [places, List.mem_append] at hp
  rcases hp with hp | hp
  · -- no structure is an impl
    have hstruct := (List.mem_filter.1 (mem_fieldPlaces.1 hp).1).2
    refine iff_of_true (isIdentifier_of_mem_fieldPlaces hw hp) fun himpl => ?_
    rw [Located.is, decide_eq_true_eq] at hstruct himpl
    rw [hstruct] at himpl
    cases himpl
  · split at hp
    · have himpl := (List.mem_filter.1 (mem_parameterPlaces.1 hp).1.1).2
      rw [isIdentifier_iff_of_mem_parameterPlaces hw hp]
      exact ⟨fun h _ => h, fun h => h himpl⟩
    · cases hp

end

/-- Constants for parameters as well. -/
def withParameters : MarkOptions := ⟨"Descriptions", "utoipa::path", true⟩

/-- A structure, and an impl with an operation. -/
def plainOwner : String :=
  "struct S \x7b r#type: u8 \x7d impl a::C<u8> \x7b #[utoipa::path] fn f(b_1: u8) \x7b\x7d \x7d"

theorem annotate_identifiers_plain : File.WellFormed plainOwner ∧
    ∀ constant ∈ (annotate withParameters plainOwner).constants, IsIdentifier constant := by
  have hw : File.WellFormed plainOwner := by decide +kernel
  exact ⟨hw, (annotate_identifiers_iff hw withParameters).2 (by decide +kernel)⟩

/-- A type with a blank in its path. -/
def spacedOwner : String := "impl a:: B \x7b #[utoipa::path] fn f(a: u8) \x7b\x7d \x7d"

/-- The blank gets into the name of the constant. -/
theorem annotate_spaced_owner : File.WellFormed spacedOwner ∧
    (annotate withParameters spacedOwner).constants = [" BA"] ∧ ¬ IsIdentifier " BA" := by
  refine ⟨?_, ?_, ?_⟩ <;> decide +kernel

end Docsmith.Description
