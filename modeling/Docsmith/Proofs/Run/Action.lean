import Docsmith.Run.Action

/-!
# Steps of actions

What single actions do to the documents and the lines shown so far.
-/

namespace Docsmith.Run.Action

section

variable {σ α β : Type} {p p' : Progress σ}

theorem bind_eq (x : Action σ α) (f : α → Action σ β) (p : Progress σ) :
    (x >>= f) p =
      match x p with
      | .ok a q => f a q
      | .error e q => .error e q := by
  change EStateM.bind x f p = _
  rw [EStateM.bind]
  cases x p <;> rfl

/-- An action that goes on succeeds when both of its parts do. -/
theorem bind_eq_ok {x : Action σ α} {f : α → Action σ β} {b : β} :
    (x >>= f) p = .ok b p' ↔ ∃ a q, x p = .ok a q ∧ f a q = .ok b p' := by
  rw [bind_eq]
  cases x p with
  | ok a q =>
    constructor
    · intro h
      exact ⟨a, q, rfl, h⟩
    · rintro ⟨_, _, h, h'⟩
      cases h
      exact h'
  | error e q => simp

theorem ofExcept_ok_bind (x : α) (f : α → Action σ β) : (ofExcept (.ok x) >>= f) = f x := rfl

theorem skipInput_of_ok {work : Action σ Outcome} {o : Outcome} (h : work p = .ok o p') :
    skipInput work p = .ok o p' := by
  rw [skipInput, h]

theorem skipInput_of_error {work : Action σ Outcome} {e : Error} (h : work p = .error e p') :
    skipInput work p = if e.isInput then .ok (.skipped e.message) p' else .error e p' := by
  rw [skipInput, h]

theorem run_of_ok {x : Action σ α} {docs : σ} {a : α} (h : x ⟨docs, []⟩ = .ok a p) :
    x.run docs = (.ok a, p) := by
  rw [run, h]

theorem eq_ok_of_run {α : Type} {x : Action σ α} {docs : σ} {a : α} {final : Progress σ}
    (h : x.run docs = (.ok a, final)) : x ⟨docs, []⟩ = .ok a final := by
  rw [Action.run] at h
  generalize x ⟨docs, []⟩ = y at h
  cases y with
  | ok a q => cases h; rfl
  | error e q => cases h

end

variable {σ : Type} [DocumentStore σ] {p : Progress σ} {d : Document} {text : String}

theorem readDocument_of_ok (h : DocumentStore.read p.docs d = .ok text) :
    readDocument d p = .ok text p := by
  rw [readDocument, onDocs, h]

theorem readDocument_of_error {e : Error} (h : DocumentStore.read p.docs d = .error e) :
    readDocument d p = .error e p := by
  rw [readDocument, onDocs, h]

theorem writeDocument_of_ok {docs : σ} (h : DocumentStore.write p.docs d text = (.ok (), docs)) :
    writeDocument d text p = .ok () { p with docs } := by
  rw [writeDocument, onDocs, h]

theorem emit_of_ok {docs : σ} (h : DocumentStore.write p.docs d text = (.ok (), docs)) :
    emit false d text p = .ok .written { p with docs } := by
  rw [emit, if_neg Bool.false_ne_true, bind_eq, writeDocument_of_ok h]
  rfl

end Docsmith.Run.Action
