import Docsmith.Random.Generator

/-!
# Draws

A number is drawn from the first word that is accepted. The keystream repeats, so a word that is
accepted anywhere is met again within a period.

* `word_mod_period`: the keystream repeats;
* `search_of_draws`: what a search finds, however long it goes on;
* `below_draws`: a draw ends at the first word that is accepted, if any is.
-/

namespace Docsmith.Random

/-- The keystream repeats. -/
theorem word_mod_period (key : Key) (position : Nat) :
    word key (position % period) = word key position := by
  have hblock : (position % period / 16).toUInt64 = (position / 16).toUInt64 := by
    rw [← UInt64.toNat_inj, UInt64.toNat_ofNat', UInt64.toNat_ofNat']
    simp only [period, UInt64.size]
    omega
  have hplace : position % period % 16 = position % 16 := by
    simp only [period, UInt64.size]
    omega
  simp only [word, hblock, hplace]

namespace Generator

variable {key : Key} {bound position n next : Nat}

/-- The fraction of a word lies in the zone of the bound. -/
def Accepts (key : Key) (bound position : Nat) : Prop :=
  (word key position).toNat * bound % UInt32.size ≤ zone bound

/-- A number drawn at a position, and the position behind it: words are passed over up to the first one
that is accepted, which is scaled to the bound. -/
inductive Draws (key : Key) (bound : Nat) : Nat → Nat → Nat → Prop where
  | taken {position : Nat} (h : Accepts key bound position) :
    Draws key bound position ((word key position).toNat * bound / UInt32.size) (position + 1)
  | passed {position n next : Nat} (h : ¬Accepts key bound position)
    (hrest : Draws key bound (position + 1) n next) : Draws key bound position n next

theorem Draws.position_lt (h : Draws key bound position n next) : position < next := by
  induction h with
  | taken => exact Nat.lt_succ_self _
  | passed _ _ ih => exact Nat.lt_of_succ_lt ih

/-- A search finds what is drawn, if it goes on as far. -/
theorem search_of_draws (h : Draws key bound position n next) {fuel : Nat}
    (hfuel : next ≤ position + fuel + 1) : search key bound fuel position = (n, next) := by
  induction h generalizing fuel with
  | taken h =>
    cases fuel with
    | zero => rfl
    | succ fuel => exact if_pos h
  | passed h hrest ih =>
    cases fuel with
    | zero => exact absurd hrest.position_lt (by omega)
    | succ fuel => exact (if_neg h).trans (ih (by omega))

/-- Up to a word that is accepted there is a first one. -/
theorem exists_draws {k : Nat} (h : Accepts key bound (position + k)) :
    ∃ n next, Draws key bound position n next ∧ next ≤ position + k + 1 := by
  induction k generalizing position with
  | zero => exact ⟨_, _, .taken h, Nat.le_refl _⟩
  | succ k ih =>
    by_cases hfirst : Accepts key bound position
    · exact ⟨_, _, .taken hfirst, by omega⟩
    · have hlater : Accepts key bound (position + 1 + k) := by rwa [Nat.add_right_comm]
      obtain ⟨n, next, hdraws, hnext⟩ := ih hlater
      exact ⟨n, next, .passed hfirst hdraws, by omega⟩

/-- A draw ends at the first word that is accepted, if any word of the keystream is. -/
theorem below_draws (g : Generator) (h : ∃ p, Accepts g.key bound p) :
    Draws g.key bound g.position (g.below bound).1 (g.below bound).2.position := by
  obtain ⟨p, hp⟩ := h
  -- the same word stands at a distance of less than a period
  have hagain : ∃ k, k < period ∧ (g.position + k) % period = p % period := by
    refine ⟨(p % period + period - g.position % period) % period, Nat.mod_lt _ (by decide), ?_⟩
    simp only [period, UInt64.size]
    omega
  obtain ⟨k, hk, hmod⟩ := hagain
  have hword : word g.key (g.position + k) = word g.key p := by
    rw [← word_mod_period, hmod, word_mod_period]
  have haccepts : Accepts g.key bound (g.position + k) := by rwa [Accepts, hword]
  obtain ⟨n, next, hdraws, hnext⟩ := exists_draws haccepts
  have hfound : search g.key bound period g.position = (n, next) :=
    search_of_draws hdraws (by omega)
  rw [below, hfound]
  exact hdraws

end Generator

end Docsmith.Random
