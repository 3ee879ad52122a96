import Mathlib.Data.List.Basic

/-!
# Machines that answer each input

A machine is `step : σ → ι → σ × ο`: every input leads to one next state and one output. A run
gives the last state and the outputs in order.
-/

namespace OpenXbox.Lib.Mealy

variable {σ τ ι κ ο : Type*} {step : σ → ι → σ × ο}

/-- The state after the inputs, and what was given out for each of them. -/
def run (step : σ → ι → σ × ο) : σ → List ι → σ × List ο
  | s, [] => (s, [])
  | s, i :: is => ((run step (step s i).1 is).1, (step s i).2 :: (run step (step s i).1 is).2)

/-- What every step keeps, a run keeps. -/
theorem run_invariant {I : σ → Prop} (hstep : ∀ s i, I s → I (step s i).1) {s : σ} (hi : I s)
    (is : List ι) : I (run step s is).1 := by
  induction is generalizing s with
  | nil => exact hi
  | cons i is ih => exact ih (hstep s i hi)

section Lockstep

variable {step' : τ → κ → τ × ο} {R : σ → τ → Prop} {f : ι → κ} {D P : ι → Prop}

/-- Two machines stay related and answer alike on inputs on which each pair of steps does. -/
theorem run_lockstep
    (hsame : ∀ s t i, D i → P i → R s t →
      R (step s i).1 (step' t (f i)).1 ∧ (step s i).2 = (step' t (f i)).2)
    {s : σ} {t : τ} (hr : R s t) {is : List ι} (hd : ∀ i ∈ is, D i) (hp : ∀ i ∈ is, P i) :
    R (run step s is).1 (run step' t (is.map f)).1 ∧
      (run step s is).2 = (run step' t (is.map f)).2 := by
  induction is generalizing s t with
  | nil => exact ⟨hr, rfl⟩
  | cons i is ih =>
    rw [List.forall_mem_cons] at hd hp
    obtain ⟨hnext, hout⟩ := hsame s t i hd.1 hp.1 hr
    obtain ⟨hlast, hrest⟩ := ih hnext hd.2 hp.2
    exact ⟨hlast, congrArg₂ List.cons hout hrest⟩

/-- When they answer differently on all other inputs, the answers tell whether there was one. -/
theorem run_outputs_eq_iff
    (hsame : ∀ s t i, D i → P i → R s t →
      R (step s i).1 (step' t (f i)).1 ∧ (step s i).2 = (step' t (f i)).2)
    (hdiff : ∀ s t i, D i → ¬ P i → R s t → (step s i).2 ≠ (step' t (f i)).2)
    {s : σ} {t : τ} (hr : R s t) {is : List ι} (hd : ∀ i ∈ is, D i) :
    (run step s is).2 = (run step' t (is.map f)).2 ↔ ∀ i ∈ is, P i := by
  refine ⟨fun heq => ?_, fun hp => (run_lockstep hsame hr hd hp).2⟩
  induction is generalizing s t with
  | nil => exact fun i hi => absurd hi List.not_mem_nil
  | cons i is ih =>
    rw [List.forall_mem_cons] at hd
    obtain ⟨hout, hrest⟩ := List.cons.inj heq
    have hp : P i := by
      by_contra hno
      exact hdiff s t i hd.1 hno hr hout
    exact List.forall_mem_cons.mpr ⟨hp, ih (hsame s t i hd.1 hp hr).1 hd.2 hrest⟩

end Lockstep

end OpenXbox.Lib.Mealy
