import OpenXbox.Lib.Run
import Mathlib.Tactic.Tauto

/-!
# Latched conditions

A condition that some steps of a machine raise and others clear; a step that does both raises it.
After a run it holds exactly when some step has raised it and none after that has cleared it. A
register that steps overwrite holds what the last of them has left there.
-/

namespace OpenXbox.Lib.Latch

open OpenXbox.Lib.Run

variable {σ ι : Type*} {step : σ → ι → Option σ} {raises clears : σ → ι → Prop} {flag : σ → Prop}

/-- A step of the run raises the condition, and none after it clears it. -/
def Outstanding (step : σ → ι → Option σ) (raises clears : σ → ι → Prop) (s : σ) (is : List ι) : Prop :=
  ∃ pre i post u u', is = pre ++ i :: post ∧ exec step s pre = some u ∧ step u i = some u' ∧
    raises u i ∧ Guarded step (fun v j => ¬ clears v j) u' post

theorem not_outstanding_nil (s : σ) : ¬ Outstanding step raises clears s [] := by
  rintro ⟨pre, i, post, -, -, h, -⟩
  simp at h

/-- The condition is raised by the first step of a run, or by one of the others. -/
theorem outstanding_cons {s s' : σ} {i : ι} {is : List ι} (hs : step s i = some s') :
    Outstanding step raises clears s (i :: is) ↔
      (raises s i ∧ Guarded step (fun v j => ¬ clears v j) s' is) ∨
        Outstanding step raises clears s' is := by
  constructor
  · rintro ⟨pre, j, post, u, u', he, hpre, hstep, hraise, hpost⟩
    cases pre with
    | nil =>
      obtain ⟨rfl, rfl⟩ : i = j ∧ is = post := by simpa using he
      obtain rfl : s = u := by simpa using hpre
      obtain rfl : s' = u' := by simpa [hs] using hstep
      exact .inl ⟨hraise, hpost⟩
    | cons k pre =>
      obtain ⟨rfl, rfl⟩ : i = k ∧ is = pre ++ j :: post := by simpa using he
      have hrest : exec step s' pre = some u := by simpa [exec_cons, hs] using hpre
      exact .inr ⟨pre, j, post, u, u', rfl, hrest, hstep, hraise, hpost⟩
  · rintro (⟨hraise, hpost⟩ | ⟨pre, j, post, u, u', rfl, hpre, hstep, hraise, hpost⟩)
    · exact ⟨[], i, is, s, s', rfl, rfl, hs, hraise, hpost⟩
    · refine ⟨i :: pre, j, post, u, u', rfl, ?_, hstep, hraise, hpost⟩
      simpa [exec_cons, hs] using hpre

/-- The condition holds after a run when it is outstanding, or held from the start and was not
cleared. What an invariant tells of the steps may be used to say when they raise it. -/
theorem flag_iff {I : σ → Prop} (hkeep : ∀ s i s', I s → step s i = some s' → I s')
    (hlatch : ∀ s i s', I s → step s i = some s' → (flag s' ↔ raises s i ∨ (flag s ∧ ¬ clears s i)))
    {s t : σ} {is : List ι} (hi : I s) (ht : exec step s is = some t) :
    flag t ↔ Outstanding step raises clears s is ∨
      (flag s ∧ Guarded step (fun v j => ¬ clears v j) s is) := by
  induction is generalizing s with
  | nil =>
    obtain rfl : s = t := by simpa using ht
    simp [not_outstanding_nil]
  | cons i is ih =>
    obtain ⟨s', hs, hrest⟩ := Option.bind_eq_some_iff.mp ht
    have hguard : Guarded step (fun v j => ¬ clears v j) s (i :: is) ↔
        ¬ clears s i ∧ Guarded step (fun v j => ¬ clears v j) s' is := by
      simp [Guarded, hs]
    rw [ih (hkeep s i s' hi hs) hrest, hlatch s i s' hi hs, outstanding_cons hs, hguard]
    tauto

/-- A condition that does not hold at first. -/
theorem flag_iff_outstanding {I : σ → Prop} (hkeep : ∀ s i s', I s → step s i = some s' → I s')
    (hlatch : ∀ s i s', I s → step s i = some s' → (flag s' ↔ raises s i ∨ (flag s ∧ ¬ clears s i)))
    {s t : σ} {is : List ι} (hi : I s) (hs : ¬ flag s) (ht : exec step s is = some t) :
    flag t ↔ Outstanding step raises clears s is := by
  rw [flag_iff hkeep hlatch hi ht, or_iff_left fun h => hs h.1]

/-! ## Overwritten values -/

variable {β : Type*} {update : σ → ι → Option β} {reg : σ → β}

/-- The value that the last step to overwrite a register has left in it. -/
def lastUpdate (step : σ → ι → Option σ) (update : σ → ι → Option β) : σ → List ι → Option β
  | _, [] => none
  | s, i :: is => (step s i).elim none fun s' => (lastUpdate step update s' is).or (update s i)

theorem lastUpdate_cons {s s' : σ} {i : ι} {is : List ι} (hs : step s i = some s') :
    lastUpdate step update s (i :: is) = (lastUpdate step update s' is).or (update s i) := by
  rw [lastUpdate, hs, Option.elim_some]

/-- A register that each step either overwrites or keeps. -/
theorem reg_eq_lastUpdate {I : σ → Prop} (hkeep : ∀ s i s', I s → step s i = some s' → I s')
    (hupdate : ∀ s i s', I s → step s i = some s' → reg s' = (update s i).getD (reg s))
    {s t : σ} {is : List ι} (hi : I s) (ht : exec step s is = some t) :
    reg t = (lastUpdate step update s is).getD (reg s) := by
  induction is generalizing s with
  | nil =>
    obtain rfl : s = t := by simpa using ht
    rfl
  | cons i is ih =>
    obtain ⟨s', hs, hrest⟩ := Option.bind_eq_some_iff.mp ht
    rw [ih (hkeep s i s' hi hs) hrest, hupdate s i s' hi hs, lastUpdate_cons hs]
    cases lastUpdate step update s' is <;> rfl

/-- What is computed along a run from the states and the inputs. -/
def track (step : σ → ι → Option σ) (next : σ → ι → β → β) : σ → List ι → β → β
  | _, [], b => b
  | s, i :: is, b => (step s i).elim b fun s' => track step next s' is (next s i b)

/-- It goes along with the states when each step keeps it so. -/
theorem exec_track {next : σ → ι → β → β} {R : σ → β → Prop}
    (hnext : ∀ s i s' b, R s b → step s i = some s' → R s' (next s i b))
    {s t : σ} {is : List ι} {b : β} (hr : R s b) (ht : exec step s is = some t) :
    R t (track step next s is b) := by
  induction is generalizing s b with
  | nil =>
    obtain rfl : s = t := by simpa using ht
    exact hr
  | cons i is ih =>
    obtain ⟨s', hs, hrest⟩ := Option.bind_eq_some_iff.mp ht
    rw [track, hs, Option.elim_some]
    exact ih (hnext s i s' b hr hs) hrest

end OpenXbox.Lib.Latch
