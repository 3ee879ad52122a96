import Mathlib.Logic.Relation

/-!
# While loops

The body of a loop turns a state into the next one or leaves the loop. `loop`
runs it with a bound on the number of turns; `Ends` says that some bound is
enough and gives the state the loop leaves with.
-/

namespace OpenXbox.Lib.Loop

inductive Turn (σ : Type*) where
  | next (s : σ)
  | exit (s : σ)

/-- The state after a turn. -/
def Turn.result {σ : Type*} : Turn σ → σ
  | .next s => s
  | .exit s => s

variable {σ : Type*} {body : σ → Turn σ}

/-- At most `fuel` turns; `none` when the loop has not been left by then. -/
def loop (body : σ → Turn σ) : Nat → σ → Option σ
  | 0, _ => none
  | fuel + 1, s =>
    match body s with
    | .next t => loop body fuel t
    | .exit t => some t

/-- The loop started in `s` is left in `t`. -/
def Ends (body : σ → Turn σ) (s t : σ) : Prop := ∃ fuel, loop body fuel s = some t

/-- Some number of turns that stay in the loop. -/
def Steps (body : σ → Turn σ) : σ → σ → Prop :=
  Relation.ReflTransGen fun s t => body s = .next t

theorem loop_next {s t : σ} (h : body s = .next t) (fuel : Nat) :
    loop body (fuel + 1) s = loop body fuel t := by
  rw [loop, h]

theorem loop_exit {s t : σ} (h : body s = .exit t) (fuel : Nat) :
    loop body (fuel + 1) s = some t := by
  rw [loop, h]

/-- What every turn keeps holds where the loop is left. -/
theorem loop_invariant {I : σ → Prop} (h : ∀ s, I s → I (body s).result) {s t : σ} {fuel : Nat}
    (hs : I s) (hloop : loop body fuel s = some t) : I t := by
  induction fuel generalizing s with
  | zero => cases hloop
  | succ fuel ih =>
    have hkeep := h s hs
    cases hb : body s with
    | next u =>
      rw [hb] at hkeep
      rw [loop_next hb] at hloop
      exact ih hkeep hloop
    | exit u =>
      rw [hb] at hkeep
      rw [loop_exit hb] at hloop
      cases hloop
      exact hkeep

/-- More turns do not change the result. -/
theorem loop_mono {s t : σ} {fuel more : Nat} (h : loop body fuel s = some t)
    (hle : fuel ≤ more) : loop body more s = some t := by
  induction fuel generalizing s more with
  | zero => cases h
  | succ fuel ih =>
    obtain ⟨more, rfl⟩ : ∃ k, more = k + 1 := ⟨more - 1, by omega⟩
    cases hb : body s with
    | next u =>
      rw [loop_next hb] at h ⊢
      exact ih h (Nat.le_of_succ_le_succ hle)
    | exit u =>
      rw [loop_exit hb] at h ⊢
      exact h

theorem Ends.unique {s t u : σ} (ht : Ends body s t) (hu : Ends body s u) : t = u := by
  obtain ⟨m, hm⟩ := ht
  obtain ⟨n, hn⟩ := hu
  have hm' := loop_mono hm (Nat.le_max_left m n)
  have hn' := loop_mono hn (Nat.le_max_right m n)
  exact Option.some.inj (hm'.symm.trans hn')

theorem Ends.of_exit {s t : σ} (h : body s = .exit t) : Ends body s t := ⟨1, loop_exit h 0⟩

theorem Ends.of_next {s t u : σ} (h : body s = .next t) (ht : Ends body t u) : Ends body s u := by
  obtain ⟨fuel, hf⟩ := ht
  exact ⟨fuel + 1, (loop_next h fuel).trans hf⟩

theorem Ends.of_steps {s t u : σ} (hs : Steps body s t) (ht : Ends body t u) : Ends body s u := by
  induction hs using Relation.ReflTransGen.head_induction_on with
  | refl => exact ht
  | head h _ ih => exact ih.of_next h

/-- The turns that stay in the loop lead to the one that leaves it. -/
theorem Ends.last_turn {s t : σ} (h : Ends body s t) : ∃ u, Steps body s u ∧ body u = .exit t := by
  obtain ⟨fuel, hloop⟩ := h
  induction fuel generalizing s with
  | zero => cases hloop
  | succ fuel ih =>
    cases hb : body s with
    | next v =>
      rw [loop_next hb] at hloop
      obtain ⟨u, hsteps, hexit⟩ := ih hloop
      exact ⟨u, .head hb hsteps, hexit⟩
    | exit v =>
      rw [loop_exit hb] at hloop
      cases hloop
      exact ⟨s, .refl, hb⟩

/-- A loop that is left after `n` turns. -/
theorem Ends.of_count {state : Nat → σ} {n : Nat}
    (hnext : ∀ k, k < n → body (state k) = .next (state (k + 1)))
    (hexit : body (state n) = .exit (state n)) : Ends body (state 0) (state n) := by
  have hfrom (k : Nat) (hk : k ≤ n) : Ends body (state (n - k)) (state n) := by
    induction k with
    | zero => exact .of_exit hexit
    | succ k ih =>
      have hturn := hnext (n - (k + 1)) (by omega)
      rw [show n - (k + 1) + 1 = n - k by omega] at hturn
      exact (ih (by omega)).of_next hturn
  have hall := hfrom n (Nat.le_refl n)
  rwa [Nat.sub_self] at hall

/-- A loop each turn of which makes a measure smaller is left. -/
theorem ends_of_measure (μ : σ → Nat) {I : σ → Prop}
    (h : ∀ s t, I s → body s = .next t → I t ∧ μ t < μ s) {s : σ} (hs : I s) : ∃ t, Ends body s t := by
  induction hm : μ s using Nat.strongRecOn generalizing s with
  | ind m ih =>
    cases hb : body s with
    | exit t => exact ⟨t, .of_exit hb⟩
    | next t =>
      obtain ⟨ht, hlt⟩ := h s t hs hb
      obtain ⟨u, hu⟩ := ih (μ t) (hm ▸ hlt) ht rfl
      exact ⟨u, .of_next hb hu⟩

theorem Steps.one {s t : σ} (h : body s = .next t) : Steps body s t := Relation.ReflTransGen.single h

/-- A loop that never leaves the states of an invariant is never left. -/
theorem loop_none_of_invariant {I : σ → Prop} (h : ∀ s, I s → ∃ t, body s = .next t ∧ I t)
    {s : σ} (hs : I s) (fuel : Nat) : loop body fuel s = none := by
  induction fuel generalizing s with
  | zero => rfl
  | succ fuel ih =>
    obtain ⟨t, hb, ht⟩ := h s hs
    rw [loop_next hb]
    exact ih ht

end OpenXbox.Lib.Loop
