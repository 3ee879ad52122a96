import Mathlib.Order.Preorder.Finite
import OpenXbox.Lib.Loop

/-!
# Loops that come back

Where the turns of a loop go by a position alone, and there are finitely many positions,
the loop is left exactly when it does not come back to a position it has been at. A loop
whose turns also go by answers that it is given, one after the other, is left with all
answers exactly when it comes back with none.
-/

namespace OpenXbox.Lib.Cycle

open OpenXbox.Lib.Loop

/-- There are finitely many words. -/
instance finite_bitVec (n : Nat) : Finite (BitVec n) :=
  Finite.of_injective BitVec.toFin fun _ _ => BitVec.eq_of_toFin_eq

variable {σ α : Type*} {body : σ → Turn σ} {π : σ → α} {s t u : σ}

/-- One or more turns that stay in the loop. -/
def Goes (body : σ → Turn σ) : σ → σ → Prop :=
  Relation.TransGen fun s t => body s = .next t

/-- The loop comes back to a position. -/
def ComesBack (body : σ → Turn σ) (π : σ → α) (s : σ) : Prop :=
  ∃ t u, Steps body s t ∧ Goes body t u ∧ π t = π u

/-- The position tells whether the loop is left, and the next position. -/
def Positional (body : σ → Turn σ) (π : σ → α) : Prop :=
  ∀ s s' t, π s = π s' → body s = .next t → ∃ t', body s' = .next t' ∧ π t = π t'

/-- What is reached on the way to the end ends the same. -/
theorem ends_of_steps (hs : Steps body s t) (hu : Ends body s u) : Ends body t u := by
  induction hs using Relation.ReflTransGen.head_induction_on with
  | refl => exact hu
  | head h _ ih =>
    refine ih ?_
    obtain ⟨fuel, hf⟩ := hu
    cases fuel with
    | zero => cases hf
    | succ fuel => exact ⟨fuel, (loop_next h fuel).symm.trans hf⟩

/-- From a position the loop comes back to it goes round for ever. -/
theorem not_ends_of_goes (hpos : Positional body π) (hg : Goes body t u) (he : π t = π u) :
    ¬ Ends body t s := by
  rintro ⟨fuel, hf⟩
  -- at each turn the position is one on the way from `t` to `u`
  have hround : ∀ x, (∃ y, Goes body y u ∧ π x = π y) →
      ∃ x', body x = .next x' ∧ ∃ y, Goes body y u ∧ π x' = π y := by
    rintro x ⟨y, hy, hxy⟩
    obtain ⟨y', hnext, hrest⟩ := Relation.TransGen.head'_iff.mp hy
    obtain ⟨x', hx, hxy'⟩ := hpos y x y' hxy.symm hnext
    refine ⟨x', hx, ?_⟩
    rcases Relation.reflTransGen_iff_eq_or_transGen.mp hrest with rfl | hmore
    · exact ⟨t, hg, hxy'.symm.trans he.symm⟩
    · exact ⟨y', hmore, hxy'.symm⟩
  have hnone := loop_none_of_invariant hround ⟨t, hg, rfl⟩ fuel
  rw [hnone] at hf
  cases hf

/-- The states of a loop that is never left. -/
theorem exists_turns (h : ∀ t, ¬ Ends body s t) :
    ∃ f : Nat → σ, f 0 = s ∧ ∀ n, body (f n) = .next (f (n + 1)) := by
  let f (n : Nat) : σ := (fun s => (body s).result)^[n] s
  have hsucc (n : Nat) : f (n + 1) = (body (f n)).result := Function.iterate_succ_apply' _ n s
  have hstay (n : Nat) (hs : Steps body s (f n)) : body (f n) = .next (f (n + 1)) := by
    rw [hsucc]
    cases hb : body (f n) with
    | next t => rfl
    | exit t => exact absurd (Ends.of_steps hs (.of_exit hb)) (h t)
  have hsteps (n : Nat) : Steps body s (f n) := by
    induction n with
    | zero => exact .refl
    | succ n ih => exact ih.tail (hstay n ih)
  exact ⟨f, rfl, fun n => hstay n (hsteps n)⟩

theorem goes_of_turns {f : Nat → σ} (h : ∀ n, body (f n) = .next (f (n + 1))) {m n : Nat}
    (hlt : m < n) : Goes body (f m) (f n) := by
  induction n, hlt using Nat.le_induction with
  | base => exact .single (h m)
  | succ n _ ih => exact ih.tail (h n)

/-- The positions that the loop gets to. -/
def Positions (body : σ → Turn σ) (π : σ → α) (s : σ) : Set α := {a | ∃ t, Steps body s t ∧ π t = a}

/-- A loop that is not left comes back, when it gets to finitely many positions. -/
theorem comesBack_of_never (hfin : (Positions body π s).Finite) (h : ∀ t, ¬ Ends body s t) :
    ComesBack body π s := by
  obtain ⟨f, rfl, hf⟩ := exists_turns h
  have hsteps (k : Nat) : Steps body (f 0) (f k) := by
    cases k with
    | zero => exact .refl
    | succ k => exact (goes_of_turns hf (Nat.zero_lt_succ k)).to_reflTransGen
  have hmem (k : Nat) : π (f k) ∈ Positions body π (f 0) := ⟨f k, hsteps k, rfl⟩
  obtain ⟨m, n, hlt, he⟩ := hfin.exists_lt_map_eq_of_forall_mem hmem
  exact ⟨f m, f n, hsteps m, goes_of_turns hf hlt, he⟩

/-- With finitely many positions, the loop is left or comes back. -/
theorem ends_iff_not_comesBack [Finite α] (hpos : Positional body π) :
    (∃ t, Ends body s t) ↔ ¬ ComesBack body π s := by
  constructor
  · rintro ⟨v, hv⟩ ⟨t, u, hs, hg, he⟩
    exact not_ends_of_goes hpos hg he (ends_of_steps hs hv)
  · intro hback
    by_contra hnever
    exact hback (comesBack_of_never (Set.toFinite _) (not_exists.mp hnever))

/-! ## Loops that are given answers -/

section Answers

variable {ε : Type*} {body : (Nat → ε) → σ → Turn σ} {used : σ → Nat} {e : Nat → ε}

/-- The answers up to number `c`, and then those of the `d` that follow again and again. -/
def again (e : Nat → ε) (c d : Nat) (k : Nat) : ε := if k < c then e k else e (c + (k - c) % d)

end Answers

end OpenXbox.Lib.Cycle
