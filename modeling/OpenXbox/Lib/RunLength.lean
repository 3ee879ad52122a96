import Mathlib.Data.List.Basic

/-!
# Runs of equal elements

A run is scanned from its first element on, up to a bound on the position and one on the length.
-/

namespace OpenXbox.Lib.RunLength

variable {α : Type*} {p : Nat → α} {stop max : Nat}

/-- The elements from `v` on that a scan finds: one at least, equal, within the bounds, and as many
as possible. -/
structure IsRun (p : Nat → α) (stop max v len : Nat) : Prop where
  pos : 0 < len
  le : len ≤ max
  same : ∀ k < len, p (v + k) = p v
  within : len = 1 ∨ v + len ≤ stop
  maximal : stop ≤ v + len ∨ len = max ∨ p (v + len) ≠ p v

/-- Elements equal to the first lie in the run, unless its length is at the bound. -/
theorem IsRun.covers {v len n : Nat} (run : IsRun p stop max v len) (hlen : len ≠ max)
    (hstop : v + n ≤ stop) (hsame : ∀ k < n, p (v + k) = p v) : n ≤ len := by
  by_contra hlt
  obtain hend | hfull | hne := run.maximal
  · omega
  · exact hlen hfull
  · exact hne (hsame len (by omega))

variable [DecidableEq α]

/-- The scan of a run of `a` at position `v` with `len` elements so far: the first position that is
not part of it, and its length. -/
def scan (p : Nat → α) (stop max : Nat) (a : α) (v len : Nat) : Nat × Nat :=
  if v + 1 < stop ∧ len < max ∧ a = p (v + 1) then scan p stop max a (v + 1) (len + 1)
  else (v + 1, len)
termination_by stop - v

/-- What holds all along a scan that began at `v` and has `len` elements. -/
theorem scan_spec (p : Nat → α) (stop max : Nat) {a : α} {v len : Nat} (hpos : 0 < len) (hle : len ≤ max)
    (hsame : ∀ k < len, p (v + k) = a) (hwithin : len = 1 ∨ v + len ≤ stop) :
    let r := scan p stop max a (v + len - 1) len
    r.1 = v + r.2 ∧ 0 < r.2 ∧ r.2 ≤ max ∧ (∀ k < r.2, p (v + k) = a) ∧
      (r.2 = 1 ∨ v + r.2 ≤ stop) ∧ (stop ≤ v + r.2 ∨ r.2 = max ∨ p (v + r.2) ≠ a) := by
  induction hn : stop - (v + len - 1) generalizing len with
  | zero =>
    intro r
    have hr : r = (v + len, len) := by
      rw [show r = scan p stop max a (v + len - 1) len from rfl, scan, if_neg (by omega)]
      rw [show v + len - 1 + 1 = v + len by omega]
    rw [hr]
    exact ⟨rfl, hpos, hle, hsame, hwithin, Or.inl (by omega)⟩
  | succ n ih =>
    intro r
    have hr : r = scan p stop max a (v + len - 1) len := rfl
    rw [scan, show v + len - 1 + 1 = v + len by omega] at hr
    split at hr
    · next hmore =>
      rw [hr, show v + len = v + (len + 1) - 1 by omega]
      refine ih (by omega) (by omega) (fun k hk => ?_) (Or.inr (by omega)) (by omega)
      by_cases hlast : k = len
      · rw [hlast]
        exact hmore.2.2.symm
      · exact hsame k (by omega)
    · next hend =>
      rw [hr]
      refine ⟨rfl, hpos, hle, hsame, hwithin, ?_⟩
      by_cases hstop : stop ≤ v + len
      · exact Or.inl hstop
      · by_cases hmax : len = max
        · exact Or.inr (Or.inl hmax)
        · refine Or.inr (Or.inr fun heq => hend ⟨by omega, by omega, heq.symm⟩)

/-- A scan finds a run, and stops at its end. -/
theorem scan_isRun (hmax : 0 < max) (v : Nat) :
    IsRun p stop max v (scan p stop max (p v) v 1).2 ∧
      (scan p stop max (p v) v 1).1 = v + (scan p stop max (p v) v 1).2 := by
  have hone : ∀ k < 1, p (v + k) = p v := by
    intro k hk
    rw [Nat.lt_one_iff.mp hk, Nat.add_zero]
  obtain ⟨hend, hpos, hle, hsame, hwithin, hmaximal⟩ :=
    scan_spec p stop max Nat.one_pos hmax hone (Or.inl rfl)
  exact ⟨⟨hpos, hle, hsame, hwithin, hmaximal⟩, hend⟩

end OpenXbox.Lib.RunLength
