import OpenXbox.Lib.MulDiv
import OpenXbox.Nv2a.Division

/-!
# The clock of PTIMER

The clock is the time of the host scaled by two products. It is computed in 64 bits and
returned in 32, before it is split over two registers that have room for 56.
-/

namespace OpenXbox.Nv2a.PtimerClock

open OpenXbox.Lib.MulDiv OpenXbox.Nv2a.Memory OpenXbox.Nv2a.Registers OpenXbox.Nv2a.Mmio
  OpenXbox.Nv2a.Division

/-! ## The scaled time -/

/-- The setting scales by a fraction: neither product leaves 32 bits, and the divisor is not zero.
That `CLOCKS_PER_SEC` is not zero is for the C library. -/
structure Scales (n : NV2ADevice) : Prop where
  product : n.pramdac.coreClockFreq.toNat * n.ptimer.numerator.toNat < 2 ^ 32
  divisor : n.clocksPerSec.toNat * n.ptimer.denominator.toNat < 2 ^ 32
  clocksPerSec : n.clocksPerSec ≠ 0
  denominator : n.ptimer.denominator ≠ 0

/-- The time of the host in ticks of the clock. -/
def scaled (n : NV2ADevice) (nanoseconds : BitVec 64) : Nat :=
  nanoseconds.toNat * (n.pramdac.coreClockFreq.toNat * n.ptimer.numerator.toNat) /
    (n.clocksPerSec.toNat * n.ptimer.denominator.toNat)

/-- `TIME_1` and `TIME_0`, read at one instant, as one number. -/
def readTime (n : NV2ADevice) (nanoseconds : BitVec 64) : Except Fault Nat := do
  let (time1, n) ← ptimerRead n nanoseconds NV_PTIMER_TIME_1 0 .four
  let (time0, _) ← ptimerRead n nanoseconds NV_PTIMER_TIME_0 0 .four
  return time1.toNat * 2 ^ 32 + time0.toNat

section Clock

variable {n : NV2ADevice}

theorem muldiv64_ok {c : Word} (hc : c ≠ 0) (a : BitVec 64) (b : Word) :
    muldiv64 a b c = .ok (mulDiv a b c) := by
  have hwide : c.setWidth 64 ≠ 0 := fun h => hc (BitVec.eq_of_toNat_eq (by
    have hnat := congrArg BitVec.toNat h
    rwa [toNat_wide] at hnat))
  unfold muldiv64
  simp only [divide_of_ne_zero hwide, remainder_of_ne_zero hwide]
  rfl

/-- The clock keeps 32 bits of the scaled time. -/
theorem ptimerGetClock_ok (h : Scales n) (nanoseconds : BitVec 64) :
    ptimerGetClock n nanoseconds = .ok (BitVec.ofNat 32 (scaled n nanoseconds)) := by
  have hproduct : ((n.pramdac.coreClockFreq * n.ptimer.numerator.setWidth 64).setWidth 32).toNat =
      n.pramdac.coreClockFreq.toNat * n.ptimer.numerator.toNat := by
    rw [BitVec.toNat_setWidth, BitVec.toNat_mul, toNat_wide, Nat.mod_mod_of_dvd _ (by decide),
      Nat.mod_eq_of_lt h.product]
  have hdivisor : (n.clocksPerSec * n.ptimer.denominator).toNat =
      n.clocksPerSec.toNat * n.ptimer.denominator.toNat := by
    rw [BitVec.toNat_mul, Nat.mod_eq_of_lt h.divisor]
  have hne : n.clocksPerSec * n.ptimer.denominator ≠ 0 := by
    have hpos := Nat.mul_pos (toNat_pos h.clocksPerSec) (toNat_pos h.denominator)
    intro hzero
    rw [hzero] at hdivisor
    exact absurd hdivisor.symm hpos.ne'
  unfold ptimerGetClock
  rw [muldiv64_ok hne]
  refine congrArg Except.ok (BitVec.eq_of_toNat_eq ?_)
  rw [BitVec.toNat_setWidth, toNat_mulDiv _ _ hne, hproduct, hdivisor, BitVec.toNat_ofNat,
    Nat.mod_mod_of_dvd _ (by decide), scaled]

/-- The two registers put together are the 32 bits of the clock again. -/
theorem split_clock (clock : Word) :
    ((clock >>> 27) &&& 0x1fffffff).toNat * 2 ^ 32 + ((clock &&& 0x7ffffff) <<< 5).toNat =
      clock.toNat * 2 ^ 5 := by
  have hlt := clock.isLt
  rw [BitVec.toNat_and, BitVec.toNat_ushiftRight, BitVec.toNat_shiftLeft, BitVec.toNat_and,
    show (0x1fffffff : Word).toNat = 2 ^ 29 - 1 from rfl,
      show (0x7ffffff : Word).toNat = 2 ^ 27 - 1 from rfl,
    Nat.and_two_pow_sub_one_eq_mod, Nat.and_two_pow_sub_one_eq_mod, Nat.shiftRight_eq_div_pow,
    Nat.shiftLeft_eq]
  omega

theorem readTime_ok (h : Scales n) (nanoseconds : BitVec 64) :
    readTime n nanoseconds = .ok (scaled n nanoseconds % 2 ^ 32 * 2 ^ 5) := by
  have hsplit := split_clock (BitVec.ofNat 32 (scaled n nanoseconds))
  rw [BitVec.toNat_ofNat] at hsplit
  rw [← hsplit]
  have htime1 : ptimerRead n nanoseconds NV_PTIMER_TIME_1 0 .four =
      (ptimerGetClock n nanoseconds).map fun clock : Word => ((clock >>> 27) &&& 0x1fffffff, n) := rfl
  have htime0 : ptimerRead n nanoseconds NV_PTIMER_TIME_0 0 .four =
      (ptimerGetClock n nanoseconds).map fun clock : Word => ((clock &&& 0x7ffffff) <<< 5, n) := rfl
  rw [ptimerGetClock_ok h] at htime1 htime0
  rw [readTime, htime1]
  show (do
    let (time0, _) ← ptimerRead n nanoseconds NV_PTIMER_TIME_0 0 .four
    return _) = _
  rw [htime0]
  rfl

theorem scaled_mono {t u : BitVec 64} (h : t ≤ u) : scaled n t ≤ scaled n u :=
  Nat.div_le_div_right (Nat.mul_le_mul_right _ (BitVec.le_def.mp h))

end Clock

/-! ## Readings -/

/-- What is expected of readings at some times of the host: each is the clock of 56 bits, and they
do not decrease from an earlier time to a later one while the clock does not start over. -/
structure Counts (n : NV2ADevice) (times : List (BitVec 64)) : Prop where
  value : ∀ t ∈ times, readTime n t = .ok (scaled n t % 2 ^ 56 * 2 ^ 5)
  monotone : times.Pairwise fun t u =>
    t ≤ u → scaled n t / 2 ^ 56 = scaled n u / 2 ^ 56 →
      ∀ r s, readTime n t = .ok r → readTime n u = .ok s → r ≤ s

section Readings

variable {n : NV2ADevice} {times : List (BitVec 64)}

theorem value_iff (h : Scales n) (t : BitVec 64) :
    readTime n t = .ok (scaled n t % 2 ^ 56 * 2 ^ 5) ↔ scaled n t % 2 ^ 56 < 2 ^ 32 := by
  rw [readTime_ok h, Except.ok.injEq]
  omega

/-- A later reading is not less exactly when the 32 bits of the clock are not. -/
theorem reading_le_iff (h : Scales n) {t u : BitVec 64} :
    (∀ r s, readTime n t = .ok r → readTime n u = .ok s → r ≤ s) ↔
      scaled n t % 2 ^ 32 ≤ scaled n u % 2 ^ 32 := by
  rw [readTime_ok h, readTime_ok h]
  constructor
  · intro hle
    have := hle _ _ rfl rfl
    omega
  · rintro hle r s hr hs
    cases hr
    cases hs
    omega

/-- The readings are right exactly when every clock that is read has its upper bits clear. -/
theorem counts_iff (h : Scales n) : Counts n times ↔ ∀ t ∈ times, scaled n t % 2 ^ 56 < 2 ^ 32 := by
  constructor
  · intro hc t ht
    exact (value_iff h t).mp (hc.value t ht)
  · intro hsmall
    refine ⟨fun t ht => (value_iff h t).mpr (hsmall t ht), ?_⟩
    refine List.Pairwise.imp_of_mem ?_ (List.pairwise_of_forall (R :=
      fun _ _ => True) fun _ _ => trivial)
    intro t u ht hu _ hle hperiod
    rw [reading_le_iff h]
    have hmono := scaled_mono (n := n) hle
    have htsmall := hsmall t ht
    have husmall := hsmall u hu
    omega

end Readings

/-- The timer after a reset, with a scale of one to one. -/
def unitTimer : NV2ADevice :=
  { NV2ADevice.reset (fun _ => 0) 0x4000000 1000000 0 ⟨0, 0, 0, fun _ _ => 0, fun _ => 0, 0⟩ with
    ptimer := { PTIMER.init with numerator := 1, denominator := 1 } }

theorem scales_unitTimer : Scales unitTimer := ⟨by decide, by decide, by decide, by decide⟩

theorem counts_unitTimer : Counts unitTimer [1000, 22000000] := by
  refine (counts_iff scales_unitTimer).mpr fun t ht => ?_
  simp only [List.mem_cons, List.not_mem_nil, or_false] at ht
  obtain rfl | rfl := ht
  · show 189000 % 2 ^ 56 < 2 ^ 32
    decide
  · show 4158000000 % 2 ^ 56 < 2 ^ 32
    decide

/-- The clock has 32 bits after 22.7 ms: what is read then is less than what was read before. -/
theorem not_counts_unitTimer :
    ¬ Counts unitTimer [22724694, 22724695] ∧
      readTime unitTimer 22724694 = .ok 137438949312 ∧ readTime unitTimer 22724695 = .ok 1888 :=
  ⟨fun h => absurd (h.value 22724695 (by decide)) (by decide), by decide, by decide⟩

end OpenXbox.Nv2a.PtimerClock
