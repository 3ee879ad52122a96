import OpenXbox.Lib.Bits
import OpenXbox.Lib.MulDiv
import OpenXbox.Ohci.FrameTimer

/-!
# The remaining part of a frame

HcFmRemaining counts the bit times of a frame down from the interval in HcFmInterval. A bit time is
taken to be 83 nanoseconds, so a frame of a millisecond has 12048 of them.
-/

namespace OpenXbox.Ohci.FrameRemaining

open OpenXbox.Lib OpenXbox.Lib.Bits OpenXbox.Lib.Run OpenXbox.Ohci.Memory OpenXbox.Ohci.FrameTimer
open OpenXbox.Ohci.Frame (OHCI_FMR_FRT)

def OHCI_FMR_FR : Word := 0x3FFF

/-- FI, in bit times. -/
def frameInterval (hc : OHCI) : Nat := (hc.hcFmInterval &&& OHCI_FMI_FI).toNat

/-- The nanoseconds since the start of the frame. -/
def elapsed (hc : OHCI) (now : Time) : Nat := (now - hc.sofTime).toNat

/-- FR of a value of HcFmRemaining. -/
def frameRemaining (value : Word) : Nat := (value &&& OHCI_FMR_FR).toNat

def reservedBits (value : Word) : Word := value &&& ~~~(OHCI_FMR_FRT ||| OHCI_FMR_FR)

/-- A read gives a value with FR in its bounds and nothing in the reserved bits; FR is 0 when the time
of a frame is over, and at no earlier time less than it is now. -/
def CountsDown (hc : OHCI) (now : Time) : Prop :=
  ∃ value, hc.getFrameRemaining now = .ok value ∧ frameRemaining value ≤ frameInterval hc ∧
    reservedBits value = 0 ∧ (usbFrameTime.toNat ≤ elapsed hc now → frameRemaining value = 0) ∧
      ∀ earlier before, elapsed hc earlier ≤ elapsed hc now →
        hc.getFrameRemaining earlier = .ok before → frameRemaining value ≤ frameRemaining before

/-- The bit times that have passed are no more than the interval has. -/
def WithinInterval (hc : OHCI) (now : Time) : Prop := elapsed hc now / 83 ≤ frameInterval hc

section Read

variable {hc : OHCI} {now : Time} {value : Word}

theorem muldiv64_eq_mulDiv (a : BitVec 64) (b c : Word) : muldiv64 a b c = MulDiv.mulDiv a b c := rfl

theorem muldiv64_one (b : Word) : muldiv64 1 b ticksPerUsbTick = BitVec.ofNat 64 (b.toNat / 83) := by
  have hb := b.isLt
  have hdivisor : ticksPerUsbTick.toNat = 83 := rfl
  apply BitVec.eq_of_toNat_eq
  rw [muldiv64_eq_mulDiv, MulDiv.toNat_mulDiv 1 b (by decide), BitVec.toNat_ofNat, hdivisor,
    show (1 : BitVec 64).toNat = 1 from rfl, Nat.one_mul]

/-- The field that is computed, in sixteen bits. -/
def frameField (hc : OHCI) (now : Time) : BitVec 16 :=
  ((hc.hcFmInterval &&& OHCI_FMI_FI).setWidth 64 -
    muldiv64 1 ((now - hc.sofTime).setWidth 32) ticksPerUsbTick).setWidth 16

theorem frameInterval_lt (hc : OHCI) : frameInterval hc < 2 ^ 14 := by
  have hle : (hc.hcFmInterval &&& OHCI_FMI_FI).toNat ≤ OHCI_FMI_FI.toNat := by
    rw [BitVec.toNat_and]
    exact Nat.and_le_right
  exact Nat.lt_of_le_of_lt hle (by decide)

theorem toNat_frameField (h : elapsed hc now < usbFrameTime.toNat) :
    (frameField hc now).toNat =
      (frameInterval hc + (2 ^ 16 - elapsed hc now / 83)) % 2 ^ 16 := by
  have hframe : usbFrameTime.toNat = 1000000 := rfl
  have hticks : ((now - hc.sofTime).setWidth 32).toNat = elapsed hc now := by
    rw [BitVec.toNat_setWidth]
    exact Nat.mod_eq_of_lt (by rw [← elapsed]; omega)
  have hinterval := frameInterval_lt hc
  rw [frameField, muldiv64_one, hticks, BitVec.toNat_setWidth, BitVec.toNat_sub, BitVec.toNat_ofNat,
    BitVec.toNat_setWidth, ← frameInterval]
  omega

/-- Outside the operational state, and when the time of the frame is over, there is the toggle only. -/
theorem getFrameRemaining_over (h : hc.state ≠ Operational ∨
      hc.eofTimer.isSome = true ∧ usbFrameTime.toNat ≤ elapsed hc now) :
    hc.getFrameRemaining now = .ok (hc.hcFmRemaining &&& OHCI_FMR_FRT) := by
  unfold OHCI.getFrameRemaining
  split
  · rfl
  · next hop =>
    obtain ⟨hsome, hover⟩ := h.resolve_left hop
    obtain ⟨timer, htimer⟩ := Option.isSome_iff_exists.mp hsome
    rw [htimer]
    exact if_pos (BitVec.le_def.mpr hover)

theorem getFrameRemaining_counting (hop : hc.state = Operational) (hsome : hc.eofTimer.isSome = true)
    (hin : elapsed hc now < usbFrameTime.toNat) :
    hc.getFrameRemaining now =
      .ok ((hc.hcFmRemaining &&& OHCI_FMR_FRT) ||| (frameField hc now).setWidth 32) := by
  obtain ⟨timer, htimer⟩ := Option.isSome_iff_exists.mp hsome
  unfold OHCI.getFrameRemaining
  rw [if_neg (not_not.mpr hop), htimer]
  exact if_neg fun hover => Nat.not_le.mpr hin (BitVec.le_def.mp hover)

theorem getFrameRemaining_null (hop : hc.state = Operational) (hnone : hc.eofTimer = none) :
    hc.getFrameRemaining now = .error .nullTimer := by
  unfold OHCI.getFrameRemaining
  rw [if_neg (not_not.mpr hop), hnone]

/-! ## Fields of the values -/

theorem toggle_remaining (remaining : Word) : frameRemaining (remaining &&& OHCI_FMR_FRT) = 0 := by
  have hzero : remaining &&& OHCI_FMR_FRT &&& OHCI_FMR_FR = 0#32 := by
    rw [BitVec.and_assoc, show OHCI_FMR_FRT &&& OHCI_FMR_FR = 0#32 by decide, BitVec.and_zero]
  rw [frameRemaining, hzero]
  rfl

theorem toggle_reserved (remaining : Word) : reservedBits (remaining &&& OHCI_FMR_FRT) = 0 := by
  rw [reservedBits, BitVec.and_assoc,
    show OHCI_FMR_FRT &&& ~~~(OHCI_FMR_FRT ||| OHCI_FMR_FR) = 0#32 by decide, BitVec.and_zero]
  rfl

section Field

variable (remaining : Word) (frame : BitVec 16)

/-- Outside the toggle there is the field. -/
theorem counting_and {m : Word} (hm : OHCI_FMR_FRT &&& m = 0#32) :
    ((remaining &&& OHCI_FMR_FRT) ||| frame.setWidth 32) &&& m = frame.setWidth 32 &&& m := by
  rw [BitVec.or_comm]
  apply or_and_of_apart
  rw [BitVec.and_assoc, hm, BitVec.and_zero]

theorem counting_remaining :
    frameRemaining ((remaining &&& OHCI_FMR_FRT) ||| frame.setWidth 32) = frame.toNat % 2 ^ 14 := by
  have hframe := frame.isLt
  rw [frameRemaining, counting_and remaining frame (by decide), show OHCI_FMR_FR = lowMask 14 by decide,
    toNat_and_lowMask _ (by decide), BitVec.toNat_setWidth]
  omega

/-- The reserved bits are clear when the field has fourteen bits, and not when its top one is set. -/
theorem counting_reserved_of_lt (h : frame.toNat < 2 ^ 14) :
    reservedBits ((remaining &&& OHCI_FMR_FRT) ||| frame.setWidth 32) = 0 := by
  have hwidth : frame.setWidth 32 &&& OHCI_FMR_FR = frame.setWidth 32 := by
    apply BitVec.eq_of_toNat_eq
    rw [show OHCI_FMR_FR = lowMask 14 by decide, toNat_and_lowMask _ (by decide), BitVec.toNat_setWidth]
    omega
  rw [reservedBits, counting_and remaining frame (by decide), ← hwidth, BitVec.and_assoc,
    show OHCI_FMR_FR &&& ~~~(OHCI_FMR_FRT ||| OHCI_FMR_FR) = 0#32 by decide, BitVec.and_zero]
  rfl

theorem counting_reserved_of_ge (h : 2 ^ 15 ≤ frame.toNat) :
    reservedBits ((remaining &&& OHCI_FMR_FRT) ||| frame.setWidth 32) ≠ 0 := by
  intro hzero
  have hmsb : frame.getLsbD 15 = true := by
    rw [← BitVec.msb_eq_getLsbD_last, BitVec.msb_eq_decide]
    exact decide_eq_true h
  rw [reservedBits, counting_and remaining frame (by decide)] at hzero
  have hbit := congrArg (fun x => x.getLsbD 15) hzero
  simp [OHCI_FMR_FRT, OHCI_FMR_FR] at hbit
  have hlow : frame.getLsbD 15 = false := hbit
  rw [hmsb] at hlow
  cases hlow

end Field

/-! ## The count -/

theorem toNat_frameField_within (h : elapsed hc now < usbFrameTime.toNat) (hwithin : WithinInterval hc now) :
    (frameField hc now).toNat = frameInterval hc - elapsed hc now / 83 := by
  have hinterval := frameInterval_lt hc
  rw [WithinInterval] at hwithin
  rw [toNat_frameField h]
  omega

/-- Past the interval the count goes on below zero. -/
theorem le_frameField_of_past (h : elapsed hc now < usbFrameTime.toNat) (hpast : ¬ WithinInterval hc now) :
    2 ^ 15 ≤ (frameField hc now).toNat := by
  have hframe : usbFrameTime.toNat = 1000000 := rfl
  rw [WithinInterval] at hpast
  rw [toNat_frameField h]
  omega

/-- What a read gives while the frame lasts. -/
theorem read_within (hop : hc.state = Operational) (hsome : hc.eofTimer.isSome = true)
    (hin : elapsed hc now < usbFrameTime.toNat) (hwithin : WithinInterval hc now) :
    ∃ value, hc.getFrameRemaining now = .ok value ∧ reservedBits value = 0 ∧
      frameRemaining value = frameInterval hc - elapsed hc now / 83 := by
  have hinterval := frameInterval_lt hc
  have hfield := toNat_frameField_within hin hwithin
  refine ⟨_, getFrameRemaining_counting hop hsome hin, counting_reserved_of_lt _ _ (by omega), ?_⟩
  rw [counting_remaining, hfield]
  omega

/-- HcFmRemaining counts down as long as the bit times that have passed are in the interval, and again
when the time of the frame is over. -/
theorem countsDown_iff (hc : OHCI) (now : Time) :
    CountsDown hc now ↔ hc.state ≠ Operational ∨ hc.eofTimer.isSome = true ∧
      (usbFrameTime.toNat ≤ elapsed hc now ∨ WithinInterval hc now) := by
  by_cases hover : hc.state ≠ Operational ∨
      hc.eofTimer.isSome = true ∧ usbFrameTime.toNat ≤ elapsed hc now
  · refine iff_of_true ⟨_, getFrameRemaining_over hover, ?_, toggle_reserved _, ?_, ?_⟩ ?_
    · rw [toggle_remaining]
      exact Nat.zero_le _
    · exact fun _ => toggle_remaining _
    · intro earlier before _ _
      rw [toggle_remaining]
      exact Nat.zero_le _
    · exact hover.imp_right fun h => ⟨h.1, .inl h.2⟩
  have hop : hc.state = Operational := not_not.mp fun h => hover (.inl h)
  by_cases hsome : hc.eofTimer.isSome = true
  · have hin : elapsed hc now < usbFrameTime.toNat := Nat.lt_of_not_le fun h => hover (.inr ⟨hsome, h⟩)
    by_cases hwithin : WithinInterval hc now
    · obtain ⟨value, hread, hreserved, hvalue⟩ := read_within hop hsome hin hwithin
      refine iff_of_true ⟨value, hread, ?_, hreserved, fun h => absurd h (Nat.not_le.mpr hin), ?_⟩
        (.inr ⟨hsome, .inr hwithin⟩)
      · rw [hvalue]
        exact Nat.sub_le _ _
      · intro earlier before hle hbefore
        have hdiv : elapsed hc earlier / 83 ≤ elapsed hc now / 83 := Nat.div_le_div_right hle
        obtain ⟨value', hread', -, hvalue'⟩ :=
          read_within hop hsome (Nat.lt_of_le_of_lt hle hin) (hdiv.trans hwithin)
        rw [hread'] at hbefore
        cases hbefore
        omega
    · refine iff_of_false (fun h => ?_) (not_or.mpr ⟨not_not.mpr hop, fun h => ?_⟩)
      · obtain ⟨value, hread, -, hreserved, -⟩ := h
        rw [getFrameRemaining_counting hop hsome hin] at hread
        cases hread
        exact counting_reserved_of_ge _ _ (le_frameField_of_past hin hwithin) hreserved
      · exact h.2.elim (fun hover => Nat.not_le.mpr hin hover) hwithin
  · refine iff_of_false (fun h => ?_) (not_or.mpr ⟨not_not.mpr hop, fun h => hsome h.1⟩)
    obtain ⟨value, hread, -⟩ := h
    rw [getFrameRemaining_null hop (Option.not_isSome_iff_eq_none.mp hsome)] at hread
    cases hread

/-- It does so at all times of a frame exactly when the interval has all bit times of a frame. -/
theorem countsDown_always_iff (hop : hc.state = Operational) (hsome : hc.eofTimer.isSome = true) :
    (∀ now, CountsDown hc now) ↔ 12048 ≤ frameInterval hc := by
  have hframe : usbFrameTime.toNat = 1000000 := rfl
  constructor
  · intro h
    have hlast : elapsed hc (hc.sofTime + 999999) = 999999 := by
      rw [elapsed, BitVec.add_comm, BitVec.add_sub_cancel]
      rfl
    obtain hno | ⟨-, hover | hwithin⟩ := (countsDown_iff hc (hc.sofTime + 999999)).mp (h _)
    · exact absurd hop hno
    · omega
    · rw [WithinInterval, hlast] at hwithin
      omega
  · intro h now
    refine (countsDown_iff hc now).mpr (.inr ⟨hsome, ?_⟩)
    by_cases hover : usbFrameTime.toNat ≤ elapsed hc now
    · exact .inl hover
    · rw [WithinInterval]
      omega

end Read

/-! ## Runs -/

/-- A read of HcFmRemaining goes well. -/
def ReadsWell (hc : OHCI) : Op → Prop
  | .fmRemaining now => CountsDown hc now
  | _ => True

/-- A read comes outside the operational state, or with a timer at a time that the interval covers or
after the end of the frame. -/
def ReadsInTime (hc : OHCI) : Op → Prop
  | .fmRemaining now => hc.state ≠ Operational ∨ hc.eofTimer.isSome = true ∧
      (usbFrameTime.toNat ≤ elapsed hc now ∨ WithinInterval hc now)
  | _ => True

/-- Along a run, whatever intervals the guest programs, every read of HcFmRemaining goes well exactly
when every one of them comes in time. -/
theorem reads_well_iff (sofTime : Time) (ops : List Op) :
    Guarded step ReadsWell (OHCI.init sofTime) ops ↔ Guarded step ReadsInTime (OHCI.init sofTime) ops := by
  have hagree (hc : OHCI) (op : Op) (_ : True) : ReadsWell hc op ↔ ReadsInTime hc op := by
    cases op with
    | fmRemaining now => exact countsDown_iff hc now
    | _ => exact Iff.rfl
  exact guarded_congr hagree (fun _ _ _ _ _ _ => trivial) trivial

/-- With the interval that the reset sets, a read just before the end of the first frame. -/
theorem default_interval_wraps :
    ¬ ∀ (sofTime : Time) (ops : List Op), Guarded step ReadsWell (OHCI.init sofTime) ops := by
  intro h
  obtain ⟨-, hrest⟩ := h 0 [.control 0x80 0, .fmRemaining 999999]
  obtain ⟨hread, -⟩ := hrest _ rfl
  obtain hno | ⟨-, hover | hwithin⟩ := (countsDown_iff _ 999999).mp hread
  · exact hno rfl
  · exact absurd hover (by decide)
  · exact absurd hwithin (show ¬ 999999 / 83 ≤ 11999 by decide)

end OpenXbox.Ohci.FrameRemaining
