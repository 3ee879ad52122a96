import OpenXbox.Smbus.Bus
import OpenXbox.Lib.Bits

/-!
# The interrupt of the SMBus controller

What a write to the status register and a transaction may do to the interrupt line and to
the status. Transactions keep to it; a write to the status register does not when it writes
no 1 to the flags, or a 1 to a flag that is not set.
-/

namespace OpenXbox.Smbus.Interrupt

open OpenXbox.Smbus.Devices OpenXbox.Smbus.Bus OpenXbox.Lib.Run OpenXbox.Lib.Bits

/-- The value that an access writes to a register. -/
def written (reg : Nat) : Op → Option Byte
  | .write barIndex port value _ =>
    if barIndex = 1 ∧ register port = reg then some (value.setWidth 8) else none
  | _ => none

/-- The flags that raise an interrupt. -/
def enabledStatus (s : SMBus) : Byte :=
  if has s.control GE_HCYC_EN then s.status &&& GS_CLEAR_STS else 0

/-- The access starts a transaction with the interrupt on, which leaves a flag set. -/
def Signals (op : Op) (s' : SMBus) : Prop :=
  ∃ value ∈ written SMB_GLOBAL_ENABLE op,
    has value GE_HOST_STC ∧ has value GE_HCYC_EN ∧ has s'.status GS_CLEAR_STS

/-- The access writes a 1 to every flag that is set. -/
def AcknowledgesAll (s : SMBus) (op : Op) : Prop :=
  ∃ value ∈ written SMB_GLOBAL_STATUS op, s.status &&& GS_CLEAR_STS &&& ~~~value = 0

/-- The interrupt protocol in one step. -/
structure Lawful (s : SMBus) (op : Op) (s' : SMBus) : Prop where
  status_never_raises : ∀ value ∈ written SMB_GLOBAL_STATUS op, s.line = false → s'.line = false
  status_never_sets : ∀ value ∈ written SMB_GLOBAL_STATUS op, s'.status &&& ~~~s.status = 0
  low_once_clear : ∀ value ∈ written SMB_GLOBAL_STATUS op, enabledStatus s' = 0 → s'.line = false
  raised_only : s.line = false → s'.line = true → Signals op s'
  raises : Signals op s' → s'.line = true
  held : s.line = true → s'.line = false → AcknowledgesAll s op

/-- The writes to the status register that keep to the protocol: one that writes a 1 to a flag
writes it to flags that are set, when the interrupt is on, and to all of them, when the line is
high; any other finds the line low and the cycle complete. -/
def StatusWriteFits (s : SMBus) (value : Byte) : Prop :=
  if has value GS_CLEAR_STS then
    (has s.control GE_HCYC_EN → value &&& GS_CLEAR_STS &&& ~~~s.status = 0) ∧
      (s.line = true → s.status &&& GS_CLEAR_STS &&& ~~~value = 0)
  else has s.status GS_HCYC_STS ∧ s.line = false

def Fits (s : SMBus) (op : Op) : Prop :=
  ∀ value ∈ written SMB_GLOBAL_STATUS op, StatusWriteFits s value

/-! ## Writes to the status register -/

theorem has_iff {x m : Byte} : has x m ↔ x &&& m ≠ 0 := bne_iff_ne

theorem has_eq_false {x m : Byte} : has x m = false ↔ x &&& m = 0 := by
  rw [← Bool.not_eq_true, has_iff, not_not]

/-- Flags written and not set, whether or not the flags are masked first. -/
theorem and_not_masked (x y m : Byte) : (x &&& m) &&& ~~~(y &&& m) = x &&& m &&& ~~~y := by
  apply BitVec.eq_of_getLsbD_eq
  intro i hi
  simp only [BitVec.getLsbD_and, BitVec.getLsbD_not, hi, decide_true, Bool.true_and]
  cases x.getLsbD i <;> cases y.getLsbD i <;> cases m.getLsbD i <;> rfl

section StatusWrite

variable {s : SMBus} {value : Byte}

/-- A write of a 1 clears every flag, and raises the line for a flag that is not set. -/
theorem writeStatus_flag (h : has value GS_CLEAR_STS) :
    (s.writeStatus value).status = 0 ∧
      ((s.writeStatus value).line = true ↔
        has s.control GE_HCYC_EN ∧ value &&& GS_CLEAR_STS &&& ~~~s.status ≠ 0) := by
  unfold SMBus.writeStatus
  dsimp only
  rw [if_pos h, and_not_masked]
  split
  · next hraise => simpa [SMBus.handle, bne_iff_ne] using hraise
  · next hlow => simpa [SMBus.handle, bne_iff_ne] using hlow

/-- Any other write completes the cycle and lowers the line. -/
theorem writeStatus_none (h : has value GS_CLEAR_STS = false) :
    (s.writeStatus value).status = GS_HCYC_STS ∧ (s.writeStatus value).line = false := by
  have hzero : value &&& GS_CLEAR_STS = 0#8 := has_eq_false.mp h
  unfold SMBus.writeStatus
  dsimp only
  rw [h, hzero, BitVec.zero_and]
  simp [SMBus.handle]

theorem has_hcyc : ∀ x : Byte, has x GS_HCYC_STS = x[4] := by decide

theorem hcyc_set_iff (x : Byte) : GS_HCYC_STS &&& ~~~x = 0 ↔ has x GS_HCYC_STS := by
  revert x
  decide

/-- A write to the status register keeps to the protocol. -/
structure StatusLawful (s : SMBus) (value : Byte) (s' : SMBus) : Prop where
  never_raises : s.line = false → s'.line = false
  never_sets : s'.status &&& ~~~s.status = 0
  low_once_clear : enabledStatus s' = 0 → s'.line = false
  held : s.line = true → s'.line = false → s.status &&& GS_CLEAR_STS &&& ~~~value = 0

theorem statusLawful_iff : StatusLawful s value (s.writeStatus value) ↔ StatusWriteFits s value := by
  unfold StatusWriteFits
  cases hflag : has value GS_CLEAR_STS with
  | true =>
    obtain ⟨hstatus, hline⟩ := writeStatus_flag (s := s) hflag
    have hclear : enabledStatus (s.writeStatus value) = 0 := by
      simp [enabledStatus, hstatus]
    rw [if_pos rfl]
    constructor
    · intro h
      have hlow : (s.writeStatus value).line = false := h.low_once_clear hclear
      refine ⟨fun hen => ?_, fun hhigh => h.held hhigh hlow⟩
      by_contra hnew
      exact absurd (hline.mpr ⟨hen, hnew⟩) (by simp [hlow])
    · intro h
      have hlow : (s.writeStatus value).line = false := by
        rw [← Bool.not_eq_true, hline]
        exact fun hr => hr.2 (h.1 hr.1)
      refine ⟨fun _ => hlow, ?_, fun _ => hlow, fun hhigh _ => h.2 hhigh⟩
      rw [hstatus]
      exact BitVec.zero_and
  | false =>
    obtain ⟨hstatus, hlow⟩ := writeStatus_none (s := s) hflag
    have hzero : value &&& GS_CLEAR_STS = 0 := has_eq_false.mp hflag
    rw [if_neg Bool.false_ne_true]
    constructor
    · intro h
      have hset : has s.status GS_HCYC_STS := (hcyc_set_iff _).mp (hstatus ▸ h.never_sets)
      refine ⟨hset, ?_⟩
      by_contra hhigh
      have hall := h.held (Bool.eq_true_of_not_eq_false hhigh) hlow
      -- The write has no 1 for the completed cycle, which is set.
      have hwritten : value[4] = false := by
        have hbit := congrArg (fun x => x.getLsbD 4) hzero
        simpa [GS_CLEAR_STS] using hbit
      have hbit := congrArg (fun x => x.getLsbD 4) hall
      rw [has_hcyc] at hset
      simp [hset, hwritten, GS_CLEAR_STS] at hbit
    · intro h
      refine ⟨fun _ => hlow, hstatus ▸ (hcyc_set_iff _).mpr h.1, fun _ => hlow, fun hhigh => ?_⟩
      exact absurd hhigh (by simp [h.2])

end StatusWrite

/-! ## Transactions -/

section Enable

variable (s : SMBus) (value : Byte)

theorem has_set {x bits m : Byte} (h : bits &&& m = bits) (hne : bits ≠ 0) : has (x ||| bits) m := by
  rw [has_iff]
  intro hz
  rw [BitVec.and_or_distrib_right, h] at hz
  exact hne (BitVec.or_eq_zero_iff.mp hz).2

/-- A transaction always leaves a flag set. -/
theorem executed_flag : has s.executeTransaction.result.status GS_CLEAR_STS := by
  obtain ⟨bits, t, hbits, -, heq⟩ := executeTransaction_spec s
  rw [heq]
  obtain rfl | rfl := hbits
  · exact has_set (by decide) (by decide)
  · exact has_set (by decide) (by decide)

theorem executed_line : s.executeTransaction.result.line = s.line := by
  obtain ⟨bits, t, -, hsame, heq⟩ := executeTransaction_spec s
  rw [heq]
  exact hsame.line

theorem writeControl_line : (s.writeControl value).line = s.line := by
  unfold SMBus.writeControl
  split
  all_goals rfl

/-- The line after a write to the enable register, with the status it leaves. -/
theorem writeEnable_line :
    ((s.writeEnable value).result.line = true ↔ s.line = true ∨
      has value GE_HOST_STC ∧ has value GE_HCYC_EN ∧
        has (s.writeEnable value).result.status GS_CLEAR_STS) := by
  unfold SMBus.writeEnable
  dsimp only
  split
  · next hstart =>
    have hflag := executed_flag (s.writeControl value)
    have hline := (executed_line (s.writeControl value)).trans (writeControl_line s value)
    simp only [result_bind, result_pure]
    generalize (s.writeControl value).executeTransaction.result = t at hflag hline ⊢
    rw [SMBus.signal]
    cases hen : has value GE_HCYC_EN with
    | true => simp [hflag, hstart, SMBus.handle]
    | false => simp [hline]
  · next hstart => simp [writeControl_line, hstart]

end Enable

/-! ## Every access -/

theorem line_of_quiet {s : SMBus} {barIndex : Nat} {port : Word} (value : Word) (size : Nat)
    (hs : ¬ (barIndex = 1 ∧ register port = SMB_GLOBAL_STATUS))
    (he : ¬ (barIndex = 1 ∧ register port = SMB_GLOBAL_ENABLE)) :
    (s.pciIOWrite barIndex port value size).result.line = s.line := by
  refine s.pciIOWrite_cases (motive := fun x => x.result.line = s.line) barIndex port value size
    (fun hbar hport => absurd ⟨hbar, hport⟩ hs) (fun hbar hport => absurd ⟨hbar, hport⟩ he) ?_ ?_
  · intro command address data0 data1
    rfl
  · intro data
    rfl

theorem read_line (s : SMBus) (barIndex : Nat) (port : Word) (size : Nat) :
    (s.pciIORead barIndex port size).result.2.line = s.line :=
  s.pciIORead_cases (motive := fun x => x.result.2.line = s.line) barIndex port size (fun _ => rfl) rfl

/-- An access that writes neither of the two registers and leaves the line as it is. -/
theorem lawful_of_quiet {s s' : SMBus} {op : Op} (hs : written SMB_GLOBAL_STATUS op = none)
    (he : written SMB_GLOBAL_ENABLE op = none) (hline : s'.line = s.line) : Lawful s op s' where
  status_never_raises := by simp [hs]
  status_never_sets := by simp [hs]
  low_once_clear := by simp [hs]
  raised_only hlow hhigh := absurd (hline.symm.trans hhigh) (by simp [hlow])
  raises h := by
    obtain ⟨value, hv, -⟩ := h
    cases he.symm.trans hv
  held hhigh hlow := absurd (hline.trans hhigh) (by simp [hlow])

theorem lawful_of_enable {s : SMBus} {op : Op} {value : Byte} (hs : written SMB_GLOBAL_STATUS op = none)
    (he : written SMB_GLOBAL_ENABLE op = some value) : Lawful s op (s.writeEnable value).result where
  status_never_raises := by simp [hs]
  status_never_sets := by simp [hs]
  low_once_clear := by simp [hs]
  raised_only hlow hhigh := by
    obtain h | h := (writeEnable_line s value).mp hhigh
    · exact absurd h (by simp [hlow])
    · exact ⟨value, he, h⟩
  raises h := by
    obtain ⟨v, hv, h⟩ := h
    cases he.symm.trans hv
    exact (writeEnable_line s value).mpr (.inr h)
  held hhigh hlow := absurd ((writeEnable_line s value).mpr (.inl hhigh)) (by simp [hlow])

theorem lawful_status_iff {s s' : SMBus} {op : Op} {value : Byte}
    (hs : written SMB_GLOBAL_STATUS op = some value) (he : written SMB_GLOBAL_ENABLE op = none) :
    Lawful s op s' ↔ StatusLawful s value s' := by
  constructor
  · intro h
    refine ⟨h.status_never_raises value hs, h.status_never_sets value hs, h.low_once_clear value hs,
      fun hhigh hlow => ?_⟩
    obtain ⟨v, hv, hall⟩ := h.held hhigh hlow
    cases hs.symm.trans hv
    exact hall
  · intro h
    refine ⟨?_, ?_, ?_, ?_, ?_, fun hhigh hlow => ⟨value, hs, h.held hhigh hlow⟩⟩
    · rintro v hv
      exact h.never_raises
    · rintro v hv
      exact h.never_sets
    · rintro v hv
      exact h.low_once_clear
    · intro hlow hhigh
      exact absurd hhigh (by simp [h.never_raises hlow])
    · rintro ⟨v, hv, -⟩
      cases he.symm.trans hv

/-- An access keeps to the protocol exactly when a write to the status register fits. -/
theorem lawful_iff (s : SMBus) (op : Op) : Lawful s op (op.apply s).result ↔ Fits s op := by
  unfold Fits
  cases op with
  | connect addr d =>
    have hline : (s.connectDevice addr d).line = s.line := by
      unfold SMBus.connectDevice
      dsimp only
      split
      all_goals rfl
    exact iff_of_true (lawful_of_quiet rfl rfl hline) (by simp [written])
  | reset => exact iff_of_true (lawful_of_quiet rfl rfl rfl) (by simp [written])
  | read barIndex port size =>
    exact iff_of_true (lawful_of_quiet rfl rfl (read_line s barIndex port size)) (by simp [written])
  | write barIndex port value size =>
    by_cases hs : barIndex = 1 ∧ register port = SMB_GLOBAL_STATUS
    · obtain ⟨rfl, hport⟩ := hs
      have hw : written SMB_GLOBAL_STATUS (.write 1 port value size) = some (value.setWidth 8) := by
        simp [written, hport]
      have he : written SMB_GLOBAL_ENABLE (.write 1 port value size) = none := by
        simp [written, hport, SMB_GLOBAL_STATUS, SMB_GLOBAL_ENABLE]
      rw [lawful_status_iff hw he, Op.apply, SMBus.pciIOWrite_status value size hport, result_pure,
        statusLawful_iff, hw]
      simp
    · have hw : written SMB_GLOBAL_STATUS (.write barIndex port value size) = none := if_neg hs
      refine iff_of_true ?_ (by simp [hw])
      by_cases he : barIndex = 1 ∧ register port = SMB_GLOBAL_ENABLE
      · have hen : written SMB_GLOBAL_ENABLE (.write barIndex port value size) =
            some (value.setWidth 8) := if_pos he
        obtain ⟨rfl, hport⟩ := he
        rw [Op.apply, SMBus.pciIOWrite_enable value size hport]
        exact lawful_of_enable hw hen
      · exact lawful_of_quiet hw (if_neg he) (line_of_quiet value size hs he)

/-- A run keeps to the protocol exactly when its writes to the status register fit. -/
theorem interrupt_protocol_iff (behind : Nat → Byte) (ops : List Op) :
    Guarded step (fun s op => Lawful s op (op.apply s).result) (.new behind) ops ↔
      Guarded step Fits (.new behind) ops :=
  guarded_congr (I := fun _ => True) (fun s op _ => lawful_iff s op)
    (fun _ _ _ _ _ _ => trivial) trivial

/-- A write of a 1 to a flag that is not set raises the line. -/
theorem status_write_raises :
    ¬ ∀ (behind : Nat → Byte) (ops : List Op),
      Guarded step (fun s op => Lawful s op (op.apply s).result) (.new behind) ops := by
  intro h
  have hrun := h (fun _ => 0) [.write 1 2 0x10 1, .write 1 0 0x10 1]
  have hlaw := (hrun.2 _ rfl).1
  exact absurd (hlaw.status_never_raises 0x10 rfl rfl) (by decide)

end OpenXbox.Smbus.Interrupt
