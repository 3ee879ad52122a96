import OpenXbox.Ata.Channel
import OpenXbox.Lib.Mealy

/-!
# The interrupt line of a channel

Asserting and negating `INTRQ` both do nothing while interrupts are disabled. The handler still has
the level that the channel holds, because the line is lowered before it is disabled.
-/

namespace OpenXbox.Ata.InterruptLine

open OpenXbox.Lib OpenXbox.Lib.Flags OpenXbox.Ata.Device OpenXbox.Ata.Channel

/-- The level the handler was last given; before that the line is low. -/
def lastLevel (irqs : List (Byte × Bool)) : Bool := (irqs.getLast?.map Prod.snd).getD false

/-- The handler has the level of the channel, a disabled line is low, and no command is under way. -/
structure Settled (ch : ATAChannel) : Prop where
  level : lastLevel ch.irqs = ch.interrupt
  masked : ch.areInterruptsEnabled = false → ch.interrupt = false
  idle : has ch.regs.status StBusy = false

/-- A read of the status or of the alternate status. -/
def ReadsStatus : Access → Prop
  | .readCommand reg _ _ => reg = RegStatus
  | .readControl _ _ => True
  | _ => False

theorem settled_initial (drivers : Fin 2 → ATADeviceDriver) (irqNum : Byte) :
    Settled (.initial drivers irqNum) :=
  ⟨rfl, fun _ => rfl, (by decide : has StReady StBusy = false)⟩

@[simp] theorem setInterrupt_regs (ch : ATAChannel) (asserted : Bool) :
    (setInterrupt ch asserted).regs = ch.regs := by
  rw [setInterrupt]
  split <;> rfl

theorem setInterrupt_interrupt {ch : ATAChannel} (asserted : Bool) (enabled : ch.areInterruptsEnabled) :
    (setInterrupt ch asserted).interrupt = asserted := by
  rw [setInterrupt]
  split
  · rfl
  · next hno => exact (not_not.mp fun hne => hno ⟨hne, enabled⟩).symm

theorem setInterrupt_of_masked {ch : ATAChannel} (asserted : Bool)
    (masked : ch.areInterruptsEnabled = false) : setInterrupt ch asserted = ch :=
  if_neg fun h => Bool.false_ne_true (masked.symm.trans h.2)

theorem settled_setInterrupt {ch : ATAChannel} (settled : Settled ch) (asserted : Bool) :
    Settled (setInterrupt ch asserted) := by
  rw [setInterrupt]
  split
  · next h =>
    refine ⟨?_, fun hmasked => ?_, settled.idle⟩
    · simp [lastLevel]
    · exact absurd (hmasked.symm.trans h.2) Bool.false_ne_true
  · exact settled

/-- Lowering the line always leaves it low: it may be disabled, but then it is low already. -/
theorem interrupt_lowered {ch : ATAChannel} (settled : Settled ch) :
    (setInterrupt ch false).interrupt = false := by
  cases henabled : ch.areInterruptsEnabled with
  | true => exact setInterrupt_interrupt false henabled
  | false =>
    rw [setInterrupt_of_masked false henabled]
    exact settled.masked henabled

theorem settled_setRegs {ch : ATAChannel} (settled : Settled ch) {regs : ATARegisters}
    (control : regs.control = ch.regs.control) (idle : has regs.status StBusy = false) :
    Settled (ch.setRegs regs) := by
  refine ⟨settled.level, fun hmasked => settled.masked ?_, idle⟩
  rw [ATAChannel.areInterruptsEnabled, ← control]
  exact hmasked

theorem settled_setDevice {ch : ATAChannel} (settled : Settled ch) (i : Fin 2) (dev : ATADevice) :
    Settled (ch.setDevice i dev) :=
  ⟨settled.level, settled.masked, settled.idle⟩

theorem settled_readData {ch : ATAChannel} (settled : Settled ch) (size : Nat) :
    Settled (readData ch size).2 := by
  refine settled_setRegs (settled_setDevice settled _ _) rfl ?_
  exact (has_clear_of_apart (by decide)).trans settled.idle

theorem settled_readRegister {ch : ATAChannel} (settled : Settled ch) (reg : Byte) (value : Word)
    (size : Nat) : Settled (readRegister ch reg value size).2 := by
  rw [readRegister]
  split_ifs
  · exact settled_readData settled size
  iterate 6 exact settled
  exact settled_setInterrupt settled false

theorem settled_readCommandPort {ch : ATAChannel} (settled : Settled ch) (reg : Byte) (value : Word)
    (size : Nat) : Settled (readCommandPort ch reg value size).1 := by
  rw [readCommandPort]
  split_ifs
  · exact settled
  · exact settled
  · exact settled_readRegister settled reg value size

theorem completeStatus_idle (protocol : CommandProtocol) (succeeded : Bool) (status : Byte) :
    has (completeStatus protocol succeeded status) StBusy = false :=
  has_clear_of_covered (by decide)

@[simp] theorem runCommand_control (dev : ATADevice) (regs : ATARegisters) (cmd : Byte) :
    (runCommand dev regs cmd).regs.control = regs.control := by
  rw [runCommand]
  split_ifs
  · exact setFeatures_control dev regs
  · exact identifyDevice_control dev regs
  · rfl

/-- Every command that is carried out ends with `BSY` clear, every other only sets `ERR`. -/
theorem settled_writeCommand {ch : ATAChannel} (settled : Settled ch) (cmd : Byte) :
    Settled (writeCommand ch cmd) := by
  rw [writeCommand]
  cases kCmdProtocols cmd with
  | none =>
    refine settled_setRegs settled rfl ?_
    exact (has_or_of_apart (by decide)).trans settled.idle
  | some protocol =>
    have hcontrol := runCommand_control (ch.devs ch.selectedDeviceIndex)
      (ch.regs.setStatus (ch.regs.status ||| StBusy)) cmd
    dsimp only
    generalize runCommand (ch.devs ch.selectedDeviceIndex)
      (ch.regs.setStatus (ch.regs.status ||| StBusy)) cmd = r at hcontrol ⊢
    have hdone : Settled ((ch.setDevice ch.selectedDeviceIndex r.dev).setRegs
        (r.regs.setStatus (completeStatus protocol r.succeeded r.regs.status))) :=
      settled_setRegs (settled_setDevice settled _ _) hcontrol (completeStatus_idle ..)
    split
    · exact settled_setInterrupt hdone true
    · exact hdone

theorem settled_writeRegister {ch : ATAChannel} (settled : Settled ch) (reg : Byte) (value : Word) :
    Settled (writeRegister ch reg value) := by
  rw [writeRegister]
  split_ifs
  · exact settled
  iterate 6 exact settled_setRegs settled rfl settled.idle
  exact settled_writeCommand settled _

theorem settled_writeCommandPort {ch : ATAChannel} (settled : Settled ch) (reg : Byte) (value : Word) :
    Settled (writeCommandPort ch reg value).1 := by
  rw [writeCommandPort]
  split_ifs
  · exact settled
  · exact settled
  · exact settled_writeRegister settled reg value

/-- `nIEN` of the value is the bit of the register that will be written. -/
theorem has_nIEN (value : Word) :
    has (value.setWidth 8) DevCtlNegateInterruptEnable =
      has value (DevCtlNegateInterruptEnable.setWidth 32) := by
  rw [show DevCtlNegateInterruptEnable = BitVec.twoPow 8 1 by decide,
    show (BitVec.twoPow 8 1).setWidth 32 = BitVec.twoPow 32 1 by decide, has_twoPow, has_twoPow,
    BitVec.getLsbD_setWidth]
  simp

theorem settled_writeControlPort {ch : ATAChannel} (settled : Settled ch) (value : Word) :
    Settled (writeControlPort ch value).1 := by
  rw [writeControlPort]
  split
  · next hmask =>
    have hlow := interrupt_lowered settled
    exact ⟨(settled_setInterrupt settled false).level, fun _ => hlow,
      (settled_setInterrupt settled false).idle⟩
  · next hmask =>
    refine ⟨settled.level, fun hmasked => ?_, settled.idle⟩
    rw [ATAChannel.areInterruptsEnabled, Bool.not_eq_false', ATAChannel.setRegs, has_nIEN] at hmasked
    exact absurd hmasked hmask

theorem settled_access {ch : ATAChannel} (settled : Settled ch) (a : Access) :
    Settled (access ch a).1 := by
  cases a with
  | readCommand reg value size => exact settled_readCommandPort settled reg value size
  | writeCommand reg value size => exact settled_writeCommandPort settled reg value
  | readControl value size => exact settled_setInterrupt settled false
  | writeControl value size => exact settled_writeControlPort settled value

/-- Both ways to read the status go through the lowering of the line. -/
theorem interrupt_of_readsStatus {ch : ATAChannel} (settled : Settled ch) {a : Access}
    (hreads : ReadsStatus a) : (access ch a).1.interrupt = false := by
  cases a with
  | readCommand reg value size =>
    obtain rfl : reg = RegStatus := hreads
    have hlow : (access ch (.readCommand RegStatus value size)).1 = setInterrupt ch false := by
      rw [access, readCommandPort, if_neg (by decide), if_neg (fun h => h.2 rfl)]
      rfl
    rw [hlow]
    exact interrupt_lowered settled
  | readControl value size => exact interrupt_lowered settled
  | writeCommand reg value size => exact hreads.elim
  | writeControl value size => exact hreads.elim

/-- The line after any sequence of port accesses: the handler has its level, it is low while it is
disabled and after every read of the status that was made while it was enabled. -/
theorem line_follows_channel (drivers : Fin 2 → ATADeviceDriver) (irqNum : Byte)
    (accesses : List Access) :
    let ch := (Mealy.run access (.initial drivers irqNum) accesses).1
    lastLevel ch.irqs = ch.interrupt ∧
      (has ch.regs.control DevCtlNegateInterruptEnable → ch.interrupt = false) ∧
      has ch.regs.status StBusy = false ∧
      ∀ a : Access, ReadsStatus a → ch.areInterruptsEnabled → (access ch a).1.interrupt = false := by
  intro ch
  have settled : Settled ch :=
    Mealy.run_invariant (I := Settled) (fun _ a settled => settled_access settled a)
      (settled_initial drivers irqNum) accesses
  refine ⟨settled.level, fun hmasked => settled.masked ?_, settled.idle, fun a hreads _ => ?_⟩
  · rw [ATAChannel.areInterruptsEnabled, hmasked, Bool.not_true]
  · exact interrupt_of_readsStatus settled hreads

end OpenXbox.Ata.InterruptLine
