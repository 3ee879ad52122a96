import OpenXbox.Ata.Ports
import OpenXbox.Lib.Mealy

/-!
# The secondary channel behaves as the primary one

The same accesses are made to the ports of either channel. Writes and control ports reach the same
register of both. A read of a command port of the secondary channel reaches no register.
-/

namespace OpenXbox.Ata.Symmetry

open OpenXbox.Lib OpenXbox.Ata.Device OpenXbox.Ata.Channel OpenXbox.Ata.Ports

/-- Channels in the same state, but for the number of the interrupt. -/
structure Same (c d : ATAChannel) : Prop where
  devs : d.devs = c.devs
  regs : d.regs = c.regs
  interrupt : d.interrupt = c.interrupt
  levels : d.irqs.map Prod.snd = c.irqs.map Prod.snd

section Channels

variable {c d : ATAChannel}

theorem Same.selectedDeviceIndex (same : Same c d) : d.selectedDeviceIndex = c.selectedDeviceIndex := by
  rw [ATAChannel.selectedDeviceIndex, same.regs]
  rfl

theorem Same.selectedDevice (same : Same c d) : d.selectedDevice = c.selectedDevice := by
  rw [ATAChannel.selectedDevice, same.selectedDeviceIndex, same.devs]
  rfl

theorem Same.areInterruptsEnabled (same : Same c d) :
    d.areInterruptsEnabled = c.areInterruptsEnabled := by
  rw [ATAChannel.areInterruptsEnabled, same.regs]
  rfl

theorem same_setRegs (same : Same c d) (regs : ATARegisters) : Same (c.setRegs regs) (d.setRegs regs) :=
  ⟨same.devs, rfl, same.interrupt, same.levels⟩

theorem same_setDevice (same : Same c d) (i : Fin 2) (dev : ATADevice) :
    Same (c.setDevice i dev) (d.setDevice i dev) :=
  ⟨congrArg (fun devs : Fin 2 → ATADevice => Function.update devs i dev) same.devs, same.regs,
    same.interrupt, same.levels⟩

theorem same_setInterrupt (same : Same c d) (asserted : Bool) :
    Same (setInterrupt c asserted) (setInterrupt d asserted) := by
  rw [setInterrupt, setInterrupt, same.interrupt, same.areInterruptsEnabled]
  split
  · refine ⟨same.devs, same.regs, rfl, ?_⟩
    simp only [List.map_append, same.levels, List.map_cons, List.map_nil]
  · exact same

/-- A read gives the same value and leaves the channels the same. -/
def SameRead (r s : Word × ATAChannel) : Prop := r.1 = s.1 ∧ Same r.2 s.2

theorem same_readData (same : Same c d) (size : Nat) : SameRead (readData c size) (readData d size) := by
  rw [readData, readData, same.selectedDeviceIndex, same.devs]
  refine ⟨rfl, ?_⟩
  have hdev := same_setDevice same c.selectedDeviceIndex ((c.devs c.selectedDeviceIndex).readBuffer size).2
  dsimp only
  rw [hdev.regs]
  exact same_setRegs hdev _

theorem same_readStatus (same : Same c d) (value : Word) :
    SameRead (readStatus c value) (readStatus d value) := by
  have hlow := same_setInterrupt same false
  refine ⟨?_, hlow⟩
  rw [readStatus, readStatus, hlow.regs]

theorem same_readRegister (same : Same c d) (reg : Byte) (value : Word) (size : Nat) :
    SameRead (readRegister c reg value size) (readRegister d reg value size) := by
  rw [readRegister, readRegister, same.regs]
  split_ifs
  · exact same_readData same size
  iterate 6 exact ⟨rfl, same⟩
  exact same_readStatus same value

/-- The same for a port access and what it answers. -/
def SameAccess (r s : ATAChannel × Response) : Prop := Same r.1 s.1 ∧ r.2 = s.2

theorem SameRead.response {r s : Word × ATAChannel} (h : SameRead r s) :
    SameAccess (r.2, ⟨some r.1, true, false⟩) (s.2, ⟨some s.1, true, false⟩) :=
  ⟨h.2, by rw [h.1]⟩

theorem same_readCommandPort (same : Same c d) (reg : Byte) (value : Word) (size : Nat) :
    SameAccess (readCommandPort c reg value size) (readCommandPort d reg value size) := by
  rw [readCommandPort, readCommandPort, same.selectedDevice]
  split_ifs
  · exact ⟨same, rfl⟩
  · exact ⟨same, rfl⟩
  · exact (same_readRegister same reg value size).response

theorem same_writeCommand (same : Same c d) (cmd : Byte) :
    Same (writeCommand c cmd) (writeCommand d cmd) := by
  rw [writeCommand, writeCommand, same.regs, same.devs, same.selectedDeviceIndex]
  cases kCmdProtocols cmd with
  | none => exact same_setRegs same _
  | some protocol =>
    have hdone (dev : ATADevice) (regs : ATARegisters) :=
      same_setRegs (same_setDevice same c.selectedDeviceIndex dev) regs
    dsimp only
    rw [(hdone _ _).areInterruptsEnabled]
    split
    · exact same_setInterrupt (hdone _ _) true
    · exact hdone _ _

theorem same_writeRegister (same : Same c d) (reg : Byte) (value : Word) :
    Same (writeRegister c reg value) (writeRegister d reg value) := by
  rw [writeRegister, writeRegister, same.regs]
  split_ifs
  · exact same
  iterate 6 exact same_setRegs same _
  exact same_writeCommand same _

theorem same_writeCommandPort (same : Same c d) (reg : Byte) (value : Word) :
    SameAccess (writeCommandPort c reg value) (writeCommandPort d reg value) := by
  rw [writeCommandPort, writeCommandPort, same.regs]
  split_ifs
  · exact ⟨same, rfl⟩
  · exact ⟨same, rfl⟩
  · exact ⟨same_writeRegister same reg value, rfl⟩

theorem same_writeControlPort (same : Same c d) (value : Word) :
    SameAccess (writeControlPort c value) (writeControlPort d value) := by
  refine ⟨?_, rfl⟩
  rw [writeControlPort, writeControlPort]
  split
  · rw [(same_setInterrupt same false).regs]
    exact same_setRegs (same_setInterrupt same false) _
  · rw [same.regs]
    exact same_setRegs same _

theorem same_access (same : Same c d) (x : Access) : SameAccess (access c x) (access d x) := by
  cases x with
  | readCommand reg value size => exact same_readCommandPort same reg value size
  | writeCommand reg value size => exact same_writeCommandPort same reg value
  | readControl value size => exact (same_readStatus same value).response
  | writeControl value size => exact same_writeControlPort same value

end Channels

section Ports

/-- The port is one of the primary channel. -/
def OnPrimary (port : Word) : Prop :=
  kPrimaryCommandBasePort ≤ port ∧ port ≤ kPrimaryCommandLastPort ∨ port = kPrimaryControlPort

/-- The port of the secondary channel that a port of the primary one corresponds to. -/
def toSecondaryPort (port : Word) : Word :=
  port - (kPrimaryCommandBasePort - kSecondaryCommandBasePort)

def toSecondary : PortAccess → PortAccess
  | .read port value size => .read (toSecondaryPort port) value size
  | .write port value size => .write (toSecondaryPort port) value size

def ReadsCommandPort : PortAccess → Prop
  | .read port _ _ => port ≠ kPrimaryControlPort
  | .write .. => False

instance : DecidablePred ReadsCommandPort
  | .read port _ _ => inferInstanceAs (Decidable (port ≠ kPrimaryControlPort))
  | .write .. => inferInstanceAs (Decidable False)

/-- What an access to a port of the primary channel is on the channel. -/
def toAccess : PortAccess → Access
  | .read port value size =>
    if port = kPrimaryControlPort then .readControl value size
    else .readCommand (toRegister port kPrimaryCommandBasePort) value size
  | .write port value size =>
    if port = kPrimaryControlPort then .writeControl value size
    else .writeCommand (toRegister port kPrimaryCommandBasePort) value size

/-- A command port of the primary channel and its counterpart are in the right ranges and name the
same register, unless the base port of the other channel is subtracted. -/
structure CommandPort (port : Word) : Prop where
  ne_control : port ≠ kPrimaryControlPort
  not_primary : ¬ (toSecondaryPort port ≥ kPrimaryCommandBasePort ∧
    toSecondaryPort port ≤ kPrimaryCommandLastPort)
  not_primaryControl : toSecondaryPort port ≠ kPrimaryControlPort
  secondary : toSecondaryPort port ≥ kSecondaryCommandBasePort ∧
    toSecondaryPort port ≤ kSecondaryCommandLastPort
  register_eq : toRegister (toSecondaryPort port) kSecondaryCommandBasePort =
    toRegister port kPrimaryCommandBasePort
  register_le : ¬ toRegister port kPrimaryCommandBasePort > RegCommand
  register_out : toRegister (toSecondaryPort port) kPrimaryCommandBasePort > RegCommand

theorem commandPort {port : Word} (low : kPrimaryCommandBasePort ≤ port)
    (high : port ≤ kPrimaryCommandLastPort) : CommandPort port := by
  unfold kPrimaryCommandBasePort at low
  unfold kPrimaryCommandLastPort at high
  have hdiff : toSecondaryPort port = port - 0x80 := rfl
  constructor
  · unfold kPrimaryControlPort
    bv_omega
  · rw [hdiff]
    unfold kPrimaryCommandBasePort
    bv_omega
  · rw [hdiff]
    unfold kPrimaryControlPort
    bv_omega
  · rw [hdiff]
    unfold kSecondaryCommandBasePort kSecondaryCommandLastPort
    bv_omega
  · rw [hdiff, toRegister, toRegister]
    unfold kSecondaryCommandBasePort kPrimaryCommandBasePort
    bv_omega
  · rw [toRegister]
    unfold RegCommand kPrimaryCommandBasePort
    bv_omega
  · rw [hdiff, toRegister]
    unfold RegCommand kPrimaryCommandBasePort
    bv_omega

theorem controlPort :
    ¬ (kPrimaryControlPort ≥ kPrimaryCommandBasePort ∧ kPrimaryControlPort ≤ kPrimaryCommandLastPort) ∧
      toSecondaryPort kPrimaryControlPort = kSecondaryControlPort ∧
      ¬ (kSecondaryControlPort ≥ kPrimaryCommandBasePort ∧
        kSecondaryControlPort ≤ kPrimaryCommandLastPort) ∧
      kSecondaryControlPort ≠ kPrimaryControlPort ∧
      ¬ (kSecondaryControlPort ≥ kSecondaryCommandBasePort ∧
        kSecondaryControlPort ≤ kSecondaryCommandLastPort) := by
  decide

theorem io_primary (a : ATA) {x : PortAccess} (on : OnPrimary x.port) :
    io a x = a.onChannel .primary (access (a.channels .primary) (toAccess x)) := by
  cases x with
  | read port value size =>
    obtain ⟨low, high⟩ | hcontrol := on
    · have hne : port ≠ kPrimaryControlPort := (commandPort low high).ne_control
      rw [io, ioRead, if_pos ⟨low, high⟩, toAccess, if_neg hne]
      rfl
    · obtain rfl : port = kPrimaryControlPort := hcontrol
      rw [io, ioRead, if_neg controlPort.1, if_pos rfl, toAccess, if_pos rfl]
      rfl
  | write port value size =>
    obtain ⟨low, high⟩ | hcontrol := on
    · have hne : port ≠ kPrimaryControlPort := (commandPort low high).ne_control
      rw [io, ioWrite, if_pos ⟨low, high⟩, toAccess, if_neg hne]
      rfl
    · obtain rfl : port = kPrimaryControlPort := hcontrol
      rw [io, ioWrite, if_neg controlPort.1, if_pos rfl, toAccess, if_pos rfl]
      rfl

/-- Accesses to the secondary channel that reach it. -/
theorem io_secondary (b : ATA) {x : PortAccess} (on : OnPrimary x.port) (reaches : ¬ ReadsCommandPort x) :
    io b (toSecondary x) = b.onChannel .secondary (access (b.channels .secondary) (toAccess x)) := by
  obtain ⟨hlow, hcontrol, hprimary, hother, hcommand⟩ := controlPort
  cases x with
  | read port value size =>
    obtain rfl : port = kPrimaryControlPort := not_not.mp reaches
    rw [toSecondary, hcontrol, io, ioRead, if_neg hprimary, if_neg hother, if_neg hcommand, if_pos rfl,
      toAccess, if_pos rfl]
    rfl
  | write port value size =>
    obtain ⟨low, high⟩ | hport := on
    · have h : CommandPort port := commandPort low high
      rw [toSecondary, io, ioWrite, if_neg h.not_primary, if_neg h.not_primaryControl, if_pos h.secondary,
        h.register_eq, toAccess, if_neg h.ne_control]
      rfl
    · obtain rfl : port = kPrimaryControlPort := hport
      rw [toSecondary, hcontrol, io, ioWrite, if_neg hprimary, if_neg hother, if_neg hcommand, if_pos rfl,
        toAccess, if_pos rfl]
      rfl

/-- A command port of the secondary channel is read as a register that does not exist. -/
theorem io_secondary_of_readsCommandPort (b : ATA) {x : PortAccess} (on : OnPrimary x.port)
    (reads : ReadsCommandPort x) : (io b (toSecondary x)).2 = ⟨some 0, false, true⟩ := by
  cases x with
  | read port value size =>
    obtain ⟨low, high⟩ | hport := on
    · have h : CommandPort port := commandPort low high
      rw [toSecondary, io, ioRead, if_neg h.not_primary, if_neg h.not_primaryControl, if_pos h.secondary,
        readCommandPort, if_pos h.register_out]
      rfl
    · exact absurd hport reads
  | write port value size => exact reads.elim

theorem readCommandPort_handled (ch : ATAChannel) {reg : Byte} (valid : ¬ reg > RegCommand) (value : Word)
    (size : Nat) : (readCommandPort ch reg value size).2.handled = true := by
  rw [readCommandPort, if_neg valid]
  split <;> rfl

/-- The primary channel answers the read that the secondary one does not. -/
theorem io_primary_of_readsCommandPort (a : ATA) {x : PortAccess} (on : OnPrimary x.port)
    (reads : ReadsCommandPort x) : (io a x).2.handled = true := by
  rw [io_primary a on]
  cases x with
  | read port value size =>
    obtain ⟨low, high⟩ | hport := on
    · have h : CommandPort port := commandPort low high
      rw [toAccess, if_neg h.ne_control]
      exact readCommandPort_handled _ h.register_le value size
    · exact absurd hport reads
  | write port value size => exact reads.elim

end Ports

section Runs

/-- An access to the primary channel of one object and the same to the secondary one of another. -/
theorem same_io {a b : ATA} (same : Same (a.channels .primary) (b.channels .secondary)) {x : PortAccess}
    (on : OnPrimary x.port) (reaches : ¬ ReadsCommandPort x) :
    Same ((io a x).1.channels .primary) ((io b (toSecondary x)).1.channels .secondary) ∧
      (io a x).2 = (io b (toSecondary x)).2 := by
  rw [io_primary a on, io_secondary b on reaches]
  have hboth := same_access same (toAccess x)
  refine ⟨?_, hboth.2⟩
  rw [ATA.onChannel_self, ATA.onChannel_self]
  exact hboth.1

theorem io_ne_of_readsCommandPort (a b : ATA) {x : PortAccess} (on : OnPrimary x.port)
    (reads : ReadsCommandPort x) : (io a x).2 ≠ (io b (toSecondary x)).2 := by
  intro heq
  have hanswered := io_primary_of_readsCommandPort a on reads
  rw [heq, io_secondary_of_readsCommandPort b on reads] at hanswered
  exact Bool.false_ne_true hanswered

/-- Neither access touches the other channel. -/
theorem io_primary_other (a : ATA) {x : PortAccess} (on : OnPrimary x.port) :
    (io a x).1.channels .secondary = a.channels .secondary := by
  rw [io_primary a on]
  exact a.onChannel_of_ne (by decide) _

theorem io_secondary_other (b : ATA) {x : PortAccess} (on : OnPrimary x.port)
    (reaches : ¬ ReadsCommandPort x) :
    (io b (toSecondary x)).1.channels .primary = b.channels .primary := by
  rw [io_secondary b on reaches]
  exact b.onChannel_of_ne (by decide) _

/-- A sequence of accesses to the primary channel and the same to the secondary one: the same
answers, the same state in the end, and nothing done to the other channel. -/
def Symmetric (a b : ATA) (xs : List PortAccess) : Prop :=
  let p := Mealy.run io a xs
  let q := Mealy.run io b (xs.map toSecondary)
  p.2 = q.2 ∧ Same (p.1.channels .primary) (q.1.channels .secondary) ∧
    p.1.channels .secondary = a.channels .secondary ∧ q.1.channels .primary = b.channels .primary

/-- Along a run of reads and writes the channels stay the same and out of each other's way. -/
structure Along (a b a' b' : ATA) : Prop where
  same : Same (a'.channels .primary) (b'.channels .secondary)
  secondary : a'.channels .secondary = a.channels .secondary
  primary : b'.channels .primary = b.channels .primary

theorem along_io {a b a' b' : ATA} (h : Along a b a' b') {x : PortAccess} (on : OnPrimary x.port)
    (reaches : ¬ ReadsCommandPort x) :
    Along a b (io a' x).1 (io b' (toSecondary x)).1 ∧ (io a' x).2 = (io b' (toSecondary x)).2 := by
  obtain ⟨hsame, hout⟩ := same_io h.same on reaches
  exact ⟨⟨hsame, (io_primary_other a' on).trans h.secondary,
    (io_secondary_other b' on reaches).trans h.primary⟩, hout⟩

/-- The channels are symmetric on exactly the sequences that do not read a command port. -/
theorem symmetric_iff (a b : ATA) (same : Same (a.channels .primary) (b.channels .secondary))
    (xs : List PortAccess) (on : ∀ x ∈ xs, OnPrimary x.port) :
    Symmetric a b xs ↔ ∀ x ∈ xs, ¬ ReadsCommandPort x := by
  have hstart : Along a b a b := ⟨same, rfl, rfl⟩
  have hstep (a' b' : ATA) (x : PortAccess) (on : OnPrimary x.port) (reaches : ¬ ReadsCommandPort x)
      (h : Along a b a' b') := along_io h on reaches
  constructor
  · intro h
    refine (Mealy.run_outputs_eq_iff hstep (fun a' b' x on reads _ => ?_) hstart on).mp h.1
    exact io_ne_of_readsCommandPort a' b' on (not_not.mp reads)
  · intro reaches
    obtain ⟨hend, hout⟩ := Mealy.run_lockstep hstep hstart on reaches
    exact ⟨hout, hend.same, hend.secondary, hend.primary⟩

/-- Two fresh channels, written to and asked for their status through the control port. -/
theorem identify_symmetric :
    let fresh : ATA := .initial fun _ _ => nullATADeviceDriver
    Symmetric fresh fresh
      [.write 0x1F6 0x10 1, .write 0x1F7 0xEC 1, .read 0x3F6 0 1, .write 0x3F6 0x02 1] :=
  (symmetric_iff _ _ ⟨rfl, rfl, rfl, rfl⟩ _ (by simp +decide [OnPrimary, PortAccess.port])).mpr
    (by decide)

/-- The sector count that was written is read back on the primary channel only. -/
theorem sectorCount_read_differs :
    let fresh : ATA := .initial fun _ _ => nullATADeviceDriver
    ¬ Symmetric fresh fresh [.write 0x1F2 0x42 1, .read 0x1F2 0 1] := by
  intro fresh h
  exact absurd h.1 (by decide)

end Runs

end OpenXbox.Ata.Symmetry
