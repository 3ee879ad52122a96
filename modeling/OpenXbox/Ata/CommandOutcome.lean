import OpenXbox.Ata.InterruptLine
import OpenXbox.Lib.Run

/-!
# What a command reports

The status and the error register are shared by the devices and written by the channel, the
command and the subcommand. Some of these set bits and few clear them, so that what is reported
depends on the commands before. The commands that report what they should are told by the
registers they are given in.
-/

namespace OpenXbox.Ata.CommandOutcome

open OpenXbox.Lib OpenXbox.Lib.Run OpenXbox.Lib.Flags OpenXbox.Ata.Device OpenXbox.Ata.Channel
  OpenXbox.Ata.InterruptLine

/-! ## What every access keeps -/

/-- A device in its place, with its position inside the buffer. -/
structure SoundDevice (driver : ATADeviceDriver) (i : Fin 2) (dev : ATADevice) : Prop where
  index : dev.devIndex = i
  driver : dev.driver = driver
  inBuffer : dev.dataBufferPos ≤ dev.dataBuffer.length

structure Sound (drivers : Fin 2 → ATADeviceDriver) (ch : ATAChannel) : Prop where
  devs : ∀ i, SoundDevice (drivers i) i (ch.devs i)
  ready : has ch.regs.status StReady = true
  idle : has ch.regs.status StBusy = false

/-- A handler leaves the data of the device alone. -/
structure SameData (dev dev' : ATADevice) : Prop where
  index : dev'.devIndex = dev.devIndex
  driver : dev'.driver = dev.driver
  buffer : dev'.dataBuffer = dev.dataBuffer
  pos : dev'.dataBufferPos = dev.dataBufferPos

theorem SameData.refl (dev : ATADevice) : SameData dev dev := ⟨rfl, rfl, rfl, rfl⟩

theorem SameData.sound {driver : ATADeviceDriver} {i : Fin 2} {dev dev' : ATADevice}
    (same : SameData dev dev') (sound : SoundDevice driver i dev) : SoundDevice driver i dev' :=
  ⟨same.index.trans sound.index, same.driver.trans sound.driver, (by
    rw [same.pos, same.buffer]
    exact sound.inBuffer)⟩

/-! ## Subcommands -/

/-- The highest mode of the type in the Sector Count register; `none` for an unknown type. -/
def modeLimit (sectorCount : Byte) : Option Byte :=
  let type := (sectorCount >>> 3) &&& 0b11111
  if type = 0b00000 then some PIOTransferType.default.maximumMode
  else if type = 0b00001 then some PIOTransferType.flowCtl.maximumMode
  else if type = 0b00100 then some DMATransferType.multiWord.maximumMode
  else if type = 0b01000 then some DMATransferType.ultra.maximumMode
  else none

/-- What there is to say of the subcommand in the registers. -/
inductive Verdict
  | accepted
  | tooHigh
  | unsupported
  deriving DecidableEq

def verdict (regs : ATARegisters) : Verdict :=
  if regs.features = SFCmdSetTransferMode then
    match modeLimit regs.sectorCount with
    | none => .unsupported
    | some limit => if regs.sectorCount &&& 0b111 > limit then .tooHigh else .accepted
  else .unsupported

/-- The outcome that a subcommand has. -/
def Follows (dev : ATADevice) (regs : ATARegisters) (r : Outcome) : Verdict → Prop
  | .accepted => SameData dev r.dev ∧ r.succeeded = true ∧ r.regs = regs
  | .tooHigh => r = ⟨false, dev, { regs with error := regs.error ||| ErrAbort }⟩
  | .unsupported => r = ⟨false, dev, regs⟩

section Subcommands

variable (dev : ATADevice) (regs : ATARegisters)

theorem follows_setPIOTransferMode (type : PIOTransferType) (mode : Byte) :
    Follows dev regs (dev.setPIOTransferMode regs type mode)
      (if mode > type.maximumMode then .tooHigh else .accepted) := by
  rw [ATADevice.setPIOTransferMode]
  by_cases h : mode > type.maximumMode
  · rw [if_pos h, if_pos h]
    rfl
  · rw [if_neg h, if_neg h]
    exact ⟨⟨rfl, rfl, rfl, rfl⟩, rfl, rfl⟩

theorem follows_setDMATransferMode (type : DMATransferType) (mode : Byte) :
    Follows dev regs (dev.setDMATransferMode regs type mode)
      (if mode > type.maximumMode then .tooHigh else .accepted) := by
  rw [ATADevice.setDMATransferMode]
  by_cases h : mode > type.maximumMode
  · rw [if_pos h, if_pos h]
    rfl
  · rw [if_neg h, if_neg h]
    exact ⟨⟨rfl, rfl, rfl, rfl⟩, rfl, rfl⟩

theorem follows_doSetFeatures : Follows dev regs (dev.doSetFeatures regs) (verdict regs) := by
  rw [ATADevice.doSetFeatures, verdict]
  by_cases hfeature : regs.features = SFCmdSetTransferMode
  · rw [if_pos hfeature, if_pos hfeature, ATADevice.setTransferMode, modeLimit]
    split_ifs
    · exact follows_setPIOTransferMode ..
    · exact follows_setPIOTransferMode ..
    · exact follows_setDMATransferMode ..
    · exact follows_setDMATransferMode ..
    · rfl
  · rw [if_neg hfeature, if_neg hfeature]
    rfl

end Subcommands

/-! ## Commands -/

/-- The registers that a command is carried out with. -/
def busyRegs (ch : ATAChannel) : ATARegisters := ch.regs.setStatus (ch.regs.status ||| StBusy)

/-- The handler's result for the selected device. -/
def outcome (ch : ATAChannel) (cmd : Byte) : Outcome := runCommand ch.selectedDevice (busyRegs ch) cmd

/-- The command is supported and is carried out with success. -/
def Succeeds (ch : ATAChannel) (cmd : Byte) : Prop :=
  (kCmdProtocols cmd).isSome = true ∧ (outcome ch cmd).succeeded = true

/-- The command transfers data through the data register. -/
def IsPIO (cmd : Byte) : Prop :=
  kCmdProtocols cmd = some .pioDataIn ∨ kCmdProtocols cmd = some .pioDataOut

/-- What is expected after a command: `ERR` and the error register tell of its success or failure,
and `DRQ` of data to transfer. -/
structure Reports (ch : ATAChannel) (cmd : Byte) : Prop where
  success : Succeeds ch cmd →
    has (writeCommand ch cmd).regs.status StError = false ∧ (writeCommand ch cmd).regs.error = 0
  failure : ¬ Succeeds ch cmd →
    has (writeCommand ch cmd).regs.status StError = true ∧
      has (writeCommand ch cmd).regs.error ErrAbort = true
  drq : has (writeCommand ch cmd).regs.status StDataRequest = true ↔
    Succeeds ch cmd ∧ IsPIO cmd ∧
      0 < ((writeCommand ch cmd).devs ch.selectedDeviceIndex).getRemainingBufferLength

/-- The registers in which a command reports what it should. -/
def Fresh (regs : ATARegisters) (cmd : Byte) : Prop :=
  if cmd = CmdIdentifyDevice then regs.error = 0
  else if cmd = CmdSetFeatures then
    match verdict regs with
    | .accepted =>
      regs.error = 0 ∧ has regs.status StError = false ∧ has regs.status StDataRequest = false
    | .tooHigh => True
    | .unsupported => has regs.error ErrAbort = true
  else has regs.error ErrAbort = true ∧ has regs.status StDataRequest = false

@[simp] theorem setInterrupt_devs (ch : ATAChannel) (asserted : Bool) :
    (setInterrupt ch asserted).devs = ch.devs := by
  rw [setInterrupt]
  split <;> rfl

section Commands

variable {ch : ATAChannel} {cmd : Byte}

theorem writeCommand_of_none (h : kCmdProtocols cmd = none) :
    writeCommand ch cmd = ch.setRegs (ch.regs.setStatus (ch.regs.status ||| StError)) := by
  rw [writeCommand, h]

theorem writeCommand_regs {protocol : CommandProtocol} (h : kCmdProtocols cmd = some protocol) :
    (writeCommand ch cmd).regs =
      (outcome ch cmd).regs.setStatus
        (completeStatus protocol (outcome ch cmd).succeeded (outcome ch cmd).regs.status) := by
  rw [writeCommand, h]
  dsimp only
  split
  · rw [setInterrupt_regs]
    rfl
  · rfl

theorem writeCommand_devs {protocol : CommandProtocol} (h : kCmdProtocols cmd = some protocol) :
    (writeCommand ch cmd).devs =
      Function.update ch.devs ch.selectedDeviceIndex (outcome ch cmd).dev := by
  rw [writeCommand, h]
  dsimp only
  split
  · rw [setInterrupt_devs]
    rfl
  · rfl

/-- A flag apart from `BSY` after a command. -/
theorem has_completeStatus {m : Byte} (hm : StBusy &&& m = 0) (protocol : CommandProtocol)
    (succeeded : Bool) (status : Byte) :
    has (completeStatus protocol succeeded status) m =
      if succeeded then
        if protocol = .pioDataIn ∨ protocol = .pioDataOut then has (status ||| StDataRequest) m
        else has status m
      else has (status ||| StError) m := by
  rw [completeStatus, has_clear_of_apart hm]
  split_ifs <;> rfl

/-- A command that is not carried out: only `ERR` is set. -/
theorem reports_iff_of_other (hidentify : cmd ≠ CmdIdentifyDevice) (hfeatures : cmd ≠ CmdSetFeatures) :
    Reports ch cmd ↔ has ch.regs.error ErrAbort = true ∧ has ch.regs.status StDataRequest = false := by
  have houtcome : outcome ch cmd = ⟨false, ch.selectedDevice, busyRegs ch⟩ := by
    rw [outcome, runCommand, if_neg hfeatures, if_neg hidentify]
  have hfails : ¬ Succeeds ch cmd := fun h => by
    have hsucceeded := h.2
    rw [houtcome] at hsucceeded
    exact Bool.false_ne_true hsucceeded
  have herror : (writeCommand ch cmd).regs.error = ch.regs.error := by
    cases hp : kCmdProtocols cmd with
    | none =>
      rw [writeCommand_of_none hp]
      rfl
    | some protocol =>
      rw [writeCommand_regs hp, houtcome]
      rfl
  have hstatus (m : Byte) (hm : StBusy &&& m = 0) :
      has (writeCommand ch cmd).regs.status m = has (ch.regs.status ||| StError) m := by
    cases hp : kCmdProtocols cmd with
    | none =>
      rw [writeCommand_of_none hp]
      rfl
    | some protocol =>
      rw [writeCommand_regs hp, houtcome, ATARegisters.setStatus, has_completeStatus hm,
        if_neg Bool.false_ne_true,
        busyRegs, ATARegisters.setStatus, has_or, has_or_of_apart hm, ← has_or]
  have herr : has (writeCommand ch cmd).regs.status StError = true := by
    rw [hstatus _ (by decide)]
    exact has_or_of_has (by decide)
  have hdrq : has (writeCommand ch cmd).regs.status StDataRequest =
      has ch.regs.status StDataRequest := by
    rw [hstatus _ (by decide), has_or_of_apart (by decide)]
  constructor
  · intro h
    refine ⟨herror ▸ (h.failure hfails).2, ?_⟩
    rw [← hdrq, Bool.eq_false_iff]
    exact fun hset => hfails (h.drq.mp hset).1
  · rintro ⟨habort, hclear⟩
    refine ⟨fun h => absurd h hfails, fun _ => ⟨herr, herror ▸ habort⟩, ?_⟩
    rw [hdrq, hclear]
    exact iff_of_false Bool.false_ne_true fun h => hfails h.1

/-- The device with the data it identifies itself with in its buffer. -/
def identified (dev : ATADevice) : ATADevice :=
  { dev with dataBuffer := List.ofFn dev.driver.identifyDevice, dataBufferPos := 0 }

section Identified

-- by `dsimp only`: unification of the devices would compare their buffers
variable (dev : ATADevice)

@[simp] theorem identified_devIndex : (identified dev).devIndex = dev.devIndex :=
by dsimp only [identified]

@[simp] theorem identified_driver : (identified dev).driver = dev.driver := by dsimp only [identified]

@[simp] theorem identified_dataBuffer :
    (identified dev).dataBuffer = List.ofFn dev.driver.identifyDevice := by dsimp only [identified]

@[simp] theorem identified_dataBufferPos : (identified dev).dataBufferPos = 0 :=
by dsimp only [identified]

end Identified

/-- The registers that IDENTIFY DEVICE leaves. -/
def identifiedRegs (dev : ATADevice) (regs : ATARegisters) : ATARegisters :=
  (dev.select regs).setStatus ((regs.status ||| StReady) &&& ~~~(StBit5 ||| StDataRequest ||| StError))

theorem identifyDevice_eq (dev : ATADevice) {regs : ATARegisters}
    (ready : has regs.status StReady = true) :
    dev.identifyDevice regs = ⟨true, identified dev, identifiedRegs dev regs⟩ := by
  have hready : ¬ regs.status &&& StReady = 0 := has_iff.mp ready
  rw [ATADevice.identifyDevice, ATADevice.doIdentifyDevice, if_neg hready]
  rfl

theorem ready_busyRegs (ready : has ch.regs.status StReady = true) :
    has (busyRegs ch).status StReady = true :=
  (has_or_of_apart (by decide)).trans ready

theorem outcome_identify (ready : has ch.regs.status StReady = true) :
    outcome ch CmdIdentifyDevice =
      ⟨true, identified ch.selectedDevice, identifiedRegs ch.selectedDevice (busyRegs ch)⟩ := by
  rw [outcome, runCommand, if_neg (by decide), if_pos rfl, identifyDevice_eq _ (ready_busyRegs ready)]

theorem reports_iff_of_identify (ready : has ch.regs.status StReady = true) :
    Reports ch CmdIdentifyDevice ↔ ch.regs.error = 0 := by
  have houtcome := outcome_identify ready
  have hprotocol : kCmdProtocols CmdIdentifyDevice = some .pioDataIn := by decide
  have hsucceeds : Succeeds ch CmdIdentifyDevice := ⟨by decide, by rw [houtcome]⟩
  have herror : (writeCommand ch CmdIdentifyDevice).regs.error = ch.regs.error := by
    rw [writeCommand_regs hprotocol, houtcome]
    rfl
  have hstatus (m : Byte) (hm : StBusy &&& m = 0) :
      has (writeCommand ch CmdIdentifyDevice).regs.status m =
        has ((identifiedRegs ch.selectedDevice (busyRegs ch)).status ||| StDataRequest) m := by
    rw [writeCommand_regs hprotocol, houtcome, ATARegisters.setStatus, has_completeStatus hm, if_pos rfl,
      if_pos (Or.inl rfl)]
  have herr : has (writeCommand ch CmdIdentifyDevice).regs.status StError = false := by
    rw [hstatus _ (by decide), has_or_of_apart (by decide), identifiedRegs, ATARegisters.setStatus,
      has_clear_of_covered (by decide)]
  have hdrq : has (writeCommand ch CmdIdentifyDevice).regs.status StDataRequest = true := by
    rw [hstatus _ (by decide)]
    exact has_or_of_has (by decide)
  have hdata : 0 <
      ((writeCommand ch CmdIdentifyDevice).devs ch.selectedDeviceIndex).getRemainingBufferLength := by
    rw [writeCommand_devs hprotocol, Function.update_self, houtcome, ATADevice.getRemainingBufferLength,
      identified, List.length_ofFn, Nat.sub_zero]
    decide
  constructor
  · intro h
    rw [← herror]
    exact (h.success hsucceeds).2
  · intro h
    exact ⟨fun _ => ⟨herr, herror.trans h⟩, fun hno => absurd hsucceeds hno,
      iff_of_true hdrq ⟨hsucceeds, Or.inl hprotocol, hdata⟩⟩

/-- SET FEATURES transfers no data. -/
theorem not_isPIO_setFeatures : ¬ IsPIO CmdSetFeatures := by
  rintro (h | h) <;> exact absurd h (by decide)

theorem outcome_setFeatures : outcome ch CmdSetFeatures = ch.selectedDevice.setFeatures (busyRegs ch) :=
  rfl

theorem verdict_busyRegs : verdict (busyRegs ch) = verdict ch.regs := rfl

/-- The handler of SET FEATURES by the outcome of its subcommand. -/
theorem setFeatures_of_succeeded {dev : ATADevice} {regs : ATARegisters}
    (h : (dev.doSetFeatures regs).succeeded = true) : dev.setFeatures regs = dev.doSetFeatures regs := by
  rw [ATADevice.setFeatures]
  exact if_pos h

theorem setFeatures_of_failed {dev : ATADevice} {regs regs' : ATARegisters}
    (h : dev.doSetFeatures regs = ⟨false, dev, regs'⟩) :
    (dev.setFeatures regs).succeeded = false ∧ (dev.setFeatures regs).dev = dev ∧
      (dev.setFeatures regs).regs.error = regs'.error ∧
      has (dev.setFeatures regs).regs.status StDataRequest = false ∧
      has (dev.setFeatures regs).regs.status StReady = true := by
  rw [ATADevice.setFeatures, h]
  dsimp only
  rw [if_neg Bool.false_ne_true]
  have hready (status : Byte) : has ((status ||| StReady) &&& ~~~StDataRequest) StReady = true :=
    (has_clear_of_apart (by decide)).trans (has_or_of_has (by decide))
  refine ⟨rfl, rfl, ?_, ?_, ?_⟩
  · split <;> rfl
  · split
    · exact (has_or_of_apart (by decide)).trans (has_clear_of_covered (by decide))
    · exact has_clear_of_covered (by decide)
  · split
    · exact (has_or_of_apart (by decide)).trans (hready _)
    · exact hready _

theorem reports_iff_of_accepted (hverdict : verdict ch.regs = .accepted) :
    Reports ch CmdSetFeatures ↔
      ch.regs.error = 0 ∧ has ch.regs.status StError = false ∧
        has ch.regs.status StDataRequest = false := by
  have hfollows := follows_doSetFeatures ch.selectedDevice (busyRegs ch)
  rw [verdict_busyRegs, hverdict] at hfollows
  obtain ⟨-, hsucceeded, hregs⟩ := hfollows
  have houtcome : outcome ch CmdSetFeatures = ch.selectedDevice.doSetFeatures (busyRegs ch) :=
    setFeatures_of_succeeded hsucceeded
  have hprotocol : kCmdProtocols CmdSetFeatures = some .nonData := by decide
  have hsucceeds : Succeeds ch CmdSetFeatures := ⟨by decide, by rw [houtcome, hsucceeded]⟩
  have herror : (writeCommand ch CmdSetFeatures).regs.error = ch.regs.error := by
    rw [writeCommand_regs hprotocol, houtcome, hregs]
    rfl
  have hstatus (m : Byte) (hm : StBusy &&& m = 0) :
      has (writeCommand ch CmdSetFeatures).regs.status m = has ch.regs.status m := by
    rw [writeCommand_regs hprotocol, houtcome, ATARegisters.setStatus, has_completeStatus hm,
      if_pos hsucceeded,
      if_neg (by decide), hregs, busyRegs, ATARegisters.setStatus, has_or_of_apart hm]
  have herr := hstatus StError (by decide)
  have hdrq := hstatus StDataRequest (by decide)
  constructor
  · intro h
    obtain ⟨hnoError, hzero⟩ := h.success hsucceeds
    refine ⟨herror ▸ hzero, herr ▸ hnoError, ?_⟩
    rw [← hdrq, Bool.eq_false_iff]
    exact fun hset => not_isPIO_setFeatures (h.drq.mp hset).2.1
  · rintro ⟨hzero, hnoError, hclear⟩
    refine ⟨fun _ => ⟨herr.trans hnoError, herror.trans hzero⟩, fun hno => absurd hsucceeds hno, ?_⟩
    rw [hdrq, hclear]
    exact iff_of_false Bool.false_ne_true fun h => not_isPIO_setFeatures h.2.1

/-- A SET FEATURES that fails clears `DRQ` and sets `ERR`; whether `ABRT` is set is for the
subcommand. -/
theorem reports_iff_of_failed {regs' : ATARegisters}
    (h : ch.selectedDevice.doSetFeatures (busyRegs ch) = ⟨false, ch.selectedDevice, regs'⟩) :
    Reports ch CmdSetFeatures ↔ has regs'.error ErrAbort = true := by
  obtain ⟨hsucceeded, -, herror', hcleared, -⟩ := setFeatures_of_failed h
  rw [← outcome_setFeatures] at hsucceeded herror' hcleared
  have hprotocol : kCmdProtocols CmdSetFeatures = some .nonData := by decide
  have hfails : ¬ Succeeds ch CmdSetFeatures := fun hs => by
    rw [Succeeds, hsucceeded] at hs
    exact Bool.false_ne_true hs.2
  have herror : (writeCommand ch CmdSetFeatures).regs.error = regs'.error := by
    rw [writeCommand_regs hprotocol]
    exact herror'
  have hstatus (m : Byte) (hm : StBusy &&& m = 0) :
      has (writeCommand ch CmdSetFeatures).regs.status m =
        has ((outcome ch CmdSetFeatures).regs.status ||| StError) m := by
    rw [writeCommand_regs hprotocol, ATARegisters.setStatus, has_completeStatus hm, hsucceeded,
      if_neg Bool.false_ne_true]
  have herr : has (writeCommand ch CmdSetFeatures).regs.status StError = true := by
    rw [hstatus _ (by decide)]
    exact has_or_of_has (by decide)
  have hdrq : has (writeCommand ch CmdSetFeatures).regs.status StDataRequest = false := by
    rw [hstatus _ (by decide), has_or_of_apart (by decide), hcleared]
  constructor
  · intro hr
    exact herror ▸ (hr.failure hfails).2
  · intro habort
    refine ⟨fun hs => absurd hs hfails, fun _ => ⟨herr, herror ▸ habort⟩, ?_⟩
    rw [hdrq]
    exact iff_of_false Bool.false_ne_true fun hs => hfails hs.1

/-- A command reports what it should exactly in fresh registers. -/
theorem reports_iff (ready : has ch.regs.status StReady = true) (cmd : Byte) :
    Reports ch cmd ↔ Fresh ch.regs cmd := by
  rw [Fresh]
  by_cases hidentify : cmd = CmdIdentifyDevice
  · subst hidentify
    rw [if_pos rfl]
    exact reports_iff_of_identify ready
  · rw [if_neg hidentify]
    by_cases hfeatures : cmd = CmdSetFeatures
    · subst hfeatures
      rw [if_pos rfl]
      have hfollows := follows_doSetFeatures ch.selectedDevice (busyRegs ch)
      rw [verdict_busyRegs] at hfollows
      cases hverdict : verdict ch.regs with
      | accepted => exact reports_iff_of_accepted hverdict
      | tooHigh =>
        rw [hverdict] at hfollows
        exact (reports_iff_of_failed hfollows).trans (iff_true_intro (by
          rw [has_or]
          exact Bool.or_true _))
      | unsupported =>
        rw [hverdict] at hfollows
        have hreports := reports_iff_of_failed hfollows
        exact hreports
    · rw [if_neg hfeatures]
      exact reports_iff_of_other hidentify hfeatures

end Commands

/-! ## Soundness along a run -/

section Soundness

variable {drivers : Fin 2 → ATADeviceDriver} {driver : ATADeviceDriver} {i : Fin 2} {ch : ATAChannel}

theorem sound_initial (drivers : Fin 2 → ATADeviceDriver) (irqNum : Byte) :
    Sound drivers (.initial drivers irqNum) :=
  ⟨fun _ => ⟨rfl, rfl, Nat.le_refl 0⟩, (by decide : has StReady StReady = true),
    (by decide : has StReady StBusy = false)⟩

theorem sound_setInterrupt (sound : Sound drivers ch) (asserted : Bool) :
    Sound drivers (setInterrupt ch asserted) := by
  refine ⟨?_, ?_, ?_⟩
  · rw [setInterrupt_devs]
    exact sound.devs
  · rw [setInterrupt_regs]
    exact sound.ready
  · rw [setInterrupt_regs]
    exact sound.idle

theorem sound_setRegs (sound : Sound drivers ch) {regs : ATARegisters}
    (ready : has regs.status StReady = true) (idle : has regs.status StBusy = false) :
    Sound drivers (ch.setRegs regs) := ⟨sound.devs, ready, idle⟩

theorem sound_setDevice (sound : Sound drivers ch) {dev : ATADevice}
    (h : SoundDevice (drivers i) i dev) :
    Sound drivers (ch.setDevice i dev) := by
  refine ⟨fun j => ?_, sound.ready, sound.idle⟩
  show SoundDevice _ _ (Function.update ch.devs i dev j)
  by_cases hj : j = i
  · subst hj
    rw [Function.update_self]
    exact h
  · rw [Function.update_of_ne hj]
    exact sound.devs j

/-- No read leaves the buffer. -/
theorem soundDevice_readBuffer {dev : ATADevice} (sound : SoundDevice driver i dev) (length : Nat) :
    SoundDevice driver i (dev.readBuffer length).2 := by
  refine ⟨sound.index, sound.driver, ?_⟩
  have hle := sound.inBuffer
  rw [ATADevice.readBuffer, ATADevice.getRemainingBufferLength]
  dsimp only
  split <;> omega

/-- A handler keeps the device sound, and none clears `DRDY`. -/
theorem sound_setFeatures {dev : ATADevice} (sound : SoundDevice driver i dev) {regs : ATARegisters}
    (ready : has regs.status StReady = true) :
    SoundDevice driver i (dev.setFeatures regs).dev ∧
      has (dev.setFeatures regs).regs.status StReady = true := by
  have hfollows := follows_doSetFeatures dev regs
  have hfailed {regs' : ATARegisters} (h : dev.doSetFeatures regs = ⟨false, dev, regs'⟩) :
      SoundDevice driver i (dev.setFeatures regs).dev ∧
        has (dev.setFeatures regs).regs.status StReady = true := by
    obtain ⟨-, hdev, -, -, hready⟩ := setFeatures_of_failed h
    rw [hdev]
    exact ⟨sound, hready⟩
  cases hverdict : verdict regs with
  | accepted =>
    rw [hverdict] at hfollows
    obtain ⟨hsame, hsucceeded, hregs⟩ := hfollows
    rw [setFeatures_of_succeeded hsucceeded, hregs]
    exact ⟨hsame.sound sound, ready⟩
  | tooHigh =>
    rw [hverdict] at hfollows
    exact hfailed hfollows
  | unsupported =>
    rw [hverdict] at hfollows
    exact hfailed hfollows

theorem sound_identified {dev : ATADevice} (sound : SoundDevice driver i dev) :
    SoundDevice driver i (identified dev) :=
  ⟨(identified_devIndex dev).trans sound.index, (identified_driver dev).trans sound.driver, by simp⟩

theorem sound_identifyDevice {dev : ATADevice} (sound : SoundDevice driver i dev) {regs : ATARegisters}
    (ready : has regs.status StReady = true) :
    SoundDevice driver i (dev.identifyDevice regs).dev ∧
      has (dev.identifyDevice regs).regs.status StReady = true := by
  rw [identifyDevice_eq dev ready]
  refine ⟨sound_identified sound, ?_⟩
  exact (has_clear_of_apart (by decide)).trans (has_or_of_has (by decide))

theorem sound_runCommand {dev : ATADevice} (sound : SoundDevice driver i dev) {regs : ATARegisters}
    (ready : has regs.status StReady = true) (cmd : Byte) :
    SoundDevice driver i (runCommand dev regs cmd).dev ∧
      has (runCommand dev regs cmd).regs.status StReady = true := by
  rw [runCommand]
  split_ifs
  · exact sound_setFeatures sound ready
  · exact sound_identifyDevice sound ready
  · exact ⟨sound, ready⟩

theorem sound_readRegister (sound : Sound drivers ch) (reg : Byte) (value : Word) (size : Nat) :
    Sound drivers (readRegister ch reg value size).2 := by
  rw [readRegister]
  split_ifs
  · refine sound_setRegs (sound_setDevice sound (soundDevice_readBuffer (sound.devs _) size)) ?_ ?_
    · exact (has_clear_of_apart (by decide)).trans sound.ready
    · exact (has_clear_of_apart (by decide)).trans sound.idle
  iterate 6 exact sound
  exact sound_setInterrupt sound false

theorem sound_writeCommand (sound : Sound drivers ch) (cmd : Byte) :
    Sound drivers (writeCommand ch cmd) := by
  cases hp : kCmdProtocols cmd with
  | none =>
    rw [writeCommand_of_none hp]
    exact sound_setRegs sound ((has_or_of_apart (by decide)).trans sound.ready)
      ((has_or_of_apart (by decide)).trans sound.idle)
  | some protocol =>
    obtain ⟨hdev, hstatus⟩ :=
      sound_runCommand (sound.devs ch.selectedDeviceIndex) (ready_busyRegs sound.ready) cmd
    have hdevs := sound_setDevice sound hdev
    refine ⟨?_, ?_, ?_⟩
    · rw [writeCommand_devs hp]
      exact hdevs.devs
    · rw [writeCommand_regs hp, ATARegisters.setStatus, has_completeStatus (by decide)]
      split_ifs
      · exact (has_or_of_apart (by decide)).trans hstatus
      · exact hstatus
      · exact (has_or_of_apart (by decide)).trans hstatus
    · rw [writeCommand_regs hp]
      exact completeStatus_idle _ _ _

theorem sound_writeRegister (sound : Sound drivers ch) (reg : Byte) (value : Word) :
    Sound drivers (writeRegister ch reg value) := by
  rw [writeRegister]
  split_ifs
  · exact sound
  iterate 6 exact sound_setRegs sound sound.ready sound.idle
  exact sound_writeCommand sound _

theorem sound_access (sound : Sound drivers ch) (a : Access) : Sound drivers (access ch a).1 := by
  cases a with
  | readCommand reg value size =>
    rw [access, readCommandPort]
    split_ifs
    · exact sound
    · exact sound
    · exact sound_readRegister sound reg value size
  | writeCommand reg value size =>
    rw [access, writeCommandPort]
    split_ifs
    · exact sound
    · exact sound
    · exact sound_writeRegister sound reg value
  | readControl value size => exact sound_setInterrupt sound false
  | writeControl value size =>
    rw [access, writeControlPort]
    split_ifs
    · exact sound_setRegs (sound_setInterrupt sound false) (sound_setInterrupt sound false).ready
        (sound_setInterrupt sound false).idle
    · exact sound_setRegs sound sound.ready sound.idle

end Soundness

/-- An access as a step. -/
def step (ch : ATAChannel) (a : Access) : Option ATAChannel := some (access ch a).1

/-- The command of an access, when it is one. -/
def command : Access → Option Byte
  | .writeCommand reg value _ => if reg = RegCommand then some (value.setWidth 8) else none
  | _ => none

/-- The commands of a run report what they should exactly when each finds fresh registers. -/
theorem reports_run_iff (drivers : Fin 2 → ATADeviceDriver) (irqNum : Byte) (accesses : List Access) :
    Guarded step (fun ch a => ∀ cmd,
    command a = some cmd → Reports ch cmd) (.initial drivers irqNum) accesses ↔
      Guarded step (fun ch a => ∀ cmd,
      command a = some cmd → Fresh ch.regs cmd) (.initial drivers irqNum)
        accesses := by
  refine guarded_congr (I := Sound drivers) ?_ ?_ (sound_initial drivers irqNum)
  · intro ch a sound
    exact forall_congr' fun cmd => imp_congr_right fun _ => reports_iff sound.ready cmd
  · intro ch a ch' sound _ hstep
    obtain rfl := Option.some.inj hstep
    exact sound_access sound a

/-- A command that is not supported, the first of a run: `ERR` is set and `ABRT` is not. -/
theorem not_reports_unsupported :
    ¬ Guarded step (fun ch a => ∀ cmd, command a = some cmd → Reports ch cmd)
      (.initial (fun _ => nullATADeviceDriver) 14) [.writeCommand RegCommand 0x20 1] := by
  intro h
  have hfresh := (reports_iff (by decide) 0x20).mp (h.1 0x20 (by decide))
  exact absurd hfresh.1 (by decide)

end OpenXbox.Ata.CommandOutcome
