import OpenXbox.Ata.CommandOutcome
import OpenXbox.Lib.Buffer
import Mathlib.Algebra.GroupWithZero.Nat

/-!
# Reading the identify data

The data register gives out the buffer of the selected device in order, whatever the sizes of the
reads, with zeros behind its end. `DRQ` is cleared by every read, not by the last one.
-/

namespace OpenXbox.Ata.DataIn

open OpenXbox.Lib OpenXbox.Lib.Buffer OpenXbox.Lib.Flags OpenXbox.Lib.LittleEndian OpenXbox.Ata.Device
  OpenXbox.Ata.Channel OpenXbox.Ata.InterruptLine OpenXbox.Ata.CommandOutcome

/-- The bytes of a buffer, with zeros behind its end. -/
def padded (buf : List Byte) : Nat → Byte := fun k => buf.getD k 0

/-- Reads of the data register, each with what the variable of the caller holds and its size: the
bytes that they return, and the channel after them. -/
def readAll (ch : ATAChannel) : List (Word × Nat) → List Byte × ATAChannel
  | [] => ([], ch)
  | (value, size) :: reads =>
    let r := access ch (.readCommand RegData value size)
    let rest := readAll r.1 reads
    (slice (byteAt (r.2.value.getD 0)) 0 size ++ rest.1, rest.2)

/-- The number of bytes that are asked for. -/
def total (reads : List (Word × Nat)) : Nat := (reads.map Prod.snd).sum

/-! ## One read -/

/-- A device at a position of a buffer, attached and selected. -/
structure Reading (ch : ATAChannel) (i : Fin 2) (buf : List Byte) (pos : Nat) : Prop where
  selected : ch.selectedDeviceIndex = i
  attached : (ch.devs i).driver.isAttached = true
  buffer : (ch.devs i).dataBuffer = buf
  position : (ch.devs i).dataBufferPos = pos
  inBuffer : pos ≤ buf.length

section Read

variable {ch : ATAChannel} {i : Fin 2} {buf : List Byte} {pos size : Nat} {value : Word}

theorem readBuffer_getD {dev : ATADevice} (hle : dev.dataBufferPos ≤ dev.dataBuffer.length) {k : Nat}
    (hk : k < size) :
    (dev.readBuffer size).1.getD k 0 = padded dev.dataBuffer (dev.dataBufferPos + k) := by
  have hshort : (dev.readBuffer size).1 = (dev.dataBuffer.drop dev.dataBufferPos).take size := by
    rw [ATADevice.readBuffer, ATADevice.getRemainingBufferLength]
    dsimp only
    split
    · rw [List.take_of_length_le (by rw [List.length_drop]),
        List.take_of_length_le (by rw [List.length_drop]; omega)]
    · rfl
  rw [hshort, padded, List.getD_eq_getElem?_getD, List.getElem?_take_of_lt hk, List.getElem?_drop,
    List.getD_eq_getElem?_getD]

theorem readBuffer_pos {dev : ATADevice} (hle : dev.dataBufferPos ≤ dev.dataBuffer.length) :
    (dev.readBuffer size).2.dataBufferPos = min (dev.dataBufferPos + size) dev.dataBuffer.length := by
  rw [ATADevice.readBuffer, ATADevice.getRemainingBufferLength]
  dsimp only
  split <;> omega

theorem readBuffer_buffer (dev : ATADevice) : (dev.readBuffer size).2.dataBuffer = dev.dataBuffer := rfl

theorem access_data (attached : ch.selectedDevice.driver.isAttached = true) :
    access ch (.readCommand RegData value size) =
      ((readData ch size).2, ⟨some (readData ch size).1, true, false⟩) := by
  rw [access, readCommandPort, if_neg (by decide), attached, if_neg (fun h => by cases h.1),
    readRegister, if_pos rfl]

/-- A read of an attached device: the next bytes, the position moved on, and `DRQ` clear. -/
theorem Reading.read (h : Reading ch i buf pos) (value : Word) (hsize : size ≤ 4) :
    slice (byteAt ((access ch (.readCommand RegData value size)).2.value.getD 0)) 0 size =
        slice (padded buf) pos size ∧
      Reading (access ch (.readCommand RegData value size)).1 i buf (min (pos + size) buf.length) ∧
      has (access ch (.readCommand RegData value size)).1.regs.status StDataRequest = false := by
  have hle : (ch.devs i).dataBufferPos ≤ (ch.devs i).dataBuffer.length := by
    rw [h.position, h.buffer]
    exact h.inBuffer
  have hattached : ch.selectedDevice.driver.isAttached = true := by
    rw [ATAChannel.selectedDevice, h.selected]
    exact h.attached
  rw [access_data hattached, readData, h.selected]
  refine ⟨?_, ⟨h.selected, ?_, ?_, ?_, Nat.min_le_right _ _⟩, has_clear_of_covered (by decide)⟩
  · refine List.map_congr_left fun k hk => ?_
    have hk' : k < size := List.mem_range.mp hk
    rw [Option.getD_some, Nat.zero_add, byteAt_load _ _ (by decide) (show k < 4 by omega), Nat.zero_add,
      readBuffer_getD hle hk', h.buffer, h.position]
  · show (Function.update ch.devs i _ i).driver.isAttached = true
    rw [Function.update_self]
    exact h.attached
  · show (Function.update ch.devs i _ i).dataBuffer = buf
    rw [Function.update_self, readBuffer_buffer]
    exact h.buffer
  · show (Function.update ch.devs i _ i).dataBufferPos = _
    rw [Function.update_self, readBuffer_pos hle, h.position, h.buffer]

/-- A read of a device that is not attached: zero, and nothing changes. -/
theorem access_unattached (h : ch.selectedDevice.driver.isAttached = false) :
    access ch (.readCommand RegData value size) = (ch, ⟨some 0, true, false⟩) := by
  rw [access, readCommandPort, if_neg (by decide), h, if_pos ⟨rfl, by decide⟩]

end Read

/-! ## All reads -/

section Reads

variable {ch : ATAChannel} {i : Fin 2} {buf : List Byte} {pos : Nat} {reads : List (Word × Nat)}

theorem total_cons (value : Word) (size : Nat) (reads : List (Word × Nat)) :
    total ((value, size) :: reads) = size + total reads := rfl

/-- Behind the end of the buffer it does not matter where. -/
theorem slice_padded_min (buf : List Byte) (pos len : Nat) :
    slice (padded buf) (min pos buf.length) len = slice (padded buf) pos len := by
  by_cases h : pos ≤ buf.length
  · rw [Nat.min_eq_left h]
  · refine List.map_congr_left fun k _ => ?_
    rw [padded, padded, List.getD_eq_getElem?_getD, List.getD_eq_getElem?_getD,
      List.getElem?_eq_none (by omega), List.getElem?_eq_none (by omega)]

/-- The reads of an attached device give out the buffer from the position on. -/
theorem Reading.readAll (h : Reading ch i buf pos) (hsizes : ∀ r ∈ reads, r.2 ≤ 4) :
    (readAll ch reads).1 = slice (padded buf) pos (total reads) ∧
      Reading (DataIn.readAll ch reads).2 i buf (min (pos + total reads) buf.length) ∧
      has (DataIn.readAll ch reads).2.regs.status StDataRequest =
        (decide (reads = []) && has ch.regs.status StDataRequest) := by
  induction reads generalizing ch pos with
  | nil =>
    refine ⟨rfl, ?_, by simp [DataIn.readAll]⟩
    have hmin : min (pos + total []) buf.length = pos := Nat.min_eq_left h.inBuffer
    rw [hmin]
    exact h
  | cons r reads ih =>
    obtain ⟨value, size⟩ := r
    obtain ⟨hsize, hrest⟩ := List.forall_mem_cons.mp hsizes
    obtain ⟨hbytes, hnext, hclear⟩ := h.read value hsize
    obtain ⟨hmore, hlast, hdrq⟩ := ih hnext hrest
    have hend : min (min (pos + size) buf.length + total reads) buf.length =
        min (pos + (size + total reads)) buf.length := by omega
    refine ⟨?_, ?_, ?_⟩
    · rw [DataIn.readAll]
      dsimp only
      rw [hbytes, hmore, slice_padded_min, total_cons, slice_add]
    · rw [total_cons, ← hend]
      exact hlast
    · rw [DataIn.readAll]
      dsimp only
      rw [hdrq, hclear]
      simp

theorem readAll_unattached (h : ch.selectedDevice.driver.isAttached = false)
    (reads : List (Word × Nat)) :
    readAll ch reads = (slice (fun _ => 0) 0 (total reads), ch) := by
  induction reads with
  | nil => rfl
  | cons r reads ih =>
    obtain ⟨value, size⟩ := r
    rw [readAll, access_unattached h]
    dsimp only
    rw [ih, total_cons, slice_add]
    refine congrArg (Prod.mk · ch) (congrArg₂ _ ?_ rfl)
    exact List.map_congr_left fun k _ => by simp [byteAt]

end Reads

/-! ## After IDENTIFY DEVICE -/

/-- The data that a device identifies itself with. -/
def identifyData (driver : ATADeviceDriver) : List Byte := List.ofFn driver.identifyDevice

/-- What is expected of reads after IDENTIFY DEVICE: they return the data in order with zeros behind
its end, before, between and after them `DRQ` is set as long as bytes are unread, and no read of any
device, of whatever size, leaves the buffer. -/
structure Delivers (ch : ATAChannel) (reads : List (Word × Nat)) : Prop where
  bytes : (readAll ch reads).1 = slice (padded (identifyData ch.selectedDevice.driver)) 0 (total reads)
  drq : ∀ done, done <+: reads →
    (has (readAll ch done).2.regs.status StDataRequest = true ↔
      0 < (readAll ch done).2.selectedDevice.getRemainingBufferLength)
  inBuffer : ∀ i length,
    ((((readAll ch reads).2.devs i).readBuffer length).2).dataBufferPos ≤
      ((readAll ch reads).2.devs i).dataBuffer.length

/-- The reads for which that holds: none at all, as the first one clears `DRQ` and leaves bytes unread;
of a device that is not attached, the reads that ask for no bytes but zeros. -/
def Unread (driver : ATADeviceDriver) (reads : List (Word × Nat)) : Prop :=
  if driver.isAttached then reads = []
  else ∀ k < total reads, padded (identifyData driver) k = 0

theorem selectedDeviceIndex_select (ch : ATAChannel) (dev : ATADevice) (regs : ATARegisters) :
    (ch.setRegs (dev.select regs)).selectedDeviceIndex = dev.devIndex := by
  have hbits (head : Byte) (i : Fin 2) :
      (if (((head &&& ~~~(1#8 <<< 4)) ||| (BitVec.ofNat 8 i <<< 4)) >>> 4) &&& 1 = 0 then (0 : Fin 2)
        else 1) = i := by
    revert head i
    decide
  exact hbits regs.deviceHead dev.devIndex

section Identify

variable {drivers : Fin 2 → ATADeviceDriver} {ch : ATAChannel} {value : Word} {size : Nat}

/-- The command goes through: the device is never busy. -/
theorem access_command (sound : Sound drivers ch) :
    (access ch (.writeCommand RegCommand value size)).1 = writeCommand ch (value.setWidth 8) := by
  have hidle :
      ¬ (has ch.regs.status StBusy = true ∧ (RegCommand ≠ RegCommand ∨ value ≠ CmdDeviceReset)) := by
    intro h
    rw [sound.idle] at h
    exact Bool.false_ne_true h.1
  rw [access, writeCommandPort, if_neg (by decide), if_neg hidle, writeRegister]
  simp only [show RegCommand ≠ RegData by decide, show RegCommand ≠ RegFeatures by decide,
    show RegCommand ≠ RegSectorCount by decide, show RegCommand ≠ RegSectorNumber by decide,
    show RegCommand ≠ RegCylinderLow by decide, show RegCommand ≠ RegCylinderHigh by decide,
    show RegCommand ≠ RegDeviceHead by decide, if_false]

/-- A sound channel after the command: the data is in the buffer and `DRQ` is set. -/
theorem identify_access (sound : Sound drivers ch) :
    (writeCommand ch CmdIdentifyDevice).selectedDeviceIndex = ch.selectedDeviceIndex ∧
      (writeCommand ch CmdIdentifyDevice).devs ch.selectedDeviceIndex = identified ch.selectedDevice ∧
      has (writeCommand ch CmdIdentifyDevice).regs.status StDataRequest = true := by
  have hprotocol : kCmdProtocols CmdIdentifyDevice = some .pioDataIn := by decide
  have houtcome := outcome_identify sound.ready
  refine ⟨?_, ?_, ?_⟩
  · have hselect := selectedDeviceIndex_select ch ch.selectedDevice (busyRegs ch)
    rw [show ch.selectedDevice.devIndex = ch.selectedDeviceIndex from (sound.devs _).index] at hselect
    rw [ATAChannel.selectedDeviceIndex, writeCommand_regs hprotocol, houtcome]
    exact hselect
  · rw [writeCommand_devs hprotocol, Function.update_self, houtcome]
  · rw [writeCommand_regs hprotocol, houtcome, ATARegisters.setStatus, has_completeStatus (by decide),
      if_pos rfl,
      if_pos (Or.inl rfl)]
    exact has_or_of_has (by decide)

/-- No read leaves a buffer in a sound channel. -/
theorem Sound.inBuffer (sound : Sound drivers ch) (i : Fin 2) (length : Nat) :
    ((ch.devs i).readBuffer length).2.dataBufferPos ≤ (ch.devs i).dataBuffer.length := by
  have hle := (soundDevice_readBuffer (sound.devs i) length).inBuffer
  rwa [readBuffer_buffer] at hle

theorem sound_readAll (sound : Sound drivers ch) (reads : List (Word × Nat)) :
    Sound drivers (readAll ch reads).2 := by
  induction reads generalizing ch with
  | nil => exact sound
  | cons r reads ih => exact ih (sound_access sound _)

/-- The selected device keeps its driver. -/
theorem identify_driver (sound : Sound drivers ch) :
    (writeCommand ch CmdIdentifyDevice).selectedDevice.driver = ch.selectedDevice.driver := by
  obtain ⟨hselected, hdevice, -⟩ := identify_access sound
  rw [ATAChannel.selectedDevice, hselected, hdevice, identified_driver]

/-- The device reads its data from the start, with `DRQ` set. -/
theorem identify_reading (sound : Sound drivers ch)
    (hattached : ch.selectedDevice.driver.isAttached = true) :
    Reading (writeCommand ch CmdIdentifyDevice) ch.selectedDeviceIndex
      (identifyData ch.selectedDevice.driver) 0 := by
  obtain ⟨hselected, hdevice, -⟩ := identify_access sound
  refine ⟨hselected, ?_, ?_, ?_, Nat.zero_le _⟩
  · rw [hdevice, identified_driver]
    exact hattached
  · rw [hdevice, identified_dataBuffer, identifyData]
  · rw [hdevice, identified_dataBufferPos]

/-- What is unread after some reads of the data. -/
theorem identify_remaining (sound : Sound drivers ch)
    (hattached : ch.selectedDevice.driver.isAttached = true) {done : List (Word × Nat)}
    (hsizes : ∀ r ∈ done, r.2 ≤ 4) :
    (readAll (writeCommand ch CmdIdentifyDevice) done).2.selectedDevice.getRemainingBufferLength =
      identifyDeviceDataSize - total done := by
  obtain ⟨-, hlast, -⟩ := (identify_reading sound hattached).readAll hsizes
  have hlength : (identifyData ch.selectedDevice.driver).length = identifyDeviceDataSize :=
    List.length_ofFn
  rw [ATAChannel.selectedDevice, hlast.selected, ATADevice.getRemainingBufferLength, hlast.buffer,
    hlast.position, hlength]
  omega

theorem delivers_attached (sound : Sound drivers ch) {reads : List (Word × Nat)}
    (hsizes : ∀ r ∈ reads, r.2 ≤ 4) (hattached : ch.selectedDevice.driver.isAttached = true) :
    Delivers (writeCommand ch CmdIdentifyDevice) reads ↔ reads = [] := by
  have hreading := identify_reading sound hattached
  constructor
  · intro h
    -- The first read clears `DRQ`, and at least 508 bytes are left.
    cases reads with
    | nil => rfl
    | cons r rest =>
      have hone : ∀ s ∈ [r], s.2 ≤ 4 := by
        intro s hs
        rw [List.mem_singleton.mp hs]
        exact hsizes r List.mem_cons_self
      obtain ⟨-, -, hstatus⟩ := hreading.readAll hone
      have hdrq := h.drq [r] (List.prefix_append [r] rest)
      rw [hstatus, identify_remaining sound hattached hone] at hdrq
      have htotal : total [r] ≤ 4 := by
        show r.2 + 0 ≤ 4
        exact hone r List.mem_cons_self
      have hunread : 0 < identifyDeviceDataSize - total [r] := by
        rw [identifyDeviceDataSize]
        omega
      exact absurd (hdrq.mpr hunread) (by simp)
  · intro h
    subst h
    obtain ⟨hbytes, -, -⟩ := hreading.readAll hsizes
    obtain ⟨-, -, hset⟩ := identify_access sound
    refine ⟨by rw [identify_driver sound]; exact hbytes, ?_,
      Sound.inBuffer (sound_writeCommand sound CmdIdentifyDevice)⟩
    intro done hdone
    rw [List.prefix_nil.mp hdone, identify_remaining sound hattached hsizes]
    exact iff_of_true hset (by decide)

/-- Nothing is attached that takes bytes out of the buffer. -/
theorem delivers_unattached (sound : Sound drivers ch) (reads : List (Word × Nat))
    (hattached : ch.selectedDevice.driver.isAttached = false) :
    Delivers (writeCommand ch CmdIdentifyDevice) reads ↔
      ∀ k < total reads, padded (identifyData ch.selectedDevice.driver) k = 0 := by
  obtain ⟨hselected, hdevice, hdrq⟩ := identify_access sound
  have hdriver := identify_driver sound
  have hreads := readAll_unattached (hdriver.symm ▸ hattached) reads
  have hremaining :
      0 < (writeCommand ch CmdIdentifyDevice).selectedDevice.getRemainingBufferLength := by
    rw [ATAChannel.selectedDevice, hselected, hdevice, ATADevice.getRemainingBufferLength,
      identified_dataBuffer, identified_dataBufferPos, List.length_ofFn, Nat.sub_zero]
    decide
  constructor
  · intro h k hk
    have hbytes := h.bytes
    rw [hreads, hdriver] at hbytes
    have hbyte := (List.map_inj_left.mp hbytes) k (List.mem_range.mpr hk)
    rw [Nat.zero_add] at hbyte
    exact hbyte.symm
  · intro h
    have hsound := sound_readAll (sound_writeCommand sound CmdIdentifyDevice) reads
    refine ⟨?_, ?_, Sound.inBuffer hsound⟩
    · rw [hreads, hdriver]
      refine List.map_congr_left fun k hk => ?_
      rw [Nat.zero_add, h k (List.mem_range.mp hk)]
    · intro done _
      rw [readAll_unattached (hdriver.symm ▸ hattached) done]
      exact iff_of_true hdrq hremaining

theorem delivers_iff (sound : Sound drivers ch) {reads : List (Word × Nat)}
    (hsizes : ∀ r ∈ reads, r.2 ≤ 4) :
    Delivers (writeCommand ch CmdIdentifyDevice) reads ↔ Unread ch.selectedDevice.driver reads := by
  rw [Unread]
  by_cases hattached : ch.selectedDevice.driver.isAttached = true
  · rw [if_pos hattached]
    exact delivers_attached sound hsizes hattached
  · rw [if_neg hattached]
    exact delivers_unattached sound reads (Bool.eq_false_iff.mpr hattached)

end Identify

/-- Over every history of a channel: no read of a buffer leaves it, reads after an IDENTIFY DEVICE return
the data of an attached device in order, and they deliver all that they should, `DRQ` between them
included, exactly when there are none. -/
theorem identify_reads_iff (drivers : Fin 2 → ATADeviceDriver) (irqNum : Byte) (before : List Access)
    {value : Word} (hvalue : value.setWidth 8 = CmdIdentifyDevice) (size : Nat)
    {reads : List (Word × Nat)} (hsizes : ∀ r ∈ reads, r.2 = 1 ∨ r.2 = 2 ∨ r.2 = 4) :
    let ch := (Mealy.run access (.initial drivers irqNum) before).1
    let identified := (access ch (.writeCommand RegCommand value size)).1
    (∀ i length, ((ch.devs i).readBuffer length).2.dataBufferPos ≤ (ch.devs i).dataBuffer.length) ∧
      ((drivers ch.selectedDeviceIndex).isAttached = true →
        (readAll identified reads).1 =
          slice (padded (identifyData (drivers ch.selectedDeviceIndex))) 0 (total reads)) ∧
      (Delivers identified reads ↔ Unread (drivers ch.selectedDeviceIndex) reads) := by
  intro ch identified
  have sound : Sound drivers ch :=
    Mealy.run_invariant (I := Sound drivers) (fun _ a sound => sound_access sound a)
      (sound_initial drivers irqNum) before
  have hsmall : ∀ r ∈ reads, r.2 ≤ 4 := by
    intro r hr
    obtain h | h | h := hsizes r hr <;> omega
  have hdriver : ch.selectedDevice.driver = drivers ch.selectedDeviceIndex :=
    (sound.devs ch.selectedDeviceIndex).driver
  have hcommand : identified = writeCommand ch CmdIdentifyDevice := by
    rw [← hvalue]
    exact access_command sound
  rw [hcommand, ← hdriver]
  refine ⟨Sound.inBuffer sound, fun hattached => ?_, delivers_iff sound hsmall⟩
  exact ((identify_reading sound hattached).readAll hsmall).1

theorem identify_reads_counting :
    let driver : ATADeviceDriver := ⟨true, fun k => BitVec.ofNat 8 k⟩
    let identified := (access (.initial (fun _ => driver) 14) (.writeCommand RegCommand 0xEC 1)).1
    Delivers identified [] ∧
      (readAll identified [(0, 4), (0, 1), (0, 2)]).1 = [0, 1, 2, 3, 4, 5, 6] :=
  ⟨(identify_reads_iff (fun _ => ⟨true, fun k => BitVec.ofNat 8 k⟩) 14 [] (by decide) 1
      (by simp)).2.2.mpr rfl,
    ((identify_reads_iff (fun _ => ⟨true, fun k => BitVec.ofNat 8 k⟩) 14 [] (by decide) 1
      (by decide)).2.1 rfl).trans (by decide +kernel)⟩

/-- All of the data is read, and `DRQ` is clear before the second read. -/
theorem not_delivers_all :
    ¬ Delivers
      (access (.initial (fun _ => nullATADeviceDriver) 14) (.writeCommand RegCommand 0xEC 1)).1
      (List.replicate 128 (0, 4)) := by
  intro h
  have sound := sound_initial (fun _ => nullATADeviceDriver) 14
  rw [access_command sound] at h
  have hnone := (delivers_iff sound (fun r hr => by rw [List.eq_of_mem_replicate hr])).mp h
  rw [Unread, if_pos (by decide)] at hnone
  cases hnone

end OpenXbox.Ata.DataIn
