import OpenXbox.Ohci.Layout
import OpenXbox.Ohci.Service

/-!
# The frame boundary

`OHCI_FrameBoundaryWorker` before and after the endpoint lists are processed. In between
it holds its copy of the communications area; a second worker waits until it is done.
-/

namespace OpenXbox.Ohci.Frame

open OpenXbox.Lib.Bits OpenXbox.Ohci.Memory OpenXbox.Ohci.Service OpenXbox.Ohci.Layout

def OHCI_INTR_WD : Word := 0x2
def OHCI_INTR_SF : Word := 0x4
def OHCI_INTR_UE : Word := 0x10
def OHCI_INTR_MIE : Word := 0x80000000
def OHCI_FMI_FIT : Word := 0x80000000
def OHCI_FMR_FRT : Word := 0x80000000

/-- `OHCI_HCCA`. -/
structure Hcca where
  interruptTable : Nat → Word
  frameNumber : BitVec 16
  pad1 : BitVec 16
  doneHead : Word

/-- The host address of byte `i` of the communications area. -/
def hccaByte (paddr : Word) (i : Nat) : Word := paddr + BitVec.ofNat 32 i + CONTIGUOUS_MEMORY_BASE

/-- The communications area in memory. -/
def readHCCA (host : Word → Byte) (paddr : Word) : Hcca :=
  let bytes (i : Nat) : Byte := host (hccaByte paddr i)
  ⟨fun n => wordAt bytes (4 * n), bytes 0x81 ++ bytes 0x80, bytes 0x83 ++ bytes 0x82,
    wordAt bytes 0x84⟩

/-- The two words after the interrupt table. -/
def Hcca.bytes (hcca : Hcca) : Nat → Byte := leBytes [hcca.pad1 ++ hcca.frameNumber, hcca.doneHead]

def writeHCCA (host : Word → Byte) (paddr : Word) (hcca : Hcca) (a : Word) : Byte :=
  let i := (a - hccaByte paddr 0x80).toNat
  if i < 8 then hcca.bytes i else host a

/-- The controller with the registers a frame boundary uses. -/
structure OHCI extends Controller where
  hcHCCA : Word
  hcInterruptStatus : Word
  hcInterrupt : Word
  hcFmInterval : Word
  hcFmRemaining : Word
  /-- The local copy of the communications area; `m_bFrameTime` is set while there is one. -/
  frame : Option Hcca

/-- `HccaDoneHead` at the host address that the controller takes for the communications area. -/
def OHCI.hccaDoneHead (hc : OHCI) : Word := (readHCCA hc.host hc.hcHCCA).doneHead

def OHCI.setInterrupt (hc : OHCI) (value : Word) : OHCI :=
  { hc with hcInterruptStatus := hc.hcInterruptStatus ||| value }

/-- `OHCI_FatalError`. -/
def OHCI.fatal (hc : OHCI) : OHCI :=
  OHCI.setInterrupt { hc with toController := hc.fatalError } OHCI_INTR_UE

/-- The start of `OHCI_FrameBoundaryWorker`; it does not return while another one runs. -/
def frameBegin (hc : OHCI) : Option OHCI :=
  if hc.frame.isSome then none
  else if hc.hcHCCA = 0 then some hc.fatal
  else some { hc with frame := some (readHCCA hc.host hc.hcHCCA) }

/-- The frame number and the toggle of the frame interval. -/
def nextFrame (hc : OHCI) : OHCI :=
  { hc with
    hcFmRemaining := if hc.hcFmInterval &&& OHCI_FMI_FIT = 0 then hc.hcFmRemaining &&& ~~~OHCI_FMR_FRT
      else hc.hcFmRemaining ||| OHCI_FMR_FRT
    hcFmNumber := (hc.hcFmNumber + 1) &&& 0xFFFF }

/-- WritebackDoneHead has not been acknowledged. -/
def OHCI.Pending (hc : OHCI) : Prop := hc.hcInterruptStatus &&& OHCI_INTR_WD ≠ 0

instance (hc : OHCI) : Decidable hc.Pending := inferInstanceAs (Decidable (_ ≠ _))

/-- The done queue is handed over at this frame boundary. -/
def OHCI.HandsOver (hc : OHCI) : Prop := hc.doneCount = 0 ∧ ¬ hc.Pending

instance (hc : OHCI) : Decidable hc.HandsOver := inferInstanceAs (Decidable (_ ∧ _))

/-- What goes to HccaDoneHead: bit 0 tells of an unmasked interrupt. -/
def OHCI.taggedDoneHead (hc : OHCI) : Word :=
  if hc.hcInterrupt &&& hc.hcInterruptStatus ≠ 0 then hc.hcDoneHead ||| 1 else hc.hcDoneHead

/-- HcDoneHead goes to the copy of the communications area. -/
def handOver (hc : OHCI) (hcca : Hcca) : OHCI × Hcca :=
  if hc.HandsOver then
    (OHCI.setInterrupt { hc with hcDoneHead := 0, doneCount := 7 } OHCI_INTR_WD,
      { hcca with doneHead := hc.taggedDoneHead })
  else (hc, hcca)

/-- The done queue counter, unless it is stopped or has run down. -/
def countDown (doneCount : Nat) : Nat :=
  if doneCount ≠ 7 ∧ doneCount ≠ 0 then doneCount - 1 else doneCount

/-- `OHCI_SOF` and the write-back of the communications area. -/
def startFrame (hc : OHCI) (hcca : Hcca) : OHCI :=
  let hc := hc.setInterrupt OHCI_INTR_SF
  if hc.hcHCCA = 0 then hc.fatal else { hc with host := writeHCCA hc.host hc.hcHCCA hcca }

/-- `OHCI_FrameBoundaryWorker` after the lists. -/
def frameEnd (hc : OHCI) : Option OHCI :=
  hc.frame.map fun hcca =>
    let hc := { hc with frame := none }
    if hc.hcInterruptStatus &&& OHCI_INTR_UE ≠ 0 then hc
    else
      let hc := nextFrame hc
      let r := handOver hc { hcca with frameNumber := hc.hcFmNumber.setWidth 16 }
      startFrame { r.1 with doneCount := countDown r.1.doneCount } r.2

/-- A write to HcInterruptStatus. -/
def acknowledge (hc : OHCI) (value : Word) : OHCI :=
  { hc with hcInterruptStatus := hc.hcInterruptStatus &&& ~~~value }

/-- `OHCI_StateReset` on what the frame boundary uses. -/
def stateReset (hc : OHCI) : OHCI :=
  { hc with
    hcInterruptStatus := 0, hcInterrupt := OHCI_INTR_MIE, hcHCCA := 0, hcDoneHead := 0
    hcFmInterval := 0x27782EDF, hcFmRemaining := 0, hcFmNumber := 0, doneCount := 7, asyncTD := 0 }

/-! ## What a frame boundary does -/

theorem hccaByte_sub (paddr : Word) {i : Nat} (hi : i < 8) :
    (hccaByte paddr (0x80 + i) - hccaByte paddr 0x80).toNat = i := by
  have hdist : hccaByte paddr (0x80 + i) - hccaByte paddr 0x80 = BitVec.ofNat 32 i := by
    unfold hccaByte
    rw [BitVec.ofNat_add]
    grind
  rw [hdist, BitVec.toNat_ofNat]
  omega

/-- The written-back HccaDoneHead is what the guest finds. -/
theorem readHCCA_writeHCCA (host : Word → Byte) (paddr : Word) (hcca : Hcca) :
    (readHCCA (writeHCCA host paddr hcca) paddr).doneHead = hcca.doneHead := by
  have hbyte (i : Nat) (hi : i < 8) :
      writeHCCA host paddr hcca (hccaByte paddr (0x80 + i)) = hcca.bytes i := by
    unfold writeHCCA
    rw [hccaByte_sub paddr hi]
    exact if_pos hi
  have hword : wordAt (fun i => writeHCCA host paddr hcca (hccaByte paddr (0x80 + i))) 4 =
      wordAt hcca.bytes 4 := wordAt_congr hbyte (by decide)
  exact hword.trans (wordAt_bytes [hcca.pad1 ++ hcca.frameNumber, hcca.doneHead] 1)

theorem setInterrupt_pending {hc : OHCI} {value : Word} (h : value &&& OHCI_INTR_WD = 0#32) :
    (hc.setInterrupt value).Pending ↔ hc.Pending := by
  unfold OHCI.Pending OHCI.setInterrupt
  rw [or_and_of_apart h]

theorem fatal_pending (hc : OHCI) : hc.fatal.Pending ↔ hc.Pending := by
  unfold OHCI.fatal
  exact setInterrupt_pending (by decide)

theorem setInterrupt_writeback (hc : OHCI) : (hc.setInterrupt OHCI_INTR_WD).Pending := by
  unfold OHCI.Pending OHCI.setInterrupt
  rw [or_and_cancel]
  decide

/-- The start of the next frame leaves WritebackDoneHead alone. -/
theorem startFrame_eq (hc : OHCI) (hcca : Hcca) : ∃ status host unrecoverable,
    startFrame hc hcca = { hc with
      hcInterruptStatus := status, host := host, unrecoverable := unrecoverable } ∧
    (status &&& OHCI_INTR_WD ≠ 0 ↔ hc.Pending) ∧
    (hc.hcHCCA ≠ 0 → (readHCCA host hc.hcHCCA).doneHead = hcca.doneHead) := by
  have hsf : (hc.setInterrupt OHCI_INTR_SF).Pending ↔ hc.Pending := setInterrupt_pending (by decide)
  have hue := fatal_pending (hc.setInterrupt OHCI_INTR_SF)
  by_cases h0 : hc.hcHCCA = 0
  · exact ⟨_, hc.host, true, if_pos h0, hue.trans hsf, fun hne => absurd h0 hne⟩
  · exact ⟨_, _, hc.unrecoverable, if_neg h0, hsf,
      fun _ => readHCCA_writeHCCA hc.host hc.hcHCCA hcca⟩

/-- What the start of the next frame leaves of `hc`. -/
structure Started (hcca : Hcca) (hc hc' : OHCI) : Prop where
  mem : hc'.mem = hc.mem
  hcHCCA : hc'.hcHCCA = hc.hcHCCA
  frame : hc'.frame = hc.frame
  head : hc'.hcDoneHead = hc.hcDoneHead
  count : hc'.doneCount = hc.doneCount
  pending : hc'.Pending ↔ hc.Pending
  word : hc.hcHCCA ≠ 0 → hc'.hccaDoneHead = hcca.doneHead

theorem startFrame_started (hc : OHCI) (hcca : Hcca) : Started hcca hc (startFrame hc hcca) := by
  obtain ⟨status, host, unrecoverable, hstart, hwd, hword⟩ := startFrame_eq hc hcca
  rw [hstart]
  exact ⟨rfl, rfl, rfl, rfl, rfl, hwd, hword⟩

/-- What the end of a frame does to the done queue; `hcca` is the local copy. -/
inductive Ended (hc : OHCI) (hcca : Hcca) (hc' : OHCI) : Prop where
  | stopped (hue : hc.hcInterruptStatus &&& OHCI_INTR_UE ≠ 0) (hhead : hc'.hcDoneHead = hc.hcDoneHead)
      (hcount : hc'.doneCount = hc.doneCount) (hwd : hc'.Pending ↔ hc.Pending)
      (hword : hc'.hccaDoneHead = hc.hccaDoneHead)
  | handed (hue : hc.hcInterruptStatus &&& OHCI_INTR_UE = 0) (h : hc.HandsOver)
      (hhead : hc'.hcDoneHead = 0) (hcount : hc'.doneCount = 7) (hwd : hc'.Pending)
      (hword : hc.hcHCCA ≠ 0 → hc'.hccaDoneHead = hc.taggedDoneHead)
  | counted (h : ¬ hc.HandsOver) (hhead : hc'.hcDoneHead = hc.hcDoneHead)
      (hcount : hc'.doneCount = countDown hc.doneCount) (hwd : hc'.Pending ↔ hc.Pending)
      (hword : hc.hcHCCA ≠ 0 → hc'.hccaDoneHead = hcca.doneHead)

/-- The frame number and the toggle do not matter to the done queue. -/
theorem handOver_nextFrame (hc : OHCI) (hcca : Hcca) :
    (hc.HandsOver ∧ handOver (nextFrame hc) hcca =
        (OHCI.setInterrupt { nextFrame hc with hcDoneHead := 0, doneCount := 7 } OHCI_INTR_WD,
          { hcca with doneHead := hc.taggedDoneHead })) ∨
      (¬ hc.HandsOver ∧ handOver (nextFrame hc) hcca = (nextFrame hc, hcca)) := by
  by_cases h : hc.HandsOver
  · exact .inl ⟨h, if_pos h⟩
  · exact .inr ⟨h, if_neg h⟩

theorem frameEnd_ended {hc hc' : OHCI} (h : frameEnd hc = some hc') :
    ∃ hcca, hc.frame = some hcca ∧ hc'.frame = none ∧ hc'.mem = hc.mem ∧ hc'.hcHCCA = hc.hcHCCA ∧
      Ended hc hcca hc' := by
  unfold frameEnd at h
  obtain ⟨hcca, hframe, rfl⟩ := Option.map_eq_some_iff.mp h
  refine ⟨hcca, hframe, ?_⟩
  dsimp only
  split
  · next hue => exact ⟨rfl, rfl, rfl, .stopped hue rfl rfl Iff.rfl rfl⟩
  next hue =>
  obtain ⟨hover, hr⟩ | ⟨hstays, hr⟩ := handOver_nextFrame { hc with frame := none }
    { hcca with frameNumber := (nextFrame { hc with frame := none }).hcFmNumber.setWidth 16 }
  · rw [hr]
    have hstart := startFrame_started
      (OHCI.setInterrupt { nextFrame { hc with frame := none } with hcDoneHead := 0, doneCount := 7 }
        OHCI_INTR_WD)
      { hcca with
        frameNumber := (nextFrame { hc with frame := none }).hcFmNumber.setWidth 16
        doneHead := OHCI.taggedDoneHead { hc with frame := none } }
    exact ⟨hstart.frame, hstart.mem, hstart.hcHCCA, .handed (not_not.mp hue) hover hstart.head
      hstart.count (hstart.pending.mpr (setInterrupt_writeback _)) hstart.word⟩
  · rw [hr]
    have hstart := startFrame_started
      { nextFrame { hc with frame := none } with doneCount := countDown hc.doneCount }
      { hcca with frameNumber := (nextFrame { hc with frame := none }).hcFmNumber.setWidth 16 }
    exact ⟨hstart.frame, hstart.mem, hstart.hcHCCA, .counted hstays hstart.head hstart.count
      hstart.pending hstart.word⟩

end OpenXbox.Ohci.Frame
