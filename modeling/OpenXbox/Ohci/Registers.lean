import OpenXbox.Lib.Latch
import OpenXbox.Ohci.Composition

/-!
# The register file of the host controller

What the guest reads from the registers after a run, told from what it has written and from what has
happened since the last reset.
-/

namespace OpenXbox.Ohci.Registers

open OpenXbox.Lib.Run OpenXbox.Lib.Latch OpenXbox.Lib.Flags OpenXbox.Ohci.Memory
  OpenXbox.Ohci.HostController OpenXbox.Ohci.HubLikeness OpenXbox.Ohci.Composition
open OpenXbox.Ohci.HostController.OHCI (Settings)
open OpenXbox.Ohci.Service (Answer OHCI_DPTR_MASK)
open OpenXbox.Ohci.Frame (readHCCA OHCI_INTR_UE OHCI_INTR_MIE)
open OpenXbox.Ohci.FrameTimer (Time OHCI_CTL_HCFS Resume Suspend Reset)

/-! ## What an operation does to the registers -/

/-- The operation resets the controller. -/
def Resets (hc : OHCI) : Op → Prop
  | .write addr value _ =>
    (register addr = some 1 ∧ hc.state ≠ value &&& OHCI_CTL_HCFS ∧ value &&& OHCI_CTL_HCFS = Reset) ∨
      (register addr = some 2 ∧ SoftwareReset hc value)
  | _ => False

instance (hc : OHCI) (op : Op) : Decidable (Resets hc op) := by
  unfold Resets
  split <;> infer_instance

/-- The operation is a write to the register with this bit set. -/
def WritesBit (reg i : Nat) : Op → Prop
  | .write addr value _ => register addr = some reg ∧ value.getLsbD i = true
  | _ => False

/-- The frame boundary comes to its end. -/
def completesFrame (env : Env) (hc : OHCI) : Op → Bool
  | .frame ed _ => hc.alive ≠ [] && hc.hcHCCA ≠ 0 &&
    (OHCI.frameLists { hc with unrecoverable := false } env ed (readHCCA hc.host hc.hcHCCA)).any
      fun hc => !has hc.hcInterruptStatus OHCI_INTR_UE
  | _ => false

/-- The settings after a reset. -/
def initialSettings : Settings where
  hcRevision := 0x10
  hcInterrupt := OHCI_INTR_MIE
  hcHCCA := 0
  hcPeriodCurrentED := 0
  hcControlHeadED := 0
  hcBulkHeadED := 0
  hcFmInterval := 0x27782EDF
  hcPeriodicStart := 0
  hcLSThreshold := OHCI_LS_THRESH
  hcRhDescriptorA := OHCI_RHA_NOCP ||| OHCI_RHA_NPS ||| 4
  hcRhDescriptorB := 0

def nextSettings (hc : OHCI) (op : Op) : Settings :=
  if Resets hc op then initialSettings
  else
    match op with
    | .write addr value _ => (register addr).elim hc.settings fun reg => hc.settings.write reg value
    | _ => hc.settings

/-- What an operation leaves in HcControl; a device that wakes the controller up changes its state. -/
def controlUpdate (hc : OHCI) (op : Op) : Option Word :=
  if Resets hc op then some 0
  else
    match op with
    | .write addr value _ => if register addr = some 1 then some value else none
    | .wakeup i =>
      if hc.ports.attached i ∧ hc.state = Suspend then
        some ((hc.hcControl &&& ~~~OHCI_CTL_HCFS) ||| Resume)
      else none
    | _ => none

/-- The frames completed since the last reset. -/
def countFrames (env : Env) (hc : OHCI) (op : Op) (n : Nat) : Nat :=
  if Resets hc op then 0 else if completesFrame env hc op then n + 1 else n

/-- What an operation does to the registers. -/
structure Stepped (env : Env) (hc : OHCI) (op : Op) (hc' : OHCI) : Prop where
  settings : hc'.settings = nextSettings hc op
  control : hc'.hcControl = (controlUpdate hc op).getD hc.hcControl
  frameNumber : hc'.hcFmNumber = if Resets hc op then 0
    else if completesFrame env hc op then (hc.hcFmNumber + 1) &&& 0xFFFF else hc.hcFmNumber
  pending : ∀ i, ¬ Resets hc op → ¬ WritesBit 3 i op → hc.hcInterruptStatus.getLsbD i = true →
    hc'.hcInterruptStatus.getLsbD i = true

section Step

variable {env : Env} {hc hc' : OHCI} {op : Op} {addr value : Word} {now : Time} {ed : EndpointDescriptor}

theorem reset_stepped {hc₀ : OHCI} (hr : Resets hc op) (h : hc₀.stateReset = some hc') :
    Stepped env hc op hc' := by
  rcases Option.map_eq_some_iff.mp h with ⟨p, hp, rfl⟩
  refine ⟨?_, ?_, ?_, fun _ hno => absurd hr hno⟩
  · unfold nextSettings
    rw [if_pos hr]
    rfl
  · unfold controlUpdate
    rw [if_pos hr]
    exact (stateReset_quiet hp).1
  · rw [if_pos hr]

/-- A write to one of the registers that is no reset. -/
theorem write_stepped {reg : Nat} (haddr : register addr = some reg)
    (hr : ¬ Resets hc (.write addr value now)) (hs : hc'.settings = hc.settings.write reg value)
    (hc1 : hc'.hcControl = if reg = 1 then value else hc.hcControl) (hf : hc'.hcFmNumber = hc.hcFmNumber)
    (hp : ∀ i, ¬ (reg = 3 ∧ value.getLsbD i = true) → hc.hcInterruptStatus.getLsbD i = true →
      hc'.hcInterruptStatus.getLsbD i = true) : Stepped env hc (.write addr value now) hc' := by
  refine ⟨?_, ?_, ?_, fun i _ hno => hp i fun h => hno ⟨haddr.trans (congrArg some h.1), h.2⟩⟩
  · unfold nextSettings
    rw [if_neg hr]
    dsimp only
    rw [haddr]
    exact hs
  · unfold controlUpdate
    rw [if_neg hr]
    dsimp only
    rw [haddr, hc1]
    by_cases hreg : reg = 1 <;> simp [hreg]
  · rw [if_neg hr, hf]
    rfl

/-- The ports have nothing to do with the settings. -/
theorem writePorts_eq {op : RootHub.Op} (h : hc.writePorts op = some hc') :
    ∃ p, RootHub.step hc.ports op = some p ∧ hc' = hc.withPorts p := by
  rcases Option.map_eq_some_iff.mp h with ⟨p, hp, rfl⟩
  exact ⟨p, hp, rfl⟩

theorem write_of_ge {s : Settings} {reg : Nat} (h : 21 ≤ reg) : s.write reg value = s := by
  unfold Settings.write
  split <;> first | rfl | omega

theorem written_stepped {reg : Nat} (haddr : register addr = some reg)
    (h : Written hc value now reg hc') : Stepped env hc (.write addr value now) hc' := by
  have hreset : Resets hc (.write addr value now) ↔
      (reg = 1 ∧ hc.state ≠ value &&& OHCI_CTL_HCFS ∧ value &&& OHCI_CTL_HCFS = Reset) ∨
        (reg = 2 ∧ SoftwareReset hc value) := by
    dsimp only [Resets]
    rw [haddr, Option.some.injEq, Option.some.injEq]
  cases h with
  | control h =>
    cases changeState_changed h with
    | same hsame =>
      refine write_stepped haddr (hreset.not.mpr ?_) rfl rfl rfl fun _ _ => id
      simp [hsame]
    | start hold hnew =>
      refine write_stepped haddr (hreset.not.mpr ?_) rfl rfl rfl fun i _ hi => ?_
      · have hother : ¬ value &&& OHCI_CTL_HCFS = Reset := by
          rw [hnew]
          decide
        simp [hother]
      · exact (Raised.of_or (k := 0#32) hc.hcInterruptStatus BitVec.and_zero).getLsbD hi
    | stop hold hnew =>
      refine write_stepped haddr (hreset.not.mpr ?_) rfl rfl rfl fun _ _ => id
      have hother : ¬ value &&& OHCI_CTL_HCFS = Reset := by
        rw [hnew]
        decide
      simp [hother]
    | resume hold hnew =>
      refine write_stepped haddr (hreset.not.mpr ?_) rfl rfl rfl fun _ _ => id
      have hother : ¬ value &&& OHCI_CTL_HCFS = Reset := by
        rw [hnew]
        decide
      simp [hother]
    | reset hold hnew h => exact reset_stepped (hreset.mpr (.inl ⟨rfl, hold, hnew⟩)) h
  | commandStatus h =>
    unfold OHCI.writeCommandStatus at h
    dsimp only at h
    split at h
    · next hr => exact reset_stepped (hreset.mpr (.inr ⟨rfl, hr⟩)) h
    · next hno =>
      cases h
      refine write_stepped haddr (hreset.not.mpr ?_) rfl rfl rfl fun _ _ => id
      simpa [SoftwareReset] using hno
  | interruptStatus =>
    refine write_stepped haddr (hreset.not.mpr (by simp)) rfl rfl rfl fun i hno hi => ?_
    have hkept : value.getLsbD i = false := Bool.eq_false_iff.mpr fun hset => hno ⟨rfl, hset⟩
    dsimp only
    rw [BitVec.getLsbD_and, BitVec.getLsbD_not, hi, hkept, decide_eq_true (BitVec.lt_of_getLsbD hi)]
    rfl
  | rhStatus h =>
    rcases writePorts_eq h with ⟨p, hp, rfl⟩
    have hquiet : Quiet hc.ports p := step_quiet (show AboutPorts (.rhStatus value) from trivial) hp
    exact write_stepped haddr (hreset.not.mpr (by simp)) rfl hquiet.control rfl
      fun i _ hi => hquiet.raised.getLsbD hi
  | rhPortStatus hi h =>
    rcases writePorts_eq h with ⟨p, hp, rfl⟩
    have hquiet : Quiet hc.ports p :=
      step_quiet (show AboutPorts (.rhPortStatus _ value) from trivial) hp
    have hreg := portOf_some hi
    refine write_stepped haddr (hreset.not.mpr (by omega)) ?_ ?_ rfl
      fun i _ hi => hquiet.raised.getLsbD hi
    · exact (write_of_ge hreg.1).symm
    · rw [if_neg (by omega)]
      exact hquiet.control
  | stored hreg hport h =>
    have hcontrol : hc'.hcControl = hc.hcControl := congrArg RootHub.OHCI.hcControl h.ports
    refine write_stepped haddr (hreset.not.mpr (by simp [hreg])) h.settings ?_ h.frameNumber
      fun i _ hi => h.raised.getLsbD hi
    rw [if_neg hreg.1]
    exact hcontrol

/-- The operation is about the registers: the guest writes one, or a device wakes the controller. -/
def AboutRegisters : Op → Prop
  | .write _ _ _ | .wakeup _ => True
  | _ => False

/-- Any other operation. -/
theorem aside_stepped (hop : ¬ AboutRegisters op) (hs : hc'.settings = hc.settings)
    (hcontrol : hc'.hcControl = hc.hcControl)
    (hf : hc'.hcFmNumber = if completesFrame env hc op then (hc.hcFmNumber + 1) &&& 0xFFFF
      else hc.hcFmNumber)
    (hp : Raised 0#32 hc.hcInterruptStatus hc'.hcInterruptStatus) : Stepped env hc op hc' := by
  have hr : ¬ Resets hc op := by
    intro hr
    unfold Resets at hr
    split at hr
    · exact hop trivial
    · exact hr
  refine ⟨?_, ?_, ?_, fun i _ _ hi => hp.getLsbD hi⟩
  · unfold nextSettings
    rw [if_neg hr]
    split
    · exact absurd trivial hop
    · exact hs
  · unfold controlUpdate
    rw [if_neg hr]
    split
    · exact absurd trivial hop
    · exact absurd trivial hop
    · exact hcontrol
  · rw [if_neg hr]
    exact hf

/-- What the end of a frame leaves of the registers. -/
structure Kept (f f' : Frame.OHCI) : Prop where
  raised : Raised 0#32 f.hcInterruptStatus f'.hcInterruptStatus
  interrupt : f'.hcInterrupt = f.hcInterrupt
  hcca : f'.hcHCCA = f.hcHCCA
  interval : f'.hcFmInterval = f.hcFmInterval
  number : f'.hcFmNumber = f.hcFmNumber

theorem Kept.trans {f f' f'' : Frame.OHCI} (h : Kept f f') (h' : Kept f' f'') : Kept f f'' :=
  ⟨h.raised.trans h'.raised, h'.interrupt.trans h.interrupt, h'.hcca.trans h.hcca,
    h'.interval.trans h.interval, h'.number.trans h.number⟩

theorem handOver_kept (f : Frame.OHCI) (hcca : Frame.Hcca) : Kept f (Frame.handOver f hcca).1 := by
  unfold Frame.handOver
  split
  · exact ⟨.of_or _ BitVec.and_zero, rfl, rfl, rfl, rfl⟩
  · exact ⟨.refl _ _, rfl, rfl, rfl, rfl⟩

theorem setInterrupt_kept (f : Frame.OHCI) (value : Word) : Kept f (f.setInterrupt value) :=
  ⟨.of_or _ BitVec.and_zero, rfl, rfl, rfl, rfl⟩

theorem fatal_kept (f : Frame.OHCI) : Kept f f.fatal := by
  have hkept := setInterrupt_kept { f with toController := f.fatalError } OHCI_INTR_UE
  exact ⟨hkept.raised, rfl, rfl, rfl, rfl⟩

theorem writeHCCA_kept (f : Frame.OHCI) (host : Word → Byte) : Kept f { f with host := host } :=
  ⟨.refl _ _, rfl, rfl, rfl, rfl⟩

theorem startFrame_kept (f : Frame.OHCI) (hcca : Frame.Hcca) : Kept f (Frame.startFrame f hcca) := by
  have hsf := setInterrupt_kept f Frame.OHCI_INTR_SF
  unfold Frame.startFrame
  dsimp only
  split
  · exact hsf.trans (fatal_kept _)
  · exact hsf.trans (writeHCCA_kept _ _)

theorem nextFrame_kept (f : Frame.OHCI) : (Frame.nextFrame f).hcInterruptStatus = f.hcInterruptStatus ∧
    (Frame.nextFrame f).hcInterrupt = f.hcInterrupt ∧ (Frame.nextFrame f).hcHCCA = f.hcHCCA ∧
    (Frame.nextFrame f).hcFmInterval = f.hcFmInterval ∧
    (Frame.nextFrame f).hcFmNumber = (f.hcFmNumber + 1) &&& 0xFFFF := ⟨rfl, rfl, rfl, rfl, rfl⟩

/-- The next frame has the next number. -/
theorem endFrame_eq {hcca : Frame.Hcca} (h : hc.endFrame hcca now = some hc') :
    hc'.settings = hc.settings ∧ hc'.hcControl = hc.hcControl ∧
      hc'.hcFmNumber = (hc.hcFmNumber + 1) &&& 0xFFFF ∧
      Raised 0#32 hc.hcInterruptStatus hc'.hcInterruptStatus := by
  rcases Option.map_eq_some_iff.mp h with ⟨timer, -, rfl⟩
  rcases nextFrame_kept hc.toOHCI with ⟨hstatus, hinterrupt, hhcca, hinterval, hnumber⟩
  generalize Frame.nextFrame hc.toOHCI = f at hstatus hinterrupt hhcca hinterval hnumber ⊢
  have hover := handOver_kept f { hcca with frameNumber := f.hcFmNumber.setWidth 16 }
  generalize Frame.handOver f { hcca with frameNumber := f.hcFmNumber.setWidth 16 } = r at hover ⊢
  have hcounted : Kept r.1 { r.1 with doneCount := Frame.countDown r.1.doneCount } :=
    ⟨.refl _ _, rfl, rfl, rfl, rfl⟩
  have hkept := hover.trans
    (hcounted.trans (startFrame_kept { r.1 with doneCount := Frame.countDown r.1.doneCount } r.2))
  generalize Frame.startFrame { r.1 with doneCount := Frame.countDown r.1.doneCount } r.2 = g
    at hkept ⊢
  have hsettings : OHCI.settings { hc with toOHCI := g, sofTime := now } = hc.settings := by
    simp only [OHCI.settings, hkept.interrupt, hkept.hcca, hkept.interval, hinterrupt, hhcca, hinterval]
  have hraised : Raised 0#32 hc.hcInterruptStatus g.hcInterruptStatus := hstatus ▸ hkept.raised
  dsimp only
  split
  · exact ⟨hsettings, rfl, hkept.number.trans hnumber, hraised⟩
  · exact ⟨hsettings, rfl, hkept.number.trans hnumber, hraised⟩

theorem frameBoundary_stepped (halive : hc.alive ≠ []) (h : hc.frameBoundary env ed now = some hc') :
    Stepped env hc (.frame ed now) hc' := by
  unfold OHCI.frameBoundary at h
  by_cases hzero : hc.hcHCCA = 0
  · rw [if_pos hzero] at h
    cases h
    refine aside_stepped (fun hop => hop) rfl rfl ?_
      (.of_or _ BitVec.and_zero)
    simp [completesFrame, hzero]
    rfl
  rw [if_neg hzero] at h
  rcases Option.bind_eq_some_iff.mp h with ⟨hc₁, hlists, hend⟩
  have hlisted := frameLists_listed hlists
  have hcontrol : hc₁.hcControl = hc.hcControl := hlisted.ports.control
  have hcompletes : completesFrame env hc (.frame ed now) =
      !has hc₁.hcInterruptStatus OHCI_INTR_UE := by
    have hne : hc.hcHCCA ≠ 0#32 := hzero
    simp [completesFrame, halive, hne, hlists]
  split at hend
  · next hue =>
    cases hend
    refine aside_stepped (fun hop => hop) hlisted.settings hcontrol ?_
      hlisted.raised
    rw [hcompletes, hue]
    exact hlisted.frameNumber
  · next hue =>
    rcases endFrame_eq hend with ⟨hsettings, hcontrol', hnumber, hraised⟩
    refine aside_stepped (fun hop => hop) (hsettings.trans hlisted.settings)
      (hcontrol'.trans hcontrol) ?_ (hlisted.raised.trans hraised)
    rw [hcompletes, Bool.eq_false_iff.mpr hue, hnumber, hlisted.frameNumber]
    rfl

/-- An unaligned write is ignored. -/
theorem unaligned_stepped (haddr : register addr = none) :
    Stepped env hc (.write addr value now) hc := by
  have hno : ¬ Resets hc (.write addr value now) := by
    dsimp only [Resets]
    simp [haddr]
  refine ⟨?_, ?_, ?_, fun _ _ _ => id⟩
  · unfold nextSettings
    rw [if_neg hno]
    dsimp only
    rw [haddr]
    rfl
  · unfold controlUpdate
    rw [if_neg hno]
    dsimp only
    rw [haddr]
    simp
  · rw [if_neg hno]
    rfl

theorem wakeup_stepped {i : Fin 4} (h : hc.writePorts (.wakeup i) = some hc') :
    Stepped env hc (.wakeup i) hc' := by
  rcases writePorts_eq h with ⟨p, hp, rfl⟩
  have hupdate : controlUpdate hc (.wakeup i) = if hc.ports.attached i ∧ hc.state = Suspend
      then some ((hc.hcControl &&& ~~~OHCI_CTL_HCFS) ||| Resume) else none := rfl
  dsimp only [RootHub.step] at hp
  split at hp
  · next hattached =>
    rcases wakeup_resumes hp with ⟨hcontrol, hraised⟩
    refine ⟨rfl, ?_, rfl, fun i _ _ hi => hraised.getLsbD hi⟩
    rw [hupdate]
    by_cases hsuspend : hc.state = Suspend
    · rw [if_pos ⟨hattached, hsuspend⟩]
      exact hcontrol.trans (if_pos hsuspend)
    · rw [if_neg fun hno => hsuspend hno.2]
      exact hcontrol.trans (if_neg hsuspend)
  · next hfree =>
    cases hp
    refine ⟨rfl, ?_, rfl, fun _ _ _ => id⟩
    rw [hupdate, if_neg fun hno => hfree hno.1]
    rfl

theorem step_stepped (h : step env hc op = some hc') : Stepped env hc op hc' := by
  cases op with
  | read addr now =>
    rcases Option.map_eq_some_iff.mp h with ⟨value, -, rfl⟩
    exact aside_stepped (fun hop => hop) rfl rfl rfl (.refl _ _)
  | write addr value now =>
    dsimp only [step] at h
    cases haddr : register addr with
    | none =>
      rw [OHCI.writeRegister, haddr] at h
      cases h
      exact unaligned_stepped haddr
    | some reg => exact written_stepped haddr (writeRegister_written haddr h)
  | attach i speed =>
    rcases writePorts_eq h with ⟨p, hp, rfl⟩
    have hquiet : Quiet hc.ports p := step_quiet (show AboutPorts (.attach i speed) from trivial) hp
    exact aside_stepped (fun hop => hop) rfl hquiet.control rfl
      hquiet.raised.any
  | detach i waits =>
    rcases writePorts_eq h with ⟨p, hp, rfl⟩
    have hquiet : Quiet _ p := step_quiet (show AboutPorts (.detach i) from trivial) hp
    have hlisted := asyncCancelDevice_listed hc waits
    exact aside_stepped (fun hop => hop) hlisted.settings
      (hquiet.control.trans hlisted.ports.control) hlisted.frameNumber
      (hlisted.raised.trans hquiet.raised.any)
  | childDetach waits =>
    cases h
    have hlisted := asyncCancelDevice_listed hc waits
    exact aside_stepped (fun hop => hop) hlisted.settings
      hlisted.ports.control hlisted.frameNumber hlisted.raised
  | wakeup i => exact wakeup_stepped h
  | frame ed now =>
    dsimp only [step] at h
    split at h
    · next halive =>
      cases h
      refine aside_stepped (fun hop => hop) rfl rfl ?_ (.refl _ _)
      simp [completesFrame, halive]
    · next halive => exact frameBoundary_stepped halive h
  | complete packet data ed =>
    have hlisted := processLists_listed h
    exact aside_stepped (fun hop => hop) hlisted.settings
      hlisted.ports.control hlisted.frameNumber hlisted.raised
  | memory mem host =>
    cases h
    exact aside_stepped (fun hop => hop) rfl rfl rfl (.refl _ _)

end Step

/-! ## What is read -/

/-- The registers that are written to as a whole, with the bits they have and what a reset leaves. -/
def storedReg : Nat → Option (Word × Word)
  | 6 => some (OHCI_HCCA_MASK, 0)
  | 8 => some (OHCI_DPTR_MASK, 0)
  | 10 => some (OHCI_DPTR_MASK, 0)
  | 13 => some (~~~0xC000, 0x27782EDF)
  | 16 => some (0x3FFF, 0)
  | 17 => some (0xFFF, OHCI_LS_THRESH)
  | _ => none

/-- The registers that the guest does not change. -/
def fixedReg : Nat → Option Word
  | 0 => some 0x10
  | 7 => some 0
  | 18 => some 0x1204
  | 19 => some 0
  | _ => none

/-- What an operation leaves in a register that is written to as a whole. -/
def storedUpdate (reg : Nat) (mask initial : Word) (hc : OHCI) (op : Op) : Option Word :=
  if Resets hc op then some initial
  else
    match op with
    | .write addr value _ => if register addr = some reg then some (value &&& mask) else none
    | _ => none

/-- The interrupt is enabled by a write, or is the one that is enabled by a reset. -/
def Enables (i : Nat) (hc : OHCI) (op : Op) : Prop := (Resets hc op ∧ i = 31) ∨ WritesBit 4 i op

def Disables (i : Nat) (hc : OHCI) (op : Op) : Prop := Resets hc op ∨ WritesBit 5 i op

def Acknowledges (i : Nat) (hc : OHCI) (op : Op) : Prop := Resets hc op ∨ WritesBit 3 i op

/-- A setting, by its register. -/
def Settings.read (s : Settings) : Nat → Option Word
  | 0 => some s.hcRevision
  | 4 | 5 => some s.hcInterrupt
  | 6 => some s.hcHCCA
  | 7 => some s.hcPeriodCurrentED
  | 8 => some s.hcControlHeadED
  | 10 => some s.hcBulkHeadED
  | 13 => some s.hcFmInterval
  | 16 => some s.hcPeriodicStart
  | 17 => some s.hcLSThreshold
  | 18 => some s.hcRhDescriptorA
  | 19 => some s.hcRhDescriptorB
  | _ => none

/-- The registers after a run over `ops` from `start`. -/
structure ReadsBack (env : Env) (start : OHCI) (ops : List Op) (hc : OHCI) : Prop where
  fixed : ∀ addr reg value now, register addr = some reg → fixedReg reg = some value →
    hc.readRegister addr now = some value
  /-- Such a register has what was written to it last, or what the last reset has left. -/
  stored : ∀ addr reg mask initial now, register addr = some reg → storedReg reg = some (mask, initial) →
    hc.readRegister addr now =
      some ((lastUpdate (step env) (storedUpdate reg mask initial) start ops).getD initial)
  /-- An interrupt is enabled that has been and not disabled since; the master bit is at first. -/
  enabled : ∀ addr now, register addr = some 4 ∨ register addr = some 5 →
    ∃ value, hc.readRegister addr now = some value ∧ ∀ i, value.getLsbD i = true ↔
      Outstanding (step env) (Enables i) (Disables i) start ops ∨
        (i = 31 ∧ Guarded (step env) (fun hc op => ¬ Disables i hc op) start ops)
  /-- An interrupt that was pending still is, unless it has been acknowledged. -/
  pending : ∀ pre post u i addr now, ops = pre ++ post → exec (step env) start pre = some u →
    u.hcInterruptStatus.getLsbD i = true →
    Guarded (step env) (fun hc op => ¬ Acknowledges i hc op) u post → register addr = some 3 →
    ∃ value, hc.readRegister addr now = some value ∧ value.getLsbD i = true
  /-- HcFmNumber counts the frames. -/
  frames : ∀ addr now, register addr = some 15 →
    hc.readRegister addr now =
      some (BitVec.ofNat 32 (track (step env) (countFrames env) start ops 0 % 65536))
  control : ∀ addr now, register addr = some 1 →
    hc.readRegister addr now = some ((lastUpdate (step env) controlUpdate start ops).getD 0)

section Read

variable {env : Env} {start hc hc' : OHCI} {op : Op} {ops : List Op} {addr value : Word} {now : Time}
  {reg : Nat}

theorem readRegister_settings (haddr : register addr = some reg)
    (h : Settings.read hc.settings reg = some value) : hc.readRegister addr now = some value := by
  unfold OHCI.readRegister
  rw [haddr]
  unfold Settings.read at h
  split at h <;> first | exact h | cases h

theorem read_write {mask initial : Word} (s : Settings) (r : Nat)
    (hreg : storedReg reg = some (mask, initial)) :
    Settings.read (s.write r value) reg =
      if r = reg then some (value &&& mask) else Settings.read s reg := by
  unfold storedReg at hreg
  split at hreg <;> cases hreg <;> unfold Settings.write <;> split <;> simp_all [Settings.read]

theorem read_initial {mask initial : Word} (hreg : storedReg reg = some (mask, initial)) :
    Settings.read initialSettings reg = some initial := by
  unfold storedReg at hreg
  split at hreg <;> cases hreg <;> rfl

/-- What an operation leaves in a register that is written to as a whole. -/
theorem stored_step {mask initial : Word} (hreg : storedReg reg = some (mask, initial))
    (h : step env hc op = some hc') : (Settings.read hc'.settings reg).getD 0 =
      (storedUpdate reg mask initial hc op).getD ((Settings.read hc.settings reg).getD 0) := by
  rw [(step_stepped h).settings]
  unfold nextSettings storedUpdate
  by_cases hr : Resets hc op
  · rw [if_pos hr, if_pos hr, read_initial hreg]
    rfl
  rw [if_neg hr, if_neg hr]
  cases op with
  | write addr value now =>
    dsimp only
    cases haddr : register addr with
    | none => simp
    | some r =>
      rw [Option.elim_some, read_write hc.settings r hreg]
      by_cases hr : r = reg <;> simp [hr]
  | _ => rfl

theorem read_isSome {mask initial : Word} (s : Settings) (hreg : storedReg reg = some (mask, initial)) :
    Settings.read s reg = some ((Settings.read s reg).getD 0) := by
  unfold storedReg at hreg
  split at hreg <;> cases hreg <;> rfl

/-- No bit of HcRhDescriptorA is written. -/
theorem descriptorA_fixed (x y : Word) : x &&& ~~~OHCI_RHA_RW_MASK ||| y &&& OHCI_RHA_RW_MASK = x := by
  have hnone : OHCI_RHA_RW_MASK = 0#32 := rfl
  have hall : ~~~(0#32) = BitVec.allOnes 32 := by decide
  rw [hnone, BitVec.and_zero, BitVec.or_zero, hall, BitVec.and_allOnes]

/-- The guest cannot change what is fixed. -/
theorem fixed_step (hfixed : fixedReg reg = some value) (h : step env hc op = some hc')
    (hread : Settings.read hc.settings reg = some value) :
    Settings.read hc'.settings reg = some value := by
  rw [(step_stepped h).settings]
  unfold nextSettings
  split
  · unfold fixedReg at hfixed
    split at hfixed <;> cases hfixed <;> rfl
  · cases op with
    | write addr w now =>
      dsimp only
      cases register addr with
      | none => exact hread
      | some r =>
        rw [← hread, Option.elim_some]
        unfold fixedReg at hfixed
        split at hfixed <;> cases hfixed <;> unfold Settings.write <;> split <;>
          simp [Settings.read, descriptorA_fixed]
    | _ => exact hread

theorem hcInterrupt_write (s : Settings) (r i : Nat) : (s.write r value).hcInterrupt.getLsbD i = true ↔
    (r = 4 ∧ value.getLsbD i = true) ∨
      (s.hcInterrupt.getLsbD i = true ∧ ¬ (r = 5 ∧ value.getLsbD i = true)) := by
  unfold Settings.write
  split
  · simp [or_comm]
  · have hlt : s.hcInterrupt.getLsbD i = true → i < 32 := BitVec.lt_of_getLsbD
    simp only [BitVec.getLsbD_and, BitVec.getLsbD_not, Bool.and_eq_true, decide_eq_true_eq]
    grind
  all_goals simp_all

theorem resets_not_writesBit {i : Nat} (hr : Resets hc op) (h3 : 3 ≤ reg) : ¬ WritesBit reg i op := by
  intro hw
  cases op with
  | write addr value now =>
    rcases hr with ⟨haddr, -⟩ | ⟨haddr, -⟩
    · have hreg := haddr.symm.trans hw.1
      simp at hreg
      omega
    · have hreg := haddr.symm.trans hw.1
      simp at hreg
      omega
  | _ => exact hw

theorem initial_enabled (i : Nat) : initialSettings.hcInterrupt.getLsbD i = true ↔ i = 31 := by
  have hmie : initialSettings.hcInterrupt = BitVec.twoPow 32 31 := by decide
  rw [hmie]
  simp [BitVec.getLsbD_twoPow, eq_comm]

/-- A bit of HcInterruptEnable is set and cleared by writes. -/
theorem enabled_step (i : Nat) (h : step env hc op = some hc') :
    hc'.hcInterrupt.getLsbD i = true ↔ Enables i hc op ∨
      (hc.hcInterrupt.getLsbD i = true ∧ ¬ Disables i hc op) := by
  have hsettings : hc'.hcInterrupt = (nextSettings hc op).hcInterrupt :=
    congrArg Settings.hcInterrupt (step_stepped h).settings
  rw [hsettings]
  unfold nextSettings Enables Disables
  by_cases hr : Resets hc op
  · have hmaster := initial_enabled i
    have hno := resets_not_writesBit (i := i) hr (show 3 ≤ 4 by decide)
    simp [hr, hmaster, hno]
  · rw [if_neg hr]
    cases op with
    | write addr value now =>
      cases haddr : register addr with
      | none => simp [hr, WritesBit, haddr, OHCI.settings]
      | some r =>
        dsimp only
        rw [haddr, Option.elim_some, hcInterrupt_write]
        simp [hr, WritesBit, haddr, OHCI.settings]
    | _ => simp [hr, WritesBit, OHCI.settings]

theorem pending_step {i : Nat} (hi : hc.hcInterruptStatus.getLsbD i = true)
    (hno : ¬ Acknowledges i hc op) (h : step env hc op = some hc') :
    hc'.hcInterruptStatus.getLsbD i = true :=
  (step_stepped h).pending i (fun hr => hno (.inl hr)) (fun hw => hno (.inr hw)) hi

/-- A frame has the number of the one before and one. -/
theorem next_number (n : Nat) : (BitVec.ofNat 32 (n % 65536) + 1) &&& 0xFFFF =
    BitVec.ofNat 32 ((n + 1) % 65536) := by
  have hmask : (0xFFFF : Word) = Lib.Bits.lowMask 16 := by decide
  rw [hmask, ← BitVec.toNat_inj, Lib.Bits.toNat_and_lowMask _ (by decide), BitVec.toNat_add,
    BitVec.toNat_ofNat, BitVec.toNat_ofNat]
  simp
  omega

theorem number_step {n : Nat} (hn : hc.hcFmNumber = BitVec.ofNat 32 (n % 65536))
    (h : step env hc op = some hc') :
    hc'.hcFmNumber = BitVec.ofNat 32 (countFrames env hc op n % 65536) := by
  rw [(step_stepped h).frameNumber, hn]
  unfold countFrames
  split
  · rfl
  split
  · exact next_number n
  · rfl

end Read

/-- After every run the guest reads what it has written last, with what a reset, a wake-up, the frames
and the interrupts have changed since. -/
theorem registers_read_back {env : Env} {irqNum : Nat} {sofTime : Time} {mem : GuestMemory}
    {host : Word → Byte} {ops : List Op} {hc : OHCI}
    (h : exec (step env) (OHCI.construct irqNum sofTime mem host) ops = some hc) :
    ReadsBack env (OHCI.construct irqNum sofTime mem host) ops hc := by
  set start := OHCI.construct irqNum sofTime mem host with hstart
  have hmaster (i : Nat) : start.hcInterrupt.getLsbD i = true ↔ i = 31 := initial_enabled i
  refine ⟨?_, ?_, ?_, ?_, ?_, ?_⟩
  · intro addr reg value now haddr hfixed
    refine readRegister_settings haddr (exec_invariant (I := fun hc => Settings.read hc.settings reg =
      some value) (fun _ _ _ hi hs => fixed_step hfixed hs hi) ?_ h)
    unfold fixedReg at hfixed
    split at hfixed <;> cases hfixed <;> rfl
  · intro addr reg mask initial now haddr hreg
    have hstored (s : OHCI) (op : Op) (s' : OHCI) (_ : True) (hs : step env s op = some s') :
        (Settings.read s'.settings reg).getD 0 =
          (storedUpdate reg mask initial s op).getD ((Settings.read s.settings reg).getD 0) :=
      stored_step hreg hs
    have hvalue := reg_eq_lastUpdate (fun _ _ _ _ _ => trivial) hstored trivial h
    have hinitial : Settings.read start.settings reg = some initial := read_initial hreg
    refine readRegister_settings haddr ?_
    rw [read_isSome hc.settings hreg, hvalue, hinitial]
    rfl
  · intro addr now haddr
    refine ⟨hc.hcInterrupt, ?_, fun i => ?_⟩
    · rcases haddr with haddr | haddr <;> exact readRegister_settings haddr rfl
    · have henabled (s : OHCI) (op : Op) (s' : OHCI) (_ : True) (hs : step env s op = some s') :
          s'.hcInterrupt.getLsbD i = true ↔
            Enables i s op ∨ (s.hcInterrupt.getLsbD i = true ∧ ¬ Disables i s op) :=
        enabled_step i hs
      rw [flag_iff (fun _ _ _ _ _ => trivial) henabled trivial h, hmaster i]
  · intro pre post u i addr now hops hu hi hguard haddr
    rw [hops, exec_append, hu, Option.bind_some] at h
    refine ⟨hc.hcInterruptStatus, ?_, ?_⟩
    · unfold OHCI.readRegister
      rw [haddr]
      rfl
    · exact (always_of_guarded (I := fun hc => hc.hcInterruptStatus.getLsbD i = true)
        (fun _ _ _ hi hno hs => pending_step hi hno hs) hi hguard).exec h
  · intro addr now haddr
    have hnumber := exec_track (R := fun hc n => hc.hcFmNumber = BitVec.ofNat 32 (n % 65536))
      (fun _ _ _ _ hn hs => number_step hn hs) (b := 0) rfl h
    unfold OHCI.readRegister
    rw [haddr]
    exact congrArg some hnumber
  · intro addr now haddr
    have hcontrol : hc.hcControl =
        (lastUpdate (step env) controlUpdate start ops).getD start.hcControl :=
      reg_eq_lastUpdate (fun _ _ _ _ _ => trivial)
        (fun _ _ _ (_ : True) hs => (step_stepped hs).control) trivial h
    unfold OHCI.readRegister
    rw [haddr]
    exact congrArg some hcontrol

theorem oneFrame_reads_back : ∃ hc,
    exec (step ⟨8, Service.eightBytes⟩)
      (OHCI.construct 1 0 (Service.memoryOver []) fun _ => 0) oneFrame = some hc ∧
    ReadsBack ⟨8, Service.eightBytes⟩ (OHCI.construct 1 0 (Service.memoryOver []) fun _ => 0) oneFrame hc :=
  ⟨_, rfl, registers_read_back rfl⟩

end OpenXbox.Ohci.Registers
