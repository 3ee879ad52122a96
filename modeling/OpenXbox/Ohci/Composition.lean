import OpenXbox.Lib.Parts
import OpenXbox.Ohci.HostController
import OpenXbox.Ohci.HubLikeness
import OpenXbox.Ohci.Progress

/-!
# The parts of the host controller

The timer of the frames and the root hub are parts of the controller: in every run of it they do what
they do alone with their shares of the operations.
-/

namespace OpenXbox.Ohci.Composition

open OpenXbox.Lib.Run OpenXbox.Lib.Flags OpenXbox.Ohci.Memory OpenXbox.Ohci.HostController
  OpenXbox.Ohci.HubLikeness
open OpenXbox.Ohci.Service (Controller Answer UsbPacket OHCI_DPTR_MASK serviceEDlist)
open OpenXbox.Ohci.Frame (Hcca readHCCA nextFrame handOver countDown startFrame OHCI_INTR_UE OHCI_INTR_SF
  OHCI_FMI_FIT OHCI_FMR_FRT)
open OpenXbox.Ohci.FrameTimer (Time OHCI_CTL_HCFS Operational Resume Suspend Reset)
open OpenXbox.Ohci.RootHub (OHCI_STATUS_HCR OHCI_STATUS_SOC)

/-! ## What a write does -/

section Writes

variable {hc hc' : OHCI} {addr value : Word} {now : Time} {reg : Nat}

/-- A write to a register that is about neither states, interrupts that wait nor ports. -/
structure Stored (hc : OHCI) (reg : Nat) (value : Word) (hc' : OHCI) : Prop where
  settings : hc'.settings = hc.settings.write reg value
  ports : hc'.ports = hc.ports
  timer : hc'.timer = { hc.timer with hcFmInterval := (hc.settings.write reg value).hcFmInterval }
  frameNumber : hc'.hcFmNumber = hc.hcFmNumber
  raised : Raised 0#32 hc.hcInterruptStatus hc'.hcInterruptStatus

/-- What a write to a register does. -/
inductive Written (hc : OHCI) (value : Word) (now : Time) : Nat → OHCI → Prop where
  | control {hc' : OHCI} (h : hc.changeState value now = some hc') : Written hc value now 1 hc'
  | commandStatus {hc' : OHCI} (h : hc.writeCommandStatus value = some hc') : Written hc value now 2 hc'
  | interruptStatus :
    Written hc value now 3 { hc with hcInterruptStatus := hc.hcInterruptStatus &&& ~~~value }
  | rhStatus {hc' : OHCI} (h : hc.writePorts (.rhStatus value) = some hc') : Written hc value now 20 hc'
  | rhPortStatus {reg : Nat} {hc' : OHCI} {i : Fin 4} (hi : portOf reg = some i)
    (h : hc.writePorts (.rhPortStatus i value) = some hc') : Written hc value now reg hc'
  | stored {reg : Nat} {hc' : OHCI} (hreg : reg ≠ 1 ∧ reg ≠ 2 ∧ reg ≠ 3 ∧ reg ≠ 20)
    (hport : portOf reg = none) (h : Stored hc reg value hc') : Written hc value now reg hc'

theorem writeRegister_written (haddr : register addr = some reg)
    (h : hc.writeRegister addr value now = some hc') : Written hc value now reg hc' := by
  unfold OHCI.writeRegister at h
  rw [haddr] at h
  dsimp only at h
  split at h
  case h_1 => exact .control h
  case h_2 => exact .commandStatus h
  case h_3 =>
    cases h
    exact .interruptStatus
  case h_15 => exact .rhStatus h
  case h_16 =>
    split at h
    · next i hi => exact .rhPortStatus hi h
    · next hport =>
      cases h
      have hsame : hc.settings.write reg value = hc.settings := by
        unfold OHCI.Settings.write
        split <;> simp_all
      refine .stored (by simp_all) hport ⟨hsame.symm, rfl, ?_, rfl, .refl _ _⟩
      rw [hsame]
      rfl
  all_goals
    cases h
    exact .stored (by decide) (by decide) ⟨rfl, rfl, rfl, rfl, .refl _ _⟩

/-- There are four states. -/
theorem state_cases (value : Word) : value &&& OHCI_CTL_HCFS = Operational ∨
    value &&& OHCI_CTL_HCFS = Suspend ∨ value &&& OHCI_CTL_HCFS = Resume ∨
    value &&& OHCI_CTL_HCFS = Reset := by
  have hmask : OHCI_CTL_HCFS = BitVec.twoPow 32 6 ||| BitVec.twoPow 32 7 := by decide
  rw [hmask, BitVec.and_or_distrib_left, BitVec.and_twoPow, BitVec.and_twoPow]
  split_ifs <;> decide

/-- What a write to HcControl does. -/
inductive Changed (hc : OHCI) (value : Word) (now : Time) : OHCI → Prop where
  | same (h : hc.state = value &&& OHCI_CTL_HCFS) : Changed hc value now { hc with hcControl := value }
  | start (hold : hc.state ≠ value &&& OHCI_CTL_HCFS) (hnew : value &&& OHCI_CTL_HCFS = Operational) :
    Changed hc value now (OHCI.setInterrupt { hc with
      hcControl := value
      eofTimer := some hc.created
      alive := hc.alive ++ [hc.created]
      created := hc.created + 1
      sofTime := now } OHCI_INTR_SF)
  | stop (hold : hc.state ≠ value &&& OHCI_CTL_HCFS) (hnew : value &&& OHCI_CTL_HCFS = Suspend) :
    Changed hc value now (OHCI.busStop { hc with hcControl := value })
  | resume (hold : hc.state ≠ value &&& OHCI_CTL_HCFS) (hnew : value &&& OHCI_CTL_HCFS = Resume) :
    Changed hc value now { hc with hcControl := value }
  | reset {hc' : OHCI} (hold : hc.state ≠ value &&& OHCI_CTL_HCFS)
    (hnew : value &&& OHCI_CTL_HCFS = Reset) (h : OHCI.stateReset { hc with hcControl :=
    value } = some hc') :
    Changed hc value now hc'

theorem changeState_changed (h : hc.changeState value now = some hc') : Changed hc value now hc' := by
  unfold OHCI.changeState at h
  dsimp only at h
  have hstate : OHCI.state { hc with hcControl := value } = value &&& OHCI_CTL_HCFS := rfl
  rw [hstate] at h
  by_cases hsame : hc.state = value &&& OHCI_CTL_HCFS
  · rw [if_pos hsame] at h
    cases h
    exact .same hsame
  rw [if_neg hsame] at h
  rcases state_cases value with hnew | hnew | hnew | hnew
  · rw [if_pos hnew] at h
    cases h
    exact .start hsame hnew
  · rw [hnew] at h
    cases h
    exact .stop hsame hnew
  · rw [hnew] at h
    cases h
    exact .resume hsame hnew
  · rw [hnew] at h
    exact .reset hsame hnew h

end Writes

/-! ## The timer -/

section Timer

variable {env : Env} {hc hc' : OHCI} {ed : EndpointDescriptor} {now : Time} {value : Word}

open FrameTimer (FrameErrors)

/-- What goes wrong in a frame boundary. -/
def frameErrors (env : Env) (hc : OHCI) (ed : EndpointDescriptor) : FrameErrors where
  read := hc.hcHCCA = 0
  lists := (OHCI.frameLists { hc with unrecoverable := false } env ed
    (readHCCA hc.host hc.hcHCCA)).any (·.unrecoverable)
  write := false

/-- The write asks for a reset. -/
def SoftwareReset (hc : OHCI) (value : Word) : Prop :=
  has (hc.hcCommandStatus ||| (value &&& ~~~OHCI_STATUS_SOC)) OHCI_STATUS_HCR

instance (hc : OHCI) (value : Word) : Decidable (SoftwareReset hc value) :=
  inferInstanceAs (Decidable (_ = true))

/-- What the timer is told of a write. -/
def writeShare (hc : OHCI) (reg : Nat) (value : Word) (now : Time) : List FrameTimer.Op :=
  match reg with
  | 1 => [.control value now]
  | 2 => if SoftwareReset hc value then [.softwareReset] else []
  | 3 => [.interruptStatus value]
  | 13 => [.fmInterval value]
  | _ => []

/-- What the timer is told of an operation. -/
def timerShare (env : Env) (hc : OHCI) : Op → List FrameTimer.Op
  | .read addr now => if register addr = some 14 then [.fmRemaining now] else []
  | .write addr value now => (register addr).elim [] fun reg => writeShare hc reg value now
  | .wakeup i => if hc.ports.attached i then [.wakeup] else []
  | .frame ed now => [.frame (frameErrors env hc ed) now]
  | .complete packet data ed =>
    if (hc.asyncCompletePacket env packet data ed).any (·.unrecoverable) then [.fatalError] else []
  | _ => []

theorem withPorts_timer {p : RootHub.OHCI}
    (h : has p.hcInterruptStatus OHCI_INTR_UE = has hc.hcInterruptStatus OHCI_INTR_UE) :
    (hc.withPorts p).timer = { hc.timer with hcControl := p.hcControl } := by
  have hset : (hc.withPorts p).timer = { hc.timer with
      hcControl := p.hcControl
      unrecoverable := has p.hcInterruptStatus OHCI_INTR_UE } := rfl
  rw [hset, h]
  rfl

theorem writePorts_timer {op : RootHub.Op} (hop : AboutPorts op) (h : hc.writePorts op = some hc') :
    hc'.timer = hc.timer := by
  rcases Option.map_eq_some_iff.mp h with ⟨p, hp, rfl⟩
  have hquiet := step_quiet hop hp
  rw [withPorts_timer hquiet.raised.has_eq, hquiet.control]
  rfl

theorem stateReset_timer (h : hc.stateReset = some hc') : hc'.timer = hc.timer.stateReset := by
  rcases Option.map_eq_some_iff.mp h with ⟨p, hp, rfl⟩
  rcases stateReset_quiet hp with ⟨hcontrol, herror⟩
  change { hc.busStop.timer with
    hcControl := p.hcControl
    unrecoverable := has p.hcInterruptStatus OHCI_INTR_UE
    hcFmInterval := 0x27782EDF
    hcFmRemaining := 0 } = hc.timer.stateReset
  rw [hcontrol, herror]
  rfl

theorem fatalError_timer (hc : OHCI) : hc.fatalError.timer = hc.timer.fatalError := by
  have herror : has (hc.hcInterruptStatus ||| OHCI_INTR_UE) OHCI_INTR_UE :=
    has_or_of_has (by decide)
  change { hc.busStop.timer with
    unrecoverable := has (hc.hcInterruptStatus ||| OHCI_INTR_UE) OHCI_INTR_UE } = hc.timer.fatalError
  rw [herror]
  rfl

/-- Telling of an interrupt that is no error. -/
theorem setInterrupt_timer (h : value &&& OHCI_INTR_UE = 0#32) :
    (hc.setInterrupt value).timer = hc.timer := by
  simp only [OHCI.timer, OHCI.setInterrupt, has_or_of_apart h]

theorem changeState_timer (h : hc.changeState value now = some hc') :
    FrameTimer.step hc.timer (.control value now) = some hc'.timer := by
  unfold FrameTimer.step FrameTimer.OHCI.apply FrameTimer.OHCI.changeState
  dsimp only
  have hold : hc.timer.state = hc.state := rfl
  have hnew' : FrameTimer.OHCI.state { hc.timer with hcControl := value } = value &&& OHCI_CTL_HCFS :=
    rfl
  rw [hold, hnew']
  cases changeState_changed h with
  | same hsame =>
    rw [if_pos hsame]
    rfl
  | start hold hnew =>
    rw [if_neg hold, if_pos hnew, setInterrupt_timer (by decide)]
    rfl
  | stop hold hnew =>
    rw [if_neg hold, hnew]
    rfl
  | resume hold hnew =>
    rw [if_neg hold, hnew]
    rfl
  | reset hold hnew h =>
    rw [if_neg hold, hnew, stateReset_timer h]
    rfl

/-- What lists do to the timer: there has been an error in them, or not. -/
inductive Processed (hc hc' : OHCI) : Prop where
  | done (timer : hc'.timer = hc.timer) (error : hc'.unrecoverable = hc.unrecoverable)
  | failed (timer : hc'.timer = hc.timer.fatalError) (error : hc'.unrecoverable = true)

/-- A second error changes nothing. -/
theorem Processed.trans {hc'' : OHCI} (h : Processed hc hc') (h' : Processed hc' hc'') :
    Processed hc hc'' := by
  rcases h with ⟨htimer, herror⟩ | ⟨htimer, herror⟩ <;>
    rcases h' with ⟨htimer', herror'⟩ | ⟨htimer', herror'⟩
  · exact .done (htimer'.trans htimer) (herror'.trans herror)
  · exact .failed (htimer'.trans (by rw [htimer])) herror'
  · exact .failed (htimer'.trans htimer) (herror'.trans herror)
  · exact .failed (htimer'.trans (by rw [htimer]; rfl)) herror'

/-- From no error on, the flag tells whether there has been one. -/
theorem Processed.timer_eq (h : Processed hc hc') (h0 : hc.unrecoverable = false) :
    hc'.timer = if hc'.unrecoverable then hc.timer.fatalError else hc.timer := by
  rcases h with ⟨htimer, herror⟩ | ⟨htimer, herror⟩
  · rw [herror, h0, htimer]
    rfl
  · rw [herror, htimer]
    rfl

/-- What lists leave of the controller. -/
structure Listed (hc hc' : OHCI) : Prop where
  processed : Processed hc hc'
  ports : Alike hc.ports hc'.ports
  settings : hc'.settings = hc.settings
  frameNumber : hc'.hcFmNumber = hc.hcFmNumber
  raised : Raised 0#32 hc.hcInterruptStatus hc'.hcInterruptStatus

theorem Listed.refl (hc : OHCI) : Listed hc hc := ⟨.done rfl rfl, .refl _, rfl, rfl, .refl _ _⟩

theorem Listed.trans {hc'' : OHCI} (h : Listed hc hc') (h' : Listed hc' hc'') : Listed hc hc'' :=
  ⟨h.processed.trans h'.processed, h.ports.trans h'.ports, h'.settings.trans h.settings,
    h'.frameNumber.trans h.frameNumber, h.raised.trans h'.raised⟩

theorem serviceHead_frame (answers : Nat → Answer) (w : Service.Walk) (completion : Bool) :
    (Service.serviceHead answers w completion).hc.hcFmNumber = w.hc.hcFmNumber := by
  unfold Service.serviceHead
  split
  · unfold Service.serviceTD
    dsimp only
    split_ifs
    · rfl
    · rfl
    · have hcalled : Progress.Served [] w.hc w.hc.called := .of_eq rfl rfl rfl
      exact (Progress.transferTD_serves hcalled rfl rfl _ _
        fun h => (of_decide_eq_true h).symm).served.frame
  · unfold Service.serviceIsoTD
    dsimp only
    split_ifs
    · rfl
    · rfl
    · rfl
    · exact (Progress.frameIsoTD_kept _ w.hc.called _ _ _ _ completion).1.served.frame

theorem walkBody_frame (answers : Nat → Answer) (completion : Bool) (w : Service.Walk) :
    (Service.walkBody answers completion w).result.hc.hcFmNumber = w.hc.hcFmNumber := by
  unfold Service.walkBody
  cases w.position with
  | list current =>
    dsimp only
    split
    · rfl
    · unfold Lib.Loop.Turn.result Service.enterED Service.cancelPending
      dsimp only
      split_ifs <;> rfl
  | queue current nextED =>
    dsimp only
    split
    · rfl
    · have hhead := serviceHead_frame answers w completion
      split
      · exact hhead
      · exact hhead

theorem serviceEDlist_frame {fuel : Nat} {answers : Nat → Answer} {c : Controller} {head : Word}
    {completion : Bool} {r : Bool × Controller}
    (h : serviceEDlist fuel answers c ed head completion = some r) : r.2.hcFmNumber = c.hcFmNumber := by
  rcases Option.map_eq_some_iff.mp h with ⟨w, hloop, rfl⟩
  exact Lib.Loop.loop_invariant (I := fun w => w.hc.hcFmNumber = c.hcFmNumber)
    (fun w hw => (walkBody_frame answers completion w).trans hw) rfl hloop

theorem serviceList_listed {head : Word} {completion : Bool} {r : Bool × OHCI}
    (h : hc.serviceList env ed head completion = some r) : Listed hc r.2 := by
  rcases Option.map_eq_some_iff.mp h with ⟨r', hr, rfl⟩
  have hframe := serviceEDlist_frame hr
  cases hfailed : r'.2.unrecoverable with
  | false => exact ⟨.done rfl (Bool.or_false _), ⟨rfl, rfl, rfl, rfl, rfl⟩, rfl, hframe, .refl _ _⟩
  | true =>
    exact ⟨.failed (fatalError_timer _) (Bool.or_true _), ⟨rfl, rfl, rfl, rfl, rfl⟩, rfl, hframe,
      .of_or _ BitVec.and_zero⟩

/-- At the end of a list its bit of HcCommandStatus goes, and the pointer to its current descriptor. -/
theorem endList_listed (hc : OHCI) (current bulk : Word) (h : value &&& OHCI_STATUS_HCR = 0#32) :
    Listed hc { hc with
      hcControlCurrentED := current
      hcBulkCurrentED := bulk
      hcCommandStatus := hc.hcCommandStatus &&& ~~~value } :=
  ⟨.done rfl rfl, ⟨rfl, rfl, rfl, rfl, has_clear_of_apart h⟩, rfl, rfl, .refl _ _⟩

theorem processControlList_listed {completion : Bool}
    (h : hc.processControlList env ed completion = some hc') : Listed hc hc' := by
  unfold OHCI.processControlList at h
  split at h
  · rcases Option.map_eq_some_iff.mp h with ⟨r, hr, rfl⟩
    refine (serviceList_listed hr).trans ?_
    split
    · exact .refl _
    · exact endList_listed r.2 0 r.2.hcBulkCurrentED (by decide)
  · cases h
    exact .refl hc

theorem processBulkList_listed {completion : Bool}
    (h : hc.processBulkList env ed completion = some hc') : Listed hc hc' := by
  unfold OHCI.processBulkList at h
  split at h
  · rcases Option.map_eq_some_iff.mp h with ⟨r, hr, rfl⟩
    refine (serviceList_listed hr).trans ?_
    split
    · exact .refl _
    · exact endList_listed r.2 r.2.hcControlCurrentED 0 (by decide)
  · cases h
    exact .refl hc

theorem processLists_listed {completion : Bool}
    (h : hc.processLists env ed completion = some hc') : Listed hc hc' := by
  rcases Option.bind_eq_some_iff.mp h with ⟨hc₁, hcontrol, hbulk⟩
  exact (processControlList_listed hcontrol).trans (processBulkList_listed hbulk)

theorem processPeriodicList_listed {hcca : Hcca}
    (h : hc.processPeriodicList env ed hcca = some hc') : Listed hc hc' := by
  unfold OHCI.processPeriodicList at h
  split at h
  · rcases Option.map_eq_some_iff.mp h with ⟨r, hr, rfl⟩
    exact serviceList_listed hr
  · cases h
    exact .refl hc

/-- Between the lists a packet may be cancelled, and HcControl is noted. -/
theorem cancelDisabled_listed (hc : OHCI) :
    Listed hc { hc.cancelDisabled with oldHcControl := hc.cancelDisabled.hcControl } := by
  unfold OHCI.cancelDisabled
  split
  · exact ⟨.done rfl rfl, .refl _, rfl, rfl, .refl _ _⟩
  · exact ⟨.done rfl rfl, .refl _, rfl, rfl, .refl _ _⟩

theorem frameLists_listed {hcca : Hcca} (h : hc.frameLists env ed hcca = some hc') : Listed hc hc' := by
  rcases Option.bind_eq_some_iff.mp h with ⟨hc₁, hperiodic, hlists⟩
  exact (processPeriodicList_listed hperiodic).trans
    ((cancelDisabled_listed hc₁).trans (processLists_listed hlists))

/-- What the timer keeps for the next frame. -/
def nextTimer (t : FrameTimer.OHCI) (now : Time) : FrameTimer.OHCI :=
  { t with
    hcFmRemaining := if t.hcFmInterval &&& OHCI_FMI_FIT = 0 then t.hcFmRemaining &&& ~~~OHCI_FMR_FRT
      else t.hcFmRemaining ||| OHCI_FMR_FRT
    sofTime := now }

/-- The next frame starts with interrupts that are no error. -/
theorem startFrame_timer (hc : OHCI) {f : Frame.OHCI} {hcca : Hcca} (hne : f.hcHCCA ≠ 0)
    (herror : has f.hcInterruptStatus OHCI_INTR_UE = has hc.hcInterruptStatus OHCI_INTR_UE)
    (hinterval : f.hcFmInterval = hc.hcFmInterval) :
    OHCI.timer { hc with toOHCI := startFrame f hcca } =
      { hc.timer with hcFmRemaining := f.hcFmRemaining } := by
  have hstart : startFrame f hcca =
      { f.setInterrupt OHCI_INTR_SF with host := Frame.writeHCCA f.host f.hcHCCA hcca } := if_neg hne
  have hsf : has (f.hcInterruptStatus ||| OHCI_INTR_SF) OHCI_INTR_UE =
      has f.hcInterruptStatus OHCI_INTR_UE := has_or_of_apart (by decide)
  simp only [OHCI.timer, hstart, Frame.OHCI.setInterrupt, hsf, herror, hinterval]

theorem endFrame_timer {hcca : Hcca} (hne : hc.hcHCCA ≠ 0) (h : hc.endFrame hcca now = some hc') :
    hc.eofTimer.isSome ∧ hc'.timer = nextTimer hc.timer now := by
  rcases Option.map_eq_some_iff.mp h with ⟨timer, htimer, rfl⟩
  refine ⟨by rw [htimer]; rfl, ?_⟩
  dsimp only
  rw [if_neg hne]
  rcases Frame.handOver_nextFrame hc.toOHCI
    { hcca with frameNumber := (nextFrame hc.toOHCI).hcFmNumber.setWidth 16 } with ⟨-, hr⟩ | ⟨-, hr⟩
  · rw [hr]
    exact startFrame_timer { hc with sofTime := now } hne (has_or_of_apart (by decide)) rfl
  · rw [hr]
    exact startFrame_timer { hc with sofTime := now } hne rfl rfl

theorem sof_eq {t : FrameTimer.OHCI} (h : t.eofTimer.isSome) :
    t.sof now = .ok { t with sofTime := now } := by
  unfold FrameTimer.OHCI.sof
  split
  · rfl
  · next hnone =>
    rw [hnone] at h
    cases h

theorem frameBoundary_timer (h : hc.frameBoundary env ed now = some hc') :
    hc.timer.frameBoundary (frameErrors env hc ed) now = .ok hc'.timer := by
  unfold FrameTimer.OHCI.frameBoundary
  unfold OHCI.frameBoundary at h
  by_cases hzero : hc.hcHCCA = 0
  · have hread : (frameErrors env hc ed).read = true := decide_eq_true hzero
    rw [if_pos hzero] at h
    cases h
    rw [if_pos hread, fatalError_timer]
  have hread : ¬ (frameErrors env hc ed).read = true := by simpa [frameErrors] using hzero
  rw [if_neg hzero] at h
  rw [if_neg hread]
  rcases Option.bind_eq_some_iff.mp h with ⟨hc₁, hlists, hend⟩
  have hfailed : (frameErrors env hc ed).lists = hc₁.unrecoverable := by
    simp only [frameErrors, hlists, Option.any_some]
  have hlisted := frameLists_listed hlists
  have htimer := hlisted.processed.timer_eq rfl
  have hne : hc₁.hcHCCA ≠ 0 := by
    have hsame : hc₁.hcHCCA = hc.hcHCCA := congrArg OHCI.Settings.hcHCCA hlisted.settings
    rwa [hsame]
  have hstart :
      (if (frameErrors env hc ed).lists then hc.timer.fatalError else hc.timer) = hc₁.timer := by
    rw [hfailed]
    exact htimer.symm
  dsimp only at hend ⊢
  rw [hstart]
  by_cases hue : has hc₁.hcInterruptStatus OHCI_INTR_UE
  · rw [if_pos hue] at hend
    cases hend
    exact if_pos hue
  · rw [if_neg hue] at hend
    rcases endFrame_timer hne hend with ⟨hsome, hnext⟩
    have hue' : ¬ hc₁.timer.unrecoverable = true := hue
    rw [if_neg hue', sof_eq hsome, hnext]
    rfl

/-! ## The steps of the parts -/

theorem register_read_timer {addr : Word} (h : (hc.readRegister addr now).map (fun _ => hc) = some hc') :
    exec FrameTimer.step hc.timer (timerShare env hc (.read addr now)) = some hc'.timer := by
  rcases Option.map_eq_some_iff.mp h with ⟨value, hread, rfl⟩
  unfold timerShare
  dsimp only
  split
  · next haddr =>
    rw [OHCI.readRegister, haddr] at hread
    cases hrem : hc.timer.getFrameRemaining now with
    | ok value' => simp [exec, FrameTimer.step, FrameTimer.OHCI.apply, hrem, Except.toOption, Except.map]
    | error fault => simp [OHCI.getFrameRemaining, hrem, Except.toOption] at hread
  · rfl

/-- Only one register is the interval of the frames. -/
theorem write_hcFmInterval (s : OHCI.Settings) (reg : Nat) (value : Word) :
    (s.write reg value).hcFmInterval = if reg = 13 then value &&& ~~~0xC000 else s.hcFmInterval := by
  unfold OHCI.Settings.write
  split <;> simp_all

theorem portOf_some {reg : Nat} {i : Fin 4} (h : portOf reg = some i) : 21 ≤ reg ∧ reg < 25 := by
  unfold portOf at h
  split at h
  · assumption
  · cases h

theorem written_timer {reg : Nat} (h : Written hc value now reg hc') :
    exec FrameTimer.step hc.timer (writeShare hc reg value now) = some hc'.timer := by
  unfold writeShare
  cases h with
  | control h => simp [exec, changeState_timer h]
  | commandStatus h =>
    unfold OHCI.writeCommandStatus at h
    dsimp only at h ⊢
    split at h
    · next hreset =>
      have htimer := stateReset_timer h
      rw [if_pos (show SoftwareReset hc value from hreset), htimer]
      rfl
    · next hno =>
      cases h
      rw [if_neg (show ¬ SoftwareReset hc value from hno)]
      rfl
  | interruptStatus =>
    have hflag : has (hc.hcInterruptStatus &&& ~~~value) OHCI_INTR_UE =
        (has hc.hcInterruptStatus OHCI_INTR_UE && decide (value &&& OHCI_INTR_UE = 0)) := by
      have hkept : decide (value &&& OHCI_INTR_UE = 0) = !has value OHCI_INTR_UE := by
        rw [Bool.eq_iff_iff, decide_eq_true_iff, Bool.not_eq_true', has_eq_false]
        rfl
      rw [hkept]
      exact has_clear_twoPow hc.hcInterruptStatus value 4
    simp [exec, FrameTimer.step, FrameTimer.OHCI.apply, Except.toOption, OHCI.timer, hflag]
  | rhStatus h =>
    rw [writePorts_timer (show AboutPorts (.rhStatus value) from trivial) h]
    rfl
  | rhPortStatus hi h =>
    have hreg := portOf_some hi
    rw [writePorts_timer (show AboutPorts (.rhPortStatus _ value) from trivial) h]
    split
    · omega
    · omega
    · omega
    · omega
    · rfl
  | stored hreg hport h =>
    rw [h.timer, write_hcFmInterval]
    split
    · exact absurd rfl hreg.1
    · exact absurd rfl hreg.2.1
    · exact absurd rfl hreg.2.2.1
    · rfl
    · next hne =>
      rw [if_neg hne]
      rfl

theorem wakeup_timer {i : Fin 4} (h : hc.writePorts (.wakeup i) = some hc') :
    exec FrameTimer.step hc.timer (timerShare env hc (.wakeup i)) = some hc'.timer := by
  unfold timerShare
  dsimp only
  rcases Option.map_eq_some_iff.mp h with ⟨p, hp, rfl⟩
  dsimp only [RootHub.step] at hp
  split at hp
  · next hattached =>
    rcases wakeup_resumes hp with ⟨hcontrol, hraised⟩
    rw [if_pos hattached, withPorts_timer hraised.has_eq, hcontrol]
    have hstep : exec FrameTimer.step hc.timer [.wakeup] = some hc.timer.wakeup := rfl
    have hstate : hc.timer.state = hc.ports.state := rfl
    rw [hstep, FrameTimer.OHCI.wakeup, hstate]
    split
    · rfl
    · rfl
  · next hfree =>
    cases hp
    rw [if_neg hfree]
    rfl

theorem asyncCancelDevice_listed (hc : OHCI) (waits : Bool) :
    Listed hc (hc.asyncCancelDevice waits) := by
  unfold OHCI.asyncCancelDevice
  split
  · exact ⟨.done rfl rfl, .refl _, rfl, rfl, .refl _ _⟩
  · exact .refl hc

theorem asyncCancelDevice_timer (hc : OHCI) (waits : Bool) :
    (hc.asyncCancelDevice waits).timer = hc.timer := by
  unfold OHCI.asyncCancelDevice
  split <;> rfl

/-- The timer in the controller does what it does alone. -/
theorem step_timer {op : Op} (h : step env hc op = some hc') :
    exec FrameTimer.step hc.timer (timerShare env hc op) = some hc'.timer := by
  cases op with
  | read addr now => exact register_read_timer h
  | write addr value now =>
    dsimp only [step] at h
    unfold timerShare
    dsimp only
    cases haddr : register addr with
    | none =>
      rw [OHCI.writeRegister, haddr] at h
      cases h
      rfl
    | some reg => exact written_timer (writeRegister_written haddr h)
  | attach i speed =>
    rw [writePorts_timer (show AboutPorts (.attach i speed) from trivial) h]
    rfl
  | detach i waits =>
    rw [writePorts_timer (show AboutPorts (.detach i) from trivial) h, asyncCancelDevice_timer]
    rfl
  | childDetach waits =>
    cases h
    rw [asyncCancelDevice_timer]
    rfl
  | wakeup i => exact wakeup_timer h
  | frame ed now =>
    dsimp only [step] at h
    unfold timerShare
    split at h
    · next hnone =>
      cases h
      have halive : hc.timer.alive = [] := hnone
      simp [exec, FrameTimer.step, FrameTimer.OHCI.apply, halive, Except.toOption]
    · next hsome =>
      have halive : hc.timer.alive ≠ [] := hsome
      have hframe := frameBoundary_timer h
      simp [exec, FrameTimer.step, FrameTimer.OHCI.apply, halive, hframe, Except.toOption]
  | complete packet data ed =>
    have hlists : hc.asyncCompletePacket env packet data ed = some hc' := h
    have htimer := (processLists_listed hlists).processed.timer_eq rfl
    unfold timerShare
    dsimp only
    rw [hlists, Option.any_some, htimer]
    split <;> rfl
  | memory mem host =>
    cases h
    rfl

end Timer

/-! ## The ports -/

section Ports

variable {env : Env} {hc hc' : OHCI} {ed : EndpointDescriptor} {now : Time} {value : Word}

/-- What the root hub is told of an operation. -/
def hubShare : Op → List RootHub.Op
  | .write addr value _ =>
    match register addr with
    | some 1 => [.control value]
    | some 2 => [.commandStatus value]
    | some 20 => [.rhStatus value]
    | some reg => ((portOf reg).map fun i => .rhPortStatus i value).toList
    | none => []
  | .attach i speed => [.attach i speed]
  | .detach i _ => [.detach i]
  | .wakeup i => [.wakeup i]
  | _ => []

/-- The root hub has come from one controller to the other. -/
def Hubbed (hc : OHCI) (ops : List RootHub.Op) (hc' : OHCI) : Prop :=
  ∃ q, exec RootHub.step hc.ports ops = some q ∧ Alike hc'.ports q

theorem hubbed_one {op : RootHub.Op} {q : RootHub.OHCI} (h : RootHub.step hc.ports op = some q)
    (hq : Alike hc'.ports q) : Hubbed hc [op] hc' := ⟨q, by simp [exec, h], hq⟩

theorem writePorts_hubbed {op : RootHub.Op} (h : hc.writePorts op = some hc') : Hubbed hc [op] hc' := by
  rcases Option.map_eq_some_iff.mp h with ⟨p, hp, rfl⟩
  exact hubbed_one hp (.refl p)

theorem Listed.hubbed (h : Listed hc hc') : Hubbed hc [] hc' := ⟨hc.ports, rfl, h.ports.symm⟩

theorem stateReset_ports (h : hc.stateReset = some hc') : hc.ports.stateReset = some hc'.ports := by
  rcases Option.map_eq_some_iff.mp h with ⟨p, hp, rfl⟩
  exact hp

theorem changeState_hubbed (h : hc.changeState value now = some hc') :
    Hubbed hc [.control value] hc' := by
  have hold : hc.ports.state = hc.state := rfl
  cases changeState_changed h with
  | same hsame => exact hubbed_one (if_neg fun hno => hno.1 hsame) ⟨rfl, rfl, rfl, rfl, rfl⟩
  | start _ hnew =>
    refine hubbed_one (if_neg fun hno => ?_) ⟨rfl, rfl, rfl, rfl, rfl⟩
    exact absurd (hnew.symm.trans hno.2) (by decide)
  | stop _ hnew =>
    refine hubbed_one (if_neg fun hno => ?_) ⟨rfl, rfl, rfl, rfl, rfl⟩
    exact absurd (hnew.symm.trans hno.2) (by decide)
  | resume _ hnew =>
    refine hubbed_one (if_neg fun hno => ?_) ⟨rfl, rfl, rfl, rfl, rfl⟩
    exact absurd (hnew.symm.trans hno.2) (by decide)
  | reset hold hnew h =>
    have hreset := stateReset_ports h
    exact hubbed_one ((if_pos ⟨hold, hnew⟩).trans hreset) (.refl _)

theorem writeCommandStatus_hubbed (h : hc.writeCommandStatus value = some hc') :
    Hubbed hc [.commandStatus value] hc' := by
  unfold OHCI.writeCommandStatus at h
  dsimp only at h
  split at h
  · next hreset => exact hubbed_one ((if_pos hreset).trans (stateReset_ports h)) (.refl _)
  · next hno =>
    cases h
    exact hubbed_one (if_neg hno) (.refl _)

theorem endFrame_hubbed {hcca : Hcca} (h : hc.endFrame hcca now = some hc') : Hubbed hc [] hc' := by
  rcases Option.map_eq_some_iff.mp h with ⟨timer, -, rfl⟩
  refine ⟨_, rfl, ?_⟩
  dsimp only
  split
  · exact ⟨rfl, rfl, rfl, rfl, rfl⟩
  · exact ⟨rfl, rfl, rfl, rfl, rfl⟩

theorem Hubbed.trans {hc'' : OHCI} {ops ops' : List RootHub.Op} (h : Hubbed hc ops hc')
    (h' : Hubbed hc' ops' hc'') : Hubbed hc (ops ++ ops') hc'' := by
  rcases h with ⟨q, hq, hsim⟩
  rcases h' with ⟨r, hr, hsim'⟩
  rcases hsim.exec hr with ⟨r', hr', hsim''⟩
  exact ⟨r', Lib.Parts.exec_append_some hq hr', hsim'.trans hsim''⟩

theorem frameBoundary_hubbed (h : hc.frameBoundary env ed now = some hc') : Hubbed hc [] hc' := by
  unfold OHCI.frameBoundary at h
  split at h
  · cases h
    exact ⟨_, rfl, ⟨rfl, rfl, rfl, rfl, rfl⟩⟩
  · rcases Option.bind_eq_some_iff.mp h with ⟨hc₁, hlists, hend⟩
    have hlisted : Hubbed hc [] hc₁ := (frameLists_listed hlists).hubbed
    split at hend
    · cases hend
      exact hlisted
    · exact hlisted.trans (endFrame_hubbed hend)

theorem written_hubbed {addr : Word} {reg : Nat} (haddr : register addr = some reg)
    (h : Written hc value now reg hc') : Hubbed hc (hubShare (.write addr value now)) hc' := by
  unfold hubShare
  dsimp only
  rw [haddr]
  cases h with
  | control h => exact changeState_hubbed h
  | commandStatus h => exact writeCommandStatus_hubbed h
  | interruptStatus => exact ⟨_, rfl, ⟨rfl, rfl, rfl, rfl, rfl⟩⟩
  | rhStatus h => exact writePorts_hubbed h
  | rhPortStatus hi h =>
    have hreg := portOf_some hi
    have hop := writePorts_hubbed h
    split <;> simp_all
  | stored hreg hport h =>
    have hrefl : Hubbed hc [] hc' := ⟨hc.ports, rfl, h.ports ▸ .refl _⟩
    split <;> simp_all

/-- The root hub in the controller does what it does alone. -/
theorem step_hubbed {op : Op} (h : step env hc op = some hc') : Hubbed hc (hubShare op) hc' := by
  cases op with
  | read addr now =>
    rcases Option.map_eq_some_iff.mp h with ⟨value, -, rfl⟩
    exact ⟨_, rfl, .refl _⟩
  | write addr value now =>
    dsimp only [step] at h
    cases haddr : register addr with
    | none =>
      unfold hubShare
      dsimp only
      rw [OHCI.writeRegister, haddr] at h
      rw [haddr]
      cases h
      exact ⟨_, rfl, .refl _⟩
    | some reg => exact written_hubbed haddr (writeRegister_written haddr h)
  | attach i speed => exact writePorts_hubbed h
  | detach i waits => exact (asyncCancelDevice_listed hc waits).hubbed.trans (writePorts_hubbed h)
  | childDetach waits =>
    cases h
    exact (asyncCancelDevice_listed hc waits).hubbed
  | wakeup i => exact writePorts_hubbed h
  | frame ed now =>
    dsimp only [step] at h
    split at h
    · cases h
      exact ⟨_, rfl, .refl _⟩
    · exact frameBoundary_hubbed h
  | complete packet data ed =>
    have hlisted : Hubbed hc [] hc' := (processLists_listed h).hubbed
    exact hlisted
  | memory mem host =>
    cases h
    exact ⟨_, rfl, .refl _⟩

end Ports

/-- In every run of the controller the timer has done what it does alone with its share of the
operations, and so has the root hub. -/
theorem controller_composed {env : Env} {irqNum : Nat} {sofTime : Time} {mem : GuestMemory}
    {host : Word → Byte} {ops : List Op} {hc : OHCI}
    (h : exec (step env) (OHCI.construct irqNum sofTime mem host) ops = some hc) :
    exec FrameTimer.step (FrameTimer.OHCI.init sofTime)
        (outputs (step env) (timerShare env) (OHCI.construct irqNum sofTime mem host) ops) =
      some hc.timer ∧
    ∃ p, exec RootHub.step (RootHub.OHCI.construct irqNum) (ops.flatMap hubShare) = some p ∧
      Alike hc.ports p := by
  have htimer : ∀ hc op hc', True → step env hc op = some hc' →
      exec FrameTimer.step hc.timer (timerShare env hc op) = some hc'.timer :=
    fun _ _ _ _ hs => step_timer hs
  have hports : ∀ p hc op hc', Alike hc.ports p → step env hc op = some hc' →
      ∃ p', exec RootHub.step p (hubShare op) = some p' ∧ Alike hc'.ports p' := by
    intro p hc op hc' hsim hs
    rcases step_hubbed hs with ⟨q, hq, hq'⟩
    rcases hsim.exec hq with ⟨p', hp', hsim'⟩
    exact ⟨p', hp', hq'.trans hsim'⟩
  have hinit : (OHCI.construct irqNum sofTime mem host).timer = FrameTimer.OHCI.init sofTime := by
    simp [OHCI.timer, OHCI.construct, FrameTimer.OHCI.init]
  constructor
  · rw [← hinit]
    exact Lib.Parts.exec_part (fun _ _ _ _ _ => trivial) htimer trivial h
  · rw [← Lib.Parts.outputs_const h]
    exact Lib.Parts.exec_simulates (R := fun p hc => Alike hc.ports p) hports (.refl _) h

/-- A controller that gets a device, becomes operational, ends a frame and is asked for the time left. -/
def oneFrame : List Op :=
  [.attach (Fin.last 3) .full, .write 0x4 0x80 5, .write 0x18 0x1000 6, .frame ⟨0, 0, 0, 0⟩ 7,
    .read 0x38 9, .write 0x60 0x10 10]

theorem oneFrame_composed : ∃ hc,
    exec (step ⟨8, Service.eightBytes⟩)
      (OHCI.construct 1 0 (Service.memoryOver []) fun _ => 0) oneFrame = some hc ∧
    exec FrameTimer.step (FrameTimer.OHCI.init 0) (outputs (step ⟨8, Service.eightBytes⟩)
      (timerShare ⟨8, Service.eightBytes⟩) (OHCI.construct 1 0 (Service.memoryOver []) fun _ => 0) oneFrame) =
        some hc.timer ∧
    ∃ p, exec RootHub.step (RootHub.OHCI.construct 1) (oneFrame.flatMap hubShare) = some p ∧
      Alike hc.ports p :=
  ⟨_, rfl, controller_composed rfl⟩

end OpenXbox.Ohci.Composition
