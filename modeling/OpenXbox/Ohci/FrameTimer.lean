import OpenXbox.Lib.Run
import OpenXbox.Ohci.Frame

/-!
# The timer of the frames

In the operational state a timer calls the frame boundary every virtual millisecond. It is
created and deleted where the functional state in HcControl changes, and deleted by an
unrecoverable error. What is kept here of the controller is what these functions use.
-/

namespace OpenXbox.Ohci.FrameTimer

open OpenXbox.Lib.Run OpenXbox.Ohci.Memory OpenXbox.Ohci.Frame

abbrev Time := BitVec 64

/-- A function of the timer is called with a null pointer. -/
inductive Fault where
  | nullTimer

def OHCI_CTL_HCFS : Word := 0xC0
def Reset : Word := 0x00
def Resume : Word := 0x40
def Operational : Word := 0x80
def Suspend : Word := 0xC0

def OHCI_FMI_FI : Word := 0x3FFF
/-- A millisecond in nanoseconds. -/
def usbFrameTime : Time := 1000000
def ticksPerUsbTick : Word := 83

structure OHCI where
  hcControl : Word
  /-- `OHCI_INTR_UE` of HcInterruptStatus. -/
  unrecoverable : Bool
  hcFmInterval : Word
  hcFmRemaining : Word
  sofTime : Time
  /-- `m_pEOFtimer`: the number of a timer. -/
  eofTimer : Option Nat
  /-- The timers created and not told to exit. -/
  alive : List Nat
  created : Nat

def OHCI.state (hc : OHCI) : Word := hc.hcControl &&& OHCI_CTL_HCFS

/-! ## The functions of the source -/

/-- `OHCI_BusStop`; deletes the timer it knows of. -/
def OHCI.busStop (hc : OHCI) : OHCI :=
  { hc with
    alive := match hc.eofTimer with
      | some timer => hc.alive.erase timer
      | none => hc.alive
    eofTimer := none }

/-- `OHCI_StateReset`. -/
def OHCI.stateReset (hc : OHCI) : OHCI :=
  { hc.busStop with
    hcControl := 0
    unrecoverable := false
    hcFmInterval := 0x27782EDF
    hcFmRemaining := 0 }

/-- `OHCI_SOF`, at a time of the timer. -/
def OHCI.sof (hc : OHCI) (now : Time) : Except Fault OHCI :=
  match hc.eofTimer with
  | some _ => .ok { hc with sofTime := now }
  | none => .error .nullTimer

/-- `OHCI_BusStart`. -/
def OHCI.busStart (hc : OHCI) (now : Time) : Except Fault OHCI :=
  OHCI.sof { hc with
    eofTimer := some hc.created
    alive := hc.alive ++ [hc.created]
    created := hc.created + 1 } now

def OHCI.fatalError (hc : OHCI) : OHCI := OHCI.busStop { hc with unrecoverable := true }

def OHCI.changeState (hc : OHCI) (value : Word) (now : Time) : Except Fault OHCI :=
  let oldState := hc.state
  let hc := { hc with hcControl := value }
  let newState := hc.state
  if oldState = newState then .ok hc
  else if newState = Operational then hc.busStart now
  else if newState = Suspend then .ok hc.busStop
  else if newState = Resume then .ok hc
  else .ok hc.stateReset

/-- `OHCI_Wakeup`, but for the status of the port. -/
def OHCI.wakeup (hc : OHCI) : OHCI :=
  if hc.state = Suspend then { hc with hcControl := (hc.hcControl &&& ~~~OHCI_CTL_HCFS) ||| Resume }
  else hc

/-- `Muldiv64`. -/
def muldiv64 (a : BitVec 64) (b c : Word) : BitVec 64 :=
  let rl : BitVec 64 := (a.setWidth 32).setWidth 64 * b.setWidth 64
  let rh : BitVec 64 := (a >>> 32) * b.setWidth 64 + (rl >>> 32)
  let high : BitVec 64 := rh / c.setWidth 64
  let low : BitVec 64 := (((rh % c.setWidth 64) <<< 32) + (rl &&& 0xFFFFFFFF)) / c.setWidth 64
  high.setWidth 32 ++ low.setWidth 32

/-- `OHCI_GetFrameRemaining`. -/
def OHCI.getFrameRemaining (hc : OHCI) (now : Time) : Except Fault Word :=
  if hc.state ≠ Operational then .ok (hc.hcFmRemaining &&& OHCI_FMR_FRT)
  else
    match hc.eofTimer with
    | none => .error .nullTimer
    | some _ =>
      let ticks := now - hc.sofTime
      if ticks ≥ usbFrameTime then .ok (hc.hcFmRemaining &&& OHCI_FMR_FRT)
      else
        let ticks := muldiv64 1 (ticks.setWidth 32) ticksPerUsbTick
        let frame : BitVec 16 := ((hc.hcFmInterval &&& OHCI_FMI_FI).setWidth 64 - ticks).setWidth 16
        .ok ((hc.hcFmRemaining &&& OHCI_FMR_FRT) ||| frame.setWidth 32)

/-- What goes wrong in a frame boundary: its copy of the communications area is not read, the
processing of the lists fails, or the copy is not written back. -/
structure FrameErrors where
  read : Bool
  lists : Bool
  write : Bool

/-- `OHCI_FrameBoundaryWorker`. -/
def OHCI.frameBoundary (hc : OHCI) (errors : FrameErrors) (now : Time) : Except Fault OHCI :=
  if errors.read then .ok hc.fatalError
  else
    let hc := if errors.lists then hc.fatalError else hc
    if hc.unrecoverable then .ok hc
    else
      let hc := { hc with
        hcFmRemaining := if hc.hcFmInterval &&& OHCI_FMI_FIT = 0 then hc.hcFmRemaining &&& ~~~OHCI_FMR_FRT
          else hc.hcFmRemaining ||| OHCI_FMR_FRT }
      (hc.sof now).map fun hc => if errors.write then hc.fatalError else hc

/-! ## Runs -/

/-- What can happen next, with the time of the timer where it is asked for. -/
inductive Op where
  | control (value : Word) (now : Time)
  | softwareReset
  | interruptStatus (value : Word)
  | fmInterval (value : Word)
  | fmRemaining (now : Time)
  | wakeup
  | frame (errors : FrameErrors) (now : Time)
  /-- An unrecoverable error outside a frame boundary. -/
  | fatalError

/-- Without a timer there is no frame boundary. -/
def OHCI.apply (hc : OHCI) : Op → Except Fault OHCI
  | .control value now => hc.changeState value now
  | .softwareReset => .ok hc.stateReset
  | .interruptStatus value =>
    .ok { hc with unrecoverable := hc.unrecoverable && value &&& OHCI_INTR_UE = 0 }
  | .fmInterval value => .ok { hc with hcFmInterval := value &&& ~~~0xC000 }
  | .fmRemaining now => (hc.getFrameRemaining now).map fun _ => hc
  | .wakeup => .ok hc.wakeup
  | .frame errors now => if hc.alive = [] then .ok hc else hc.frameBoundary errors now
  | .fatalError => .ok hc.fatalError

def step (hc : OHCI) (op : Op) : Option OHCI := (hc.apply op).toOption

/-- The controller after its construction; the time of the last frame is not initialised. -/
def OHCI.init (sofTime : Time) : OHCI :=
  { hcControl := 0, unrecoverable := false, hcFmInterval := 0x27782EDF, hcFmRemaining := 0
    sofTime := sofTime, eofTimer := none, alive := [], created := 0 }

/-! ## What is to hold after every operation -/

/-- A timer is alive exactly in the operational state, and no more than one is. -/
structure Timely (hc : OHCI) : Prop where
  alive_iff : hc.alive ≠ [] ↔ hc.state = Operational
  one : hc.alive.length ≤ 1

/-- The operation calls no function of the timer with a null pointer, and leaves the timers right. -/
def Sound (hc : OHCI) (op : Op) : Prop := ∃ hc', hc.apply op = .ok hc' ∧ Timely hc'

/-- The frame boundary ends in an unrecoverable error. -/
def FrameErrors.Fatal (errors : FrameErrors) (hc : OHCI) : Prop :=
  errors.read = true ∨ errors.lists = true ∨ (errors.write = true ∧ hc.unrecoverable = false)

/-- No unrecoverable error in the operational state, and no change from it to the resume state. -/
def Allowed (hc : OHCI) : Op → Prop
  | .control value _ => ¬ (hc.state = Operational ∧ value &&& OHCI_CTL_HCFS = Resume)
  | .frame errors _ => hc.state = Operational → ¬ errors.Fatal hc
  | .fatalError => hc.state ≠ Operational
  | _ => True

/-- The timer alive is the one that the controller knows of. -/
structure Tracked (hc : OHCI) : Prop where
  alive : hc.alive = hc.eofTimer.toList
  timer_iff : hc.eofTimer.isSome ↔ hc.state = Operational

theorem Tracked.timely {hc : OHCI} (h : Tracked hc) : Timely hc := by
  have hiff := h.timer_iff
  cases ht : hc.eofTimer with
  | none =>
    rw [ht] at hiff
    have halive : hc.alive = [] := by rw [h.alive, ht]; rfl
    exact ⟨by simpa [halive] using hiff, by simp [halive]⟩
  | some timer =>
    rw [ht] at hiff
    have halive : hc.alive = [timer] := by rw [h.alive, ht]; rfl
    exact ⟨by simpa [halive] using hiff, by simp [halive]⟩

theorem tracked_init (sofTime : Time) : Tracked (OHCI.init sofTime) :=
  ⟨rfl, iff_of_false Bool.false_ne_true (show ¬ 0 &&& OHCI_CTL_HCFS = Operational by decide)⟩

/-- Outside the operational state there is no timer. -/
theorem Tracked.no_timer {hc : OHCI} (h : Tracked hc) (hstate : hc.state ≠ Operational) :
    hc.eofTimer = none ∧ hc.alive = [] := by
  have hnone : hc.eofTimer = none := by
    cases ht : hc.eofTimer with
    | none => rfl
    | some timer => exact absurd (h.timer_iff.mp (by rw [ht]; rfl)) hstate
  exact ⟨hnone, by rw [h.alive, hnone]; rfl⟩

/-- Without timers a controller is as it should be in every other state. -/
theorem tracked_of_stopped {hc : OHCI} (hnone : hc.eofTimer = none) (halive : hc.alive = [])
    (hstate : hc.state ≠ Operational) : Tracked hc :=
  ⟨by rw [halive, hnone]; rfl, iff_of_false (by simp [hnone]) hstate⟩

theorem busStop_alive (hc : OHCI) (h : hc.alive = hc.eofTimer.toList) : hc.busStop.alive = [] := by
  unfold OHCI.busStop
  rw [h]
  cases hc.eofTimer with
  | none => rfl
  | some timer => simp

theorem not_timely_of {hc : OHCI} (h : ¬ (hc.alive ≠ [] ↔ hc.state = Operational)) : ¬ Timely hc :=
  fun ht => h ht.alive_iff

/-- What an operation does to a controller whose timer is tracked: it is allowed and the timer is
tracked again, or it is not and the timers are not right afterwards. -/
def Settled (hc : OHCI) (op : Op) : Prop :=
  (Allowed hc op ∧ ∃ hc', hc.apply op = .ok hc' ∧ Tracked hc') ∨
    (¬ Allowed hc op ∧ ∃ hc', hc.apply op = .ok hc' ∧ ¬ Timely hc')

theorem settled_control {hc : OHCI} (h : Tracked hc) (value : Word) (now : Time) :
    Settled hc (.control value now) := by
  unfold Settled Allowed OHCI.apply OHCI.changeState
  dsimp only
  have hnew : OHCI.state { hc with hcControl := value } = value &&& OHCI_CTL_HCFS := rfl
  rw [hnew]
  by_cases hsame : hc.state = value &&& OHCI_CTL_HCFS
  · rw [if_pos hsame]
    refine .inl ⟨fun hbad => ?_, _, rfl, ⟨h.alive, h.timer_iff.trans (by rw [hsame, hnew])⟩⟩
    rw [hbad.1, hbad.2] at hsame
    exact absurd hsame (by decide)
  rw [if_neg hsame]
  by_cases hoperational : value &&& OHCI_CTL_HCFS = Operational
  · rw [if_pos hoperational]
    obtain ⟨-, halive⟩ := h.no_timer fun hold => hsame (hold.trans hoperational.symm)
    refine .inl ⟨fun hbad => ?_, _, rfl, ⟨?_, iff_of_true rfl hoperational⟩⟩
    · rw [hoperational] at hbad
      exact absurd hbad.2 (by decide)
    · dsimp only
      rw [halive]
      rfl
  rw [if_neg hoperational]
  by_cases hsuspend : value &&& OHCI_CTL_HCFS = Suspend
  · rw [if_pos hsuspend]
    refine .inl ⟨fun hbad => ?_, _, rfl, tracked_of_stopped rfl (busStop_alive hc h.alive) hoperational⟩
    rw [hsuspend] at hbad
    exact absurd hbad.2 (by decide)
  rw [if_neg hsuspend]
  by_cases hresume : value &&& OHCI_CTL_HCFS = Resume
  · rw [if_pos hresume]
    by_cases hold : hc.state = Operational
    · refine .inr ⟨not_not.mpr ⟨hold, hresume⟩, _, rfl, not_timely_of fun hiff => ?_⟩
      exact hoperational (hiff.mp (h.timely.alive_iff.mpr hold))
    · obtain ⟨hnone, halive⟩ := h.no_timer hold
      exact .inl ⟨fun hbad => hold hbad.1, _, rfl, tracked_of_stopped hnone halive hoperational⟩
  · rw [if_neg hresume]
    refine .inl ⟨fun hbad => hresume hbad.2, _, rfl, ?_⟩
    exact tracked_of_stopped rfl (busStop_alive hc h.alive)
      (show ¬ 0 &&& OHCI_CTL_HCFS = Operational by decide)

theorem settled_reset {hc : OHCI} (h : Tracked hc) : Settled hc .softwareReset :=
  .inl ⟨trivial, _, rfl, tracked_of_stopped rfl (busStop_alive hc h.alive)
    (show ¬ 0 &&& OHCI_CTL_HCFS = Operational by decide)⟩

/-- A wake-up takes the controller out of the suspend state, where it has no timer. -/
theorem settled_wakeup {hc : OHCI} (h : Tracked hc) : Settled hc .wakeup := by
  refine .inl ⟨trivial, _, rfl, ?_⟩
  unfold OHCI.wakeup
  split
  · next hsuspend =>
    have hstate : hc.state ≠ Operational := by
      rw [hsuspend]
      decide
    obtain ⟨hnone, halive⟩ := h.no_timer hstate
    have hresume : ((hc.hcControl &&& ~~~OHCI_CTL_HCFS) ||| Resume) &&& OHCI_CTL_HCFS = Resume :=
      Lib.Bits.and_not_or_and hc.hcControl Resume OHCI_CTL_HCFS
    refine tracked_of_stopped hnone halive fun hoperational => ?_
    exact absurd (hresume.symm.trans hoperational) (by decide)
  · exact h

theorem settled_fatalError {hc : OHCI} (h : Tracked hc) : Settled hc .fatalError := by
  have halive : hc.fatalError.alive = [] :=
    busStop_alive { hc with unrecoverable := true } h.alive
  by_cases hstate : hc.state = Operational
  · refine .inr ⟨not_not.mpr hstate, _, rfl, not_timely_of fun hiff => ?_⟩
    exact hiff.mpr hstate halive
  · exact .inl ⟨hstate, _, rfl, tracked_of_stopped rfl halive hstate⟩

/-- The time is asked of the timer only in the operational state. -/
theorem settled_fmRemaining {hc : OHCI} (h : Tracked hc) (now : Time) : Settled hc (.fmRemaining now) := by
  have hread : ∃ value, hc.getFrameRemaining now = .ok value := by
    unfold OHCI.getFrameRemaining
    split
    · exact ⟨_, rfl⟩
    · next hstate =>
      obtain ⟨timer, htimer⟩ := Option.isSome_iff_exists.mp (h.timer_iff.mpr (not_not.mp hstate))
      rw [htimer]
      dsimp only
      split
      · exact ⟨_, rfl⟩
      · exact ⟨_, rfl⟩
  obtain ⟨value, hvalue⟩ := hread
  refine .inl ⟨trivial, hc, ?_, h⟩
  unfold OHCI.apply
  dsimp only
  rw [hvalue]
  rfl

/-- With its timer a frame boundary starts the next frame or ends in an error. -/
theorem frameBoundary_cases {hc : OHCI} {timer : Nat} (htimer : hc.eofTimer = some timer)
    (errors : FrameErrors) (now : Time) :
    ∃ hc', hc.frameBoundary errors now = .ok hc' ∧ hc'.state = hc.state ∧
      ((errors.Fatal hc ∧ ∃ u r t, hc' = OHCI.busStop { hc with
          unrecoverable := u, hcFmRemaining := r, sofTime := t }) ∨
        (¬ errors.Fatal hc ∧ hc'.eofTimer = hc.eofTimer ∧ hc'.alive = hc.alive)) := by
  unfold OHCI.frameBoundary FrameErrors.Fatal
  by_cases hread : errors.read = true
  · rw [if_pos hread]
    exact ⟨_, rfl, rfl, .inl ⟨.inl hread, _, _, _, rfl⟩⟩
  rw [if_neg hread]
  by_cases hlists : errors.lists = true
  · simp only [if_pos hlists]
    exact ⟨_, rfl, rfl, .inl ⟨.inr (.inl hlists), _, _, _, rfl⟩⟩
  simp only [if_neg hlists]
  by_cases hu : hc.unrecoverable = true
  · simp only [if_pos hu]
    exact ⟨hc, rfl, rfl, .inr ⟨by simp [hread, hlists, hu], rfl, rfl⟩⟩
  simp only [if_neg hu, OHCI.sof, htimer, Except.map]
  by_cases hwrite : errors.write = true
  · rw [if_pos hwrite]
    exact ⟨_, rfl, rfl, .inl ⟨.inr (.inr ⟨hwrite, by simpa using hu⟩), _, _, _, rfl⟩⟩
  · rw [if_neg hwrite]
    exact ⟨_, rfl, rfl, .inr ⟨by simp [hread, hlists, hwrite], rfl, rfl⟩⟩

theorem settled_frame {hc : OHCI} (h : Tracked hc) (errors : FrameErrors) (now : Time) :
    Settled hc (.frame errors now) := by
  unfold Settled Allowed OHCI.apply
  dsimp only
  by_cases hstate : hc.state = Operational
  · obtain ⟨timer, htimer⟩ := Option.isSome_iff_exists.mp (h.timer_iff.mpr hstate)
    obtain ⟨hc', hok, hsame, hcases⟩ := frameBoundary_cases htimer errors now
    rw [if_neg (h.timely.alive_iff.mpr hstate), hok]
    rcases hcases with ⟨hfatal, u, r, t, hstop⟩ | ⟨hfatal, hkeep, halive⟩
    · refine .inr ⟨fun ha => ha hstate hfatal, hc', rfl, not_timely_of fun hiff => ?_⟩
      refine hiff.mpr (hsame.trans hstate) ?_
      rw [hstop]
      exact busStop_alive { hc with unrecoverable := u, hcFmRemaining := r, sofTime := t } h.alive
    · have htracked : Tracked hc' :=
        ⟨by rw [halive, hkeep, h.alive], by rw [hkeep, hsame, h.timer_iff]⟩
      exact .inl ⟨fun _ => hfatal, hc', rfl, htracked⟩
  · rw [if_pos (h.no_timer hstate).2]
    exact .inl ⟨fun hop => absurd hop hstate, hc, rfl, h⟩

theorem settled {hc : OHCI} (h : Tracked hc) (op : Op) : Settled hc op := by
  cases op with
  | control value now => exact settled_control h value now
  | softwareReset => exact settled_reset h
  | interruptStatus value => exact .inl ⟨trivial, _, rfl, h.alive, h.timer_iff⟩
  | fmInterval value => exact .inl ⟨trivial, _, rfl, h.alive, h.timer_iff⟩
  | fmRemaining now => exact settled_fmRemaining h now
  | wakeup => exact settled_wakeup h
  | frame errors now => exact settled_frame h errors now
  | fatalError => exact settled_fatalError h

theorem sound_iff {hc : OHCI} (h : Tracked hc) (op : Op) : Sound hc op ↔ Allowed hc op := by
  unfold Sound
  rcases settled h op with ⟨hallowed, hc', hok, htracked⟩ | ⟨hallowed, hc', hok, htimely⟩
  · exact iff_of_true ⟨hc', hok, htracked.timely⟩ hallowed
  · refine iff_of_false (fun hsound => ?_) hallowed
    obtain ⟨hc2, hok2, htimely2⟩ := hsound
    rw [hok] at hok2
    cases hok2
    exact htimely htimely2

theorem step_tracked {hc hc' : OHCI} {op : Op} (h : Tracked hc) (hallowed : Allowed hc op)
    (hstep : step hc op = some hc') : Tracked hc' := by
  rcases settled h op with ⟨-, hc2, hok, htracked⟩ | ⟨hnot, -⟩
  · unfold step at hstep
    rw [hok] at hstep
    cases hstep
    exact htracked
  · exact absurd hallowed hnot

/-- In every run after the construction, every operation is sound exactly when no unrecoverable
error happens in the operational state and the guest never goes from it to the resume state. -/
theorem timer_sound_iff (sofTime : Time) (ops : List Op) :
    Guarded step Sound (OHCI.init sofTime) ops ↔ Guarded step Allowed (OHCI.init sofTime) ops := by
  have hagree (hc : OHCI) (op : Op) (h : Tracked hc) : Sound hc op ↔ Allowed hc op := sound_iff h op
  exact guarded_congr hagree (fun _ _ _ => step_tracked) (tracked_init sofTime)

/-- The error of a frame boundary deletes the timer and leaves HcControl operational, and the next
read of HcFmRemaining asks a null pointer for the time. -/
theorem fatal_error_stops_timer :
    ¬ ∀ (sofTime : Time) (ops : List Op), Guarded step Sound (OHCI.init sofTime) ops := by
  intro hall
  obtain ⟨-, hrest⟩ :=
    hall 0 [.control 0x80 0, .frame ⟨true, false, false⟩ 1000000, .fmRemaining 1000000]
  obtain ⟨-, hrest⟩ := hrest _ rfl
  obtain ⟨⟨hc, hok, -⟩, -⟩ := hrest _ rfl
  cases hok

end OpenXbox.Ohci.FrameTimer
