import OpenXbox.Lib.Flags
import OpenXbox.Lib.Run
import OpenXbox.Ohci.FrameTimer

/-!
# The root hub

The four ports of a host controller: what the devices and the guest do to their status words.
The ports are registered under an index that a callback then takes for their place in the array.
-/

namespace OpenXbox.Ohci.RootHub

open OpenXbox.Lib.Flags OpenXbox.Lib.Run OpenXbox.Ohci.Memory
open OpenXbox.Ohci.FrameTimer (OHCI_CTL_HCFS Operational Resume Suspend Reset)

def OHCI_STATUS_HCR : Word := 1 <<< 0
def OHCI_STATUS_SOC : Word := 0xC0

def OHCI_INTR_RD : Word := 1 <<< 3
def OHCI_INTR_RHSC : Word := 1 <<< 6

def OHCI_RHS_LPS : Word := 1 <<< 0
def OHCI_RHS_DRWE : Word := 1 <<< 15
def OHCI_RHS_LPSC : Word := 1 <<< 16
def OHCI_RHS_OCIC : Word := 1 <<< 17
def OHCI_RHS_CRWE : Word := 1 <<< 31

def OHCI_PORT_CCS : Word := 1 <<< 0
def OHCI_PORT_PES : Word := 1 <<< 1
def OHCI_PORT_PSS : Word := 1 <<< 2
def OHCI_PORT_PRS : Word := 1 <<< 4
def OHCI_PORT_PPS : Word := 1 <<< 8
def OHCI_PORT_LSDA : Word := 1 <<< 9
def OHCI_PORT_CSC : Word := 1 <<< 16
def OHCI_PORT_PESC : Word := 1 <<< 17
def OHCI_PORT_PSSC : Word := 1 <<< 18
def OHCI_PORT_OCIC : Word := 1 <<< 19
def OHCI_PORT_PRSC : Word := 1 <<< 20
def OHCI_PORT_WTC : Word :=
  OHCI_PORT_CSC ||| OHCI_PORT_PESC ||| OHCI_PORT_PSSC ||| OHCI_PORT_OCIC ||| OHCI_PORT_PRSC

inductive Speed where
  | low
  | full
  deriving DecidableEq

/-- A port with the device that is attached to it. -/
structure OHCIPort where
  hcRhPortStatus : Word
  dev : Option Speed

structure OHCI where
  irqNum : Nat
  hcControl : Word
  hcCommandStatus : Word
  hcInterruptStatus : Word
  hcRhStatus : Word
  rhPort : Fin 4 → OHCIPort

/-! ## The status word of a port -/

/-- `OHCI_PortPower`. -/
def portPower (p : Bool) (status : Word) : Word :=
  if p then status ||| OHCI_PORT_PPS
  else status &&& ~~~(OHCI_PORT_PPS ||| OHCI_PORT_CCS ||| OHCI_PORT_PSS ||| OHCI_PORT_PRS)

/-- `OHCI_PortSetIfConnected`, with what it returns. -/
def portSetIfConnected (value status : Word) : Word × Bool :=
  if value = 0 then (status, false)
  else if ¬ has status OHCI_PORT_CCS then (status ||| OHCI_PORT_CSC, false)
  else (status ||| value, ¬ has status value)

/-- What `OHCI_PortSetStatus` does to the word. The device is told of a reset; none of it shows here. -/
def portSetStatus (value status : Word) : Word :=
  let status := if has value OHCI_PORT_WTC then status &&& ~~~(value &&& OHCI_PORT_WTC) else status
  let status := if has value OHCI_PORT_CCS then status &&& ~~~OHCI_PORT_PES else status
  let status := (portSetIfConnected (value &&& OHCI_PORT_PES) status).1
  let status := (portSetIfConnected (value &&& OHCI_PORT_PSS) status).1
  let (status, reset) := portSetIfConnected (value &&& OHCI_PORT_PRS) status
  let status :=
    if reset then (status &&& ~~~OHCI_PORT_PRS) ||| (OHCI_PORT_PES ||| OHCI_PORT_PRSC) else status
  let status := if has value OHCI_PORT_LSDA then portPower false status else status
  if has value OHCI_PORT_PPS then portPower true status else status

/-- The word after `OHCI_Attach`. -/
def attachStatus (speed : Speed) (status : Word) : Word :=
  let status := status ||| (OHCI_PORT_CCS ||| OHCI_PORT_CSC)
  match speed with
  | .low => status ||| OHCI_PORT_LSDA
  | .full => status &&& ~~~OHCI_PORT_LSDA

/-- The word after `OHCI_Detach`. -/
def detachStatus (status : Word) : Word :=
  let status :=
    if has status OHCI_PORT_CCS then (status &&& ~~~OHCI_PORT_CCS) ||| OHCI_PORT_CSC else status
  if has status OHCI_PORT_PES then (status &&& ~~~OHCI_PORT_PES) ||| OHCI_PORT_PESC else status

/-- The word after `OHCI_Wakeup`. -/
def wakeupStatus (status : Word) : Word :=
  if has status OHCI_PORT_PSS then (status ||| OHCI_PORT_PSSC) &&& ~~~OHCI_PORT_PSS else status

/-! ## The controller -/

namespace OHCI

/-- The index that the constructor registers a port under: the other controller's ports follow. -/
def portIndex (hc : OHCI) (i : Fin 4) : Nat := i + if hc.irqNum = 9 then 4 else 0

def state (hc : OHCI) : Word := hc.hcControl &&& OHCI_CTL_HCFS

def status (hc : OHCI) (i : Fin 4) : Word := (hc.rhPort i).hcRhPortStatus

def attached (hc : OHCI) (i : Fin 4) : Bool := (hc.rhPort i).dev.isSome

def setInterrupt (hc : OHCI) (value : Word) : OHCI :=
  { hc with hcInterruptStatus := hc.hcInterruptStatus ||| value }

def setStatus (hc : OHCI) (i : Fin 4) (status : Word) : OHCI :=
  { hc with rhPort := Function.update hc.rhPort i { hc.rhPort i with hcRhPortStatus := status } }

def setDev (hc : OHCI) (i : Fin 4) (dev : Option Speed) : OHCI :=
  { hc with rhPort := Function.update hc.rhPort i { hc.rhPort i with dev := dev } }

/-- A new status word, and the interrupt if it is not the old one. -/
def changeStatus (hc : OHCI) (i : Fin 4) (status : Word) : OHCI :=
  if hc.status i ≠ status then (hc.setStatus i status).setInterrupt OHCI_INTR_RHSC else hc

/-- The entry of the array that a callback about the port works on; there are four. -/
def entry (hc : OHCI) (i : Fin 4) : Option (Fin 4) :=
  if h : hc.portIndex i < 4 then some ⟨hc.portIndex i, h⟩ else none

/-- `OHCI_Attach`. -/
def attach (hc : OHCI) (i : Fin 4) : Option OHCI :=
  (hc.entry i).bind fun j => (hc.rhPort j).dev.map fun speed =>
    let hc := if hc.state = Suspend then hc.setInterrupt OHCI_INTR_RD else hc
    hc.changeStatus j (attachStatus speed (hc.status j))

/-- `OHCI_Detach`. -/
def detach (hc : OHCI) (i : Fin 4) : Option OHCI :=
  (hc.entry i).map fun j => hc.changeStatus j (detachStatus (hc.status j))

/-- `OHCI_Wakeup`. -/
def wakeup (hc : OHCI) (i : Fin 4) : Option OHCI :=
  (hc.entry i).map fun j =>
    let intr := if has (hc.status j) OHCI_PORT_PSS then OHCI_INTR_RHSC else 0
    let hc := hc.setStatus j (wakeupStatus (hc.status j))
    if hc.state = Suspend then
      let hc := { hc with hcControl := (hc.hcControl &&& ~~~OHCI_CTL_HCFS) ||| Resume }
      hc.setInterrupt OHCI_INTR_RD
    else hc.setInterrupt intr

/-- A port in `OHCI_StateReset`, with `USB_PortReset` for its device. -/
def resetPort (hc : OHCI) (i : Fin 4) : Option OHCI :=
  let hc := hc.setStatus i 0
  if hc.attached i then (hc.detach i).bind fun hc => hc.attach i else some hc

/-- `OHCI_StateReset`. -/
def stateReset (hc : OHCI) : Option OHCI :=
  (List.finRange 4).foldlM resetPort
    { hc with hcControl := 0, hcCommandStatus := 0, hcInterruptStatus := 0, hcRhStatus := 0 }

/-- `OHCI_ChangeState`; the other states have no part in the ports. -/
def changeState (hc : OHCI) (value : Word) : Option OHCI :=
  let oldState := hc.state
  let hc := { hc with hcControl := value }
  if oldState ≠ hc.state ∧ hc.state = Reset then hc.stateReset else some hc

/-- The write to HcCommandStatus. -/
def writeCommandStatus (hc : OHCI) (value : Word) : Option OHCI :=
  let hc := { hc with hcCommandStatus := hc.hcCommandStatus ||| (value &&& ~~~OHCI_STATUS_SOC) }
  if has hc.hcCommandStatus OHCI_STATUS_HCR then hc.stateReset else some hc

/-- `OHCI_PortPower` for each port. -/
def powerAll (hc : OHCI) (p : Bool) : OHCI :=
  { hc with rhPort := fun i => { hc.rhPort i with hcRhPortStatus := portPower p (hc.status i) } }

/-- `OHCI_SetHubStatus`. -/
def setHubStatus (hc : OHCI) (value : Word) : OHCI :=
  let old := hc.hcRhStatus
  let hc := if has value OHCI_RHS_OCIC then { hc with hcRhStatus := hc.hcRhStatus &&& ~~~OHCI_RHS_OCIC }
    else hc
  let hc := if has value OHCI_RHS_LPS then hc.powerAll false else hc
  let hc := if has value OHCI_RHS_LPSC then hc.powerAll true else hc
  let hc := if has value OHCI_RHS_DRWE then { hc with hcRhStatus := hc.hcRhStatus ||| OHCI_RHS_DRWE }
    else hc
  let hc := if has value OHCI_RHS_CRWE then { hc with hcRhStatus := hc.hcRhStatus &&& ~~~OHCI_RHS_DRWE }
    else hc
  if old ≠ hc.hcRhStatus then hc.setInterrupt OHCI_INTR_RHSC else hc

/-- As constructed; the registers are set by `OHCI_StateReset` there. -/
def construct (irqNum : Nat) : OHCI where
  irqNum := irqNum
  hcControl := 0
  hcCommandStatus := 0
  hcInterruptStatus := 0
  hcRhStatus := 0
  rhPort _ := ⟨0, none⟩

end OHCI

/-! ## Runs -/

/-- What the devices and the guest do. A device is attached to a free port and detached from its
own; only a device wakes the controller up. -/
inductive Op where
  | attach (i : Fin 4) (speed : Speed)
  | detach (i : Fin 4)
  | wakeup (i : Fin 4)
  | rhStatus (value : Word)
  | rhPortStatus (i : Fin 4) (value : Word)
  | control (value : Word)
  | commandStatus (value : Word)
  deriving DecidableEq

/-- The port that a device calls the controller back for. -/
def called (hc : OHCI) : Op → Option (Fin 4)
  | .attach i _ => if hc.attached i then none else some i
  | .detach i | .wakeup i => if hc.attached i then some i else none
  | _ => none

/-- `none` when a callback works on an entry that the array does not have. -/
def step (hc : OHCI) : Op → Option OHCI
  | .attach i speed => if hc.attached i then some hc else (hc.setDev i (some speed)).attach i
  | .detach i => if hc.attached i then (hc.detach i).map fun hc => hc.setDev i none else some hc
  | .wakeup i => if hc.attached i then hc.wakeup i else some hc
  | .rhStatus value => some (hc.setHubStatus value)
  | .rhPortStatus i value => some (hc.changeStatus i (portSetStatus value (hc.status i)))
  | .control value => hc.changeState value
  | .commandStatus value => hc.writeCommandStatus value

/-! ## What is to hold after every operation -/

/-- An enabled port is connected, and a powered one is connected exactly when it has a device. -/
structure Consistent (status : Word) (attached : Bool) : Prop where
  enabled : has status OHCI_PORT_PES → has status OHCI_PORT_CCS
  powered : has status OHCI_PORT_PPS → has status OHCI_PORT_CCS = attached

/-- What a callback is to tell in the status word of the port. -/
def Told (op : Op) (status : Word) : Prop :=
  match op with
  | .attach _ _ => has status OHCI_PORT_CCS
  | .detach _ => has status OHCI_PORT_CCS = false ∧ has status OHCI_PORT_PES = false
  | .wakeup _ => has status OHCI_PORT_PSS = false
  | _ => True

/-- The step stays within the array, a callback is told in the word of its port and in no other, and
all ports are consistent afterwards. -/
def StepOk (hc : OHCI) (op : Op) : Prop :=
  ∃ hc', step hc op = some hc' ∧
    (∀ i, called hc op = some i → Told op (hc'.status i) ∧ ∀ j, j ≠ i → hc'.status j = hc.status j) ∧
    ∀ i, Consistent (hc'.status i) (hc'.attached i)

/-- A write to HcRhPortStatus leaves the port enabled, or enables it. -/
def Enables (value status : Word) : Prop :=
  (has status OHCI_PORT_PES ∧ ¬ has value OHCI_PORT_CCS) ∨
    (has status OHCI_PORT_CCS ∧ (has value OHCI_PORT_PES ∨
      (has value OHCI_PORT_PRS ∧ ¬ has status OHCI_PORT_PRS)))

/-- The power of a port that is or gets enabled is not taken away, and power is not given to a port
with a device that is not connected, or is not any more. -/
structure PowerFits (off on enables connected attached : Prop) : Prop where
  taken : off → ¬ enables
  given : on → (connected ∧ ¬ off ↔ attached)

/-- The callback comes from the controller whose ports are registered from zero; or the power is
switched as it may be. -/
def Fits (hc : OHCI) : Op → Prop
  | .rhStatus value => ∀ i, PowerFits (has value OHCI_RHS_LPS) (has value OHCI_RHS_LPSC)
      (has (hc.status i) OHCI_PORT_PES) (has (hc.status i) OHCI_PORT_CCS) (hc.attached i)
  | .rhPortStatus i value => PowerFits (has value OHCI_PORT_LSDA) (has value OHCI_PORT_PPS)
      (Enables value (hc.status i)) (has (hc.status i) OHCI_PORT_CCS) (hc.attached i)
  | op => (called hc op).isSome → hc.irqNum ≠ 9

/-! ## The flags that matter -/

/-- The four bits of a status word that decide whether it is consistent. -/
structure Flags where
  connected : Bool
  enabled : Bool
  powered : Bool
  resetting : Bool

def flags (status : Word) : Flags where
  connected := has status OHCI_PORT_CCS
  enabled := has status OHCI_PORT_PES
  powered := has status OHCI_PORT_PPS
  resetting := has status OHCI_PORT_PRS

def flagsMask : Word := OHCI_PORT_CCS ||| OHCI_PORT_PES ||| OHCI_PORT_PPS ||| OHCI_PORT_PRS

variable {x y status value : Word}

theorem flags_congr (h : x &&& flagsMask = y &&& flagsMask) : flags x = flags y := by
  have hbit {m : Word} (hm : flagsMask &&& m = m) : has x m = has y m := by
    rw [← has_and_of_covered (x := x) hm, h, has_and_of_covered hm]
  rw [flags, flags, Flags.mk.injEq]
  exact ⟨hbit (by decide), hbit (by decide), hbit (by decide), hbit (by decide)⟩

/-- The other bits do not matter. -/
theorem flags_or (h : y &&& flagsMask = 0#32) : flags (x ||| y) = flags x :=
  flags_congr (Lib.Bits.or_and_of_apart h)

theorem flags_clear (h : y &&& flagsMask = 0#32) : flags (x &&& ~~~y) = flags x :=
  flags_congr (Lib.Bits.and_not_and_of_apart h)

theorem flags_connect : flags (x ||| OHCI_PORT_CCS) = { flags x with connected := true } := by
  rw [flags, flags, Flags.mk.injEq]
  exact ⟨has_or_of_has (by decide), has_or_of_apart (by decide), has_or_of_apart (by decide),
    has_or_of_apart (by decide)⟩

theorem flags_enable : flags (x ||| OHCI_PORT_PES) = { flags x with enabled := true } := by
  rw [flags, flags, Flags.mk.injEq]
  exact ⟨has_or_of_apart (by decide), has_or_of_has (by decide), has_or_of_apart (by decide),
    has_or_of_apart (by decide)⟩

theorem flags_disconnect : flags (x &&& ~~~OHCI_PORT_CCS) = { flags x with connected := false } := by
  rw [flags, flags, Flags.mk.injEq]
  exact ⟨has_clear_of_covered (by decide), has_clear_of_apart (by decide),
    has_clear_of_apart (by decide), has_clear_of_apart (by decide)⟩

theorem flags_disable : flags (x &&& ~~~OHCI_PORT_PES) = { flags x with enabled := false } := by
  rw [flags, flags, Flags.mk.injEq]
  exact ⟨has_clear_of_apart (by decide), has_clear_of_covered (by decide),
    has_clear_of_apart (by decide), has_clear_of_apart (by decide)⟩

theorem flags_startReset : flags (x ||| OHCI_PORT_PRS) = { flags x with resetting := true } := by
  rw [flags, flags, Flags.mk.injEq]
  exact ⟨has_or_of_apart (by decide), has_or_of_apart (by decide), has_or_of_apart (by decide),
    has_or_of_has (by decide)⟩

theorem flags_endReset : flags (x &&& ~~~OHCI_PORT_PRS) = { flags x with resetting := false } := by
  rw [flags, flags, Flags.mk.injEq]
  exact ⟨has_clear_of_apart (by decide), has_clear_of_apart (by decide),
    has_clear_of_apart (by decide), has_clear_of_covered (by decide)⟩

theorem flags_portPower_on : flags (portPower true x) = { flags x with powered := true } := by
  rw [portPower, if_pos rfl, flags, flags, Flags.mk.injEq]
  exact ⟨has_or_of_apart (by decide), has_or_of_apart (by decide), has_or_of_has (by decide),
    has_or_of_apart (by decide)⟩

/-- Without power a port is neither connected nor reset; enabled it stays. -/
theorem flags_portPower_off :
    flags (portPower false x) =
      { flags x with connected := false, powered := false, resetting := false } := by
  rw [portPower, if_neg Bool.false_ne_true, flags, flags, Flags.mk.injEq]
  exact ⟨has_clear_of_covered (by decide), has_clear_of_apart (by decide),
    has_clear_of_covered (by decide), has_clear_of_covered (by decide)⟩

theorem flags_powerOn (on : Bool) :
    flags (if on then portPower true x else x) =
      { flags x with powered := on || (flags x).powered } := by
  cases on with
  | true => rw [if_pos rfl, flags_portPower_on, Bool.true_or]
  | false => rw [if_neg Bool.false_ne_true, Bool.false_or]

theorem flags_powerOff (off : Bool) :
    flags (if off then portPower false x else x) =
      { flags x with
        connected := (flags x).connected && !off
        powered := (flags x).powered && !off
        resetting := (flags x).resetting && !off } := by
  cases off with
  | true =>
    rw [if_pos rfl, flags_portPower_off]
    simp only [Bool.not_true, Bool.and_false]
  | false =>
    rw [if_neg Bool.false_ne_true]
    simp only [Bool.not_false, Bool.and_true]

theorem flags_attach (speed : Speed) :
    flags (attachStatus speed x) = { flags x with connected := true } := by
  have hset : flags (x ||| (OHCI_PORT_CCS ||| OHCI_PORT_CSC)) = { flags x with connected := true } := by
    rw [← BitVec.or_assoc, flags_or (by decide), flags_connect]
  cases speed with
  | low => exact (flags_or (by decide)).trans hset
  | full => exact (flags_clear (by decide)).trans hset

theorem flags_detach :
    flags (detachStatus x) = { flags x with connected := false, enabled := false } := by
  have hconnect (s : Word) :
      flags (if has s OHCI_PORT_CCS then (s &&& ~~~OHCI_PORT_CCS) ||| OHCI_PORT_CSC else s) =
        { flags s with connected := false } := by
    split
    · rw [flags_or (by decide), flags_disconnect]
    · next h => rw [flags, Bool.eq_false_iff.mpr h]
  have henable (s : Word) :
      flags (if has s OHCI_PORT_PES then (s &&& ~~~OHCI_PORT_PES) ||| OHCI_PORT_PESC else s) =
        { flags s with enabled := false } := by
    split
    · rw [flags_or (by decide), flags_disable]
    · next h => rw [flags, Bool.eq_false_iff.mpr h]
  rw [detachStatus, henable, hconnect]

theorem flags_wakeup : flags (wakeupStatus x) = flags x := by
  unfold wakeupStatus
  split
  · rw [flags_clear (by decide), flags_or (by decide)]
  · rfl

section PortWrite

/-- A bit that does not matter is set or not. -/
theorem flags_setIfConnected_aside (h : y &&& flagsMask = 0#32) :
    flags (portSetIfConnected y x).1 = flags x := by
  unfold portSetIfConnected
  split
  · rfl
  split
  · exact flags_or (by decide)
  · exact flags_or h

/-- A connected port is enabled by the write. -/
theorem flags_setIfConnected_enable :
    flags (portSetIfConnected (value &&& OHCI_PORT_PES) x).1 =
      { flags x with enabled := (flags x).enabled || (flags x).connected && has value OHCI_PORT_PES } := by
  unfold portSetIfConnected
  split
  · next h =>
    have hno : has value OHCI_PORT_PES = false := has_eq_false.mpr h
    rw [hno, Bool.and_false, Bool.or_false]
  split
  · next h =>
    have hno : (flags x).connected = false := Bool.eq_false_iff.mpr h
    rw [hno, Bool.false_and, Bool.or_false]
    exact flags_or (by decide)
  · next h h' =>
    have hyes : has value OHCI_PORT_PES = true := has_iff.mpr h
    have hconn : (flags x).connected = true := not_not.mp h'
    have hbit : value &&& OHCI_PORT_PES = OHCI_PORT_PES := and_twoPow_of_has (i := 1) hyes
    rw [hyes, hconn, Bool.and_true, Bool.or_true, hbit, flags_enable]

/-- So it is by a reset that was not under way. -/
theorem flags_reset :
    flags (let (status, reset) := portSetIfConnected (value &&& OHCI_PORT_PRS) x
      if reset then (status &&& ~~~OHCI_PORT_PRS) ||| (OHCI_PORT_PES ||| OHCI_PORT_PRSC) else status) =
      { flags x with
        enabled := (flags x).enabled ||
          (flags x).connected && (has value OHCI_PORT_PRS && !(flags x).resetting) } := by
  unfold portSetIfConnected
  by_cases hzero : value &&& OHCI_PORT_PRS = 0
  · have hno : has value OHCI_PORT_PRS = false := has_eq_false.mpr hzero
    rw [if_pos hzero, hno, Bool.false_and, Bool.and_false, Bool.or_false]
    rfl
  have hyes : has value OHCI_PORT_PRS = true := has_iff.mpr hzero
  rw [if_neg hzero]
  by_cases hconn : has x OHCI_PORT_CCS
  · have hbit : value &&& OHCI_PORT_PRS = OHCI_PORT_PRS := and_twoPow_of_has (i := 4) hyes
    have hconn' : (flags x).connected = true := hconn
    rw [if_neg (not_not.mpr hconn), hyes, hconn', hbit, Bool.true_and, Bool.true_and]
    dsimp only
    cases hres : has x OHCI_PORT_PRS with
    | false =>
      have hres' : (flags x).resetting = false := hres
      rw [if_pos (by decide), hres', Bool.not_false, Bool.or_true, ← BitVec.or_assoc,
        flags_or (by decide), flags_enable, flags_endReset, flags_startReset, ← hres']
    | true =>
      have hres' : (flags x).resetting = true := hres
      rw [if_neg (by decide), hres', Bool.not_true, Bool.or_false, flags_startReset, ← hres']
  · have hconn' : (flags x).connected = false := Bool.eq_false_iff.mpr hconn
    rw [if_pos hconn, hconn', Bool.false_and, Bool.or_false]
    exact flags_or (by decide)

/-- The port is enabled if it stays so or becomes so, and connected unless its power goes. -/
theorem flags_portSetStatus :
    flags (portSetStatus value status) =
      { connected := (flags status).connected && !has value OHCI_PORT_LSDA
        enabled := (flags status).enabled && !has value OHCI_PORT_CCS ||
          (flags status).connected && (has value OHCI_PORT_PES ||
            has value OHCI_PORT_PRS && !(flags status).resetting)
        powered := has value OHCI_PORT_PPS || (flags status).powered && !has value OHCI_PORT_LSDA
        resetting := (flags status).resetting && !has value OHCI_PORT_LSDA } := by
  have hclear (s : Word) : flags (if has value OHCI_PORT_WTC then s &&& ~~~(value &&& OHCI_PORT_WTC)
      else s) = flags s := by
    split
    · exact flags_clear (and_apart (by decide))
    · rfl
  have hdisable (s : Word) : flags (if has value OHCI_PORT_CCS then s &&& ~~~OHCI_PORT_PES else s) =
      { flags s with enabled := (flags s).enabled && !has value OHCI_PORT_CCS } := by
    cases has value OHCI_PORT_CCS with
    | true => rw [if_pos rfl, flags_disable, Bool.not_true, Bool.and_false]
    | false => rw [if_neg Bool.false_ne_true, Bool.not_false, Bool.and_true]
  rw [portSetStatus, flags_powerOn, flags_powerOff, flags_reset, flags_setIfConnected_aside (and_apart (by decide)),
    flags_setIfConnected_enable, hdisable, hclear]
  simp only [Bool.or_assoc, Bool.and_or_distrib_left]

end PortWrite

/-! ## Consistent ports -/

section Consistent

variable {attached : Bool}

theorem consistent_iff : Consistent status attached ↔
    ((flags status).enabled → (flags status).connected) ∧
      ((flags status).powered → (flags status).connected = attached) :=
  ⟨fun h => ⟨h.enabled, h.powered⟩, fun h => ⟨h.1, h.2⟩⟩

theorem consistent_zero : Consistent 0 attached :=
  consistent_iff.mpr ⟨fun h => absurd h (by decide), fun h => absurd h (by decide)⟩

theorem consistent_attach (speed : Speed) : Consistent (attachStatus speed status) true := by
  rw [consistent_iff, flags_attach]
  exact ⟨fun _ => rfl, fun _ => rfl⟩

theorem consistent_detach : Consistent (detachStatus status) false := by
  rw [consistent_iff, flags_detach]
  exact ⟨fun h => h, fun _ => rfl⟩

theorem consistent_wakeup (h : Consistent status attached) :
    Consistent (wakeupStatus status) attached := by
  rw [consistent_iff, flags_wakeup]
  exact consistent_iff.mp h

/-- A consistent port whose power is taken or given, and that is enabled or not in between. -/
theorem consistent_power_iff {off on enables : Bool} {after : Word}
    (h : Consistent status attached) (henables : enables → (flags status).connected)
    (hconnected : (flags after).connected = ((flags status).connected && !off))
    (henabled : (flags after).enabled = enables)
    (hpowered : (flags after).powered = (on || (flags status).powered && !off)) :
    Consistent after attached ↔ PowerFits off on enables (flags status).connected attached := by
  have hold := (consistent_iff.mp h).2
  rw [consistent_iff, hconnected, henabled, hpowered]
  constructor
  · intro hnew
    obtain ⟨hkeep, hsame⟩ := hnew
    refine ⟨fun hoff hen => ?_, fun hon => ?_⟩
    · have hconn := hkeep hen
      rw [hoff, Bool.not_true, Bool.and_false] at hconn
      cases hconn
    · have heq := hsame (by rw [hon, Bool.true_or])
      rw [← heq, Bool.and_eq_true, Bool.not_eq_true', Bool.not_eq_true]
  · intro hfits
    refine ⟨fun hen => ?_, fun hpow => ?_⟩
    · rw [Bool.and_eq_true, Bool.not_eq_true', ← Bool.not_eq_true]
      exact ⟨henables hen, fun hoff => hfits.taken hoff hen⟩
    · by_cases hon : on
      · have hgiven := hfits.given hon
        rw [Bool.eq_iff_iff, Bool.and_eq_true, Bool.not_eq_true', ← Bool.not_eq_true]
        exact hgiven
      · rw [Bool.eq_false_iff.mpr hon, Bool.false_or, Bool.and_eq_true] at hpow
        rw [hpow.2, Bool.and_true]
        exact hold hpow.1

end Consistent

/-! ## What the operations change -/

variable {hc hc' hc'' : OHCI} {i : Fin 4} {w v : Word}

/-- Of the ports only the word of one has changed. -/
structure Sets (hc : OHCI) (i : Fin 4) (w : Word) (hc' : OHCI) : Prop where
  irqNum : hc'.irqNum = hc.irqNum
  dev : ∀ j, (hc'.rhPort j).dev = (hc.rhPort j).dev
  status : hc'.status = Function.update hc.status i w

theorem Sets.attached (h : Sets hc i w hc') : hc'.attached = hc.attached :=
  funext fun j => congrArg Option.isSome (h.dev j)

theorem Sets.same (h : Sets hc i w hc') : hc'.status i = w := by
  rw [h.status, Function.update_self]

theorem Sets.other (h : Sets hc i w hc') {j : Fin 4} (hj : j ≠ i) : hc'.status j = hc.status j := by
  rw [h.status, Function.update_of_ne hj]

theorem Sets.then (h : Sets hc i w hc') (h' : Sets hc' i v hc'') : Sets hc i v hc'' where
  irqNum := h'.irqNum.trans h.irqNum
  dev j := (h'.dev j).trans (h.dev j)
  status := by rw [h'.status, h.status, Function.update_idem]

/-- The other registers do not matter. -/
theorem Sets.congr (h : Sets hc i w hc') (hirq : hc''.irqNum = hc'.irqNum)
    (hports : hc''.rhPort = hc'.rhPort) : Sets hc i w hc'' where
  irqNum := hirq.trans h.irqNum
  dev j := by rw [hports, h.dev j]
  status := by rw [← h.status]; exact funext fun j => by rw [OHCI.status, hports, OHCI.status]

theorem setStatus_rhPort : (hc.setStatus i w).rhPort =
    Function.update hc.rhPort i { hc.rhPort i with hcRhPortStatus := w } := rfl

theorem setDev_rhPort {dev : Option Speed} : (hc.setDev i dev).rhPort =
    Function.update hc.rhPort i { hc.rhPort i with dev := dev } := rfl

theorem sets_setStatus (hc : OHCI) (i : Fin 4) (w : Word) : Sets hc i w (hc.setStatus i w) := by
  refine ⟨rfl, fun j => ?_, funext fun j => ?_⟩
  · by_cases hj : j = i
    · rw [setStatus_rhPort, hj, Function.update_self]
    · rw [setStatus_rhPort, Function.update_of_ne hj]
  · by_cases hj : j = i
    · rw [OHCI.status, setStatus_rhPort, hj, Function.update_self, Function.update_self]
    · rw [OHCI.status, setStatus_rhPort, Function.update_of_ne hj, Function.update_of_ne hj, OHCI.status]

theorem sets_changeStatus (hc : OHCI) (i : Fin 4) (w : Word) : Sets hc i w (hc.changeStatus i w) := by
  unfold OHCI.changeStatus
  split
  · exact (sets_setStatus hc i w).congr rfl rfl
  · next h =>
    have hsame : w = hc.status i := (not_not.mp h).symm
    exact ⟨rfl, fun _ => rfl, by rw [hsame, Function.update_eq_self]⟩

theorem entry_of_ne (h : hc.irqNum ≠ 9) (i : Fin 4) : hc.entry i = some i := by
  have hindex : hc.portIndex i = i := by rw [OHCI.portIndex, if_neg h, Nat.add_zero]
  rw [OHCI.entry, dif_pos (by rw [hindex]; exact i.isLt)]
  exact congrArg some (Fin.ext hindex)

/-- The ports of the other controller are registered behind the array. -/
theorem entry_of_nine (h : hc.irqNum = 9) (i : Fin 4) : hc.entry i = none := by
  rw [OHCI.entry, dif_neg]
  rw [OHCI.portIndex, if_pos h]
  exact Nat.not_lt.mpr (Nat.le_add_left 4 i)

theorem attach_sets (h : hc.irqNum ≠ 9) {speed : Speed} (hdev : (hc.rhPort i).dev = some speed) :
    ∃ hc', hc.attach i = some hc' ∧ Sets hc i (attachStatus speed (hc.status i)) hc' := by
  refine ⟨_, by rw [OHCI.attach, entry_of_ne h, Option.bind_some, hdev, Option.map_some], ?_⟩
  dsimp only
  split
  · have hset := sets_changeStatus (hc.setInterrupt OHCI_INTR_RD) i (attachStatus speed (hc.status i))
    exact ⟨hset.irqNum, hset.dev, hset.status⟩
  · exact sets_changeStatus hc i _

theorem attach_of_nine (h : hc.irqNum = 9) (i : Fin 4) : hc.attach i = none := by
  rw [OHCI.attach, entry_of_nine h, Option.bind_none]

theorem detach_sets (h : hc.irqNum ≠ 9) (i : Fin 4) :
    ∃ hc', hc.detach i = some hc' ∧ Sets hc i (detachStatus (hc.status i)) hc' :=
  ⟨_, by rw [OHCI.detach, entry_of_ne h, Option.map_some], sets_changeStatus hc i _⟩

theorem wakeup_sets (h : hc.irqNum ≠ 9) (i : Fin 4) :
    ∃ hc', hc.wakeup i = some hc' ∧ Sets hc i (wakeupStatus (hc.status i)) hc' := by
  refine ⟨_, by rw [OHCI.wakeup, entry_of_ne h, Option.map_some], ?_⟩
  dsimp only
  split
  · exact (sets_setStatus hc i _).congr rfl rfl
  · exact (sets_setStatus hc i _).congr rfl rfl

/-- Every port is consistent, and the other controller has no devices: attaching one does not return. -/
structure Sound (hc : OHCI) : Prop where
  consistent : ∀ i, Consistent (hc.status i) (hc.attached i)
  unattached : hc.irqNum = 9 → ∀ i, hc.attached i = false

theorem Sound.of_sets (h : Sound hc) (hs : Sets hc i w hc')
    (hw : Consistent w (hc.attached i)) : Sound hc' where
  consistent j := by
    rw [hs.attached]
    by_cases hj : j = i
    · rw [hj, hs.same]
      exact hw
    · rw [hs.other hj]
      exact h.consistent j
  unattached hirq := by
    rw [hs.attached]
    exact h.unattached (hs.irqNum ▸ hirq)

theorem Sound.irqNum_ne (h : Sound hc) (hi : hc.attached i) : hc.irqNum ≠ 9 := fun hirq =>
  Bool.false_ne_true ((h.unattached hirq i).symm.trans hi)

/-! ## Resets -/

theorem resetPort_sound (h : Sound hc) (i : Fin 4) :
    ∃ hc', hc.resetPort i = some hc' ∧ Sound hc' := by
  have hzero := sets_setStatus hc i 0
  by_cases hi : hc.attached i
  · obtain ⟨speed, hdev⟩ := Option.isSome_iff_exists.mp hi
    have hirq : (hc.setStatus i 0).irqNum ≠ 9 := h.irqNum_ne hi
    obtain ⟨hc₁, hdetach, hs₁⟩ := detach_sets hirq i
    have hdev₁ : (hc₁.rhPort i).dev = some speed := by rw [hs₁.dev, hzero.dev, hdev]
    obtain ⟨hc₂, hattach, hs₂⟩ := attach_sets (hs₁.irqNum ▸ hirq) hdev₁
    refine ⟨hc₂, ?_, h.of_sets ((hzero.then hs₁).then hs₂) (hi ▸ consistent_attach speed)⟩
    rw [OHCI.resetPort, if_pos (by rw [hzero.attached]; exact hi), hdetach, Option.bind_some, hattach]
  · refine ⟨_, ?_, h.of_sets hzero consistent_zero⟩
    rw [OHCI.resetPort, if_neg (by rw [hzero.attached]; exact hi)]

theorem resetPorts_sound (ports : List (Fin 4)) (h : Sound hc) :
    ∃ hc', ports.foldlM OHCI.resetPort hc = some hc' ∧ Sound hc' := by
  induction ports generalizing hc with
  | nil => exact ⟨hc, rfl, h⟩
  | cons i ports ih =>
    obtain ⟨hc₁, hreset, h₁⟩ := resetPort_sound h i
    obtain ⟨hc₂, hrest, h₂⟩ := ih h₁
    exact ⟨hc₂, by rw [List.foldlM_cons, hreset]; exact hrest, h₂⟩

theorem stateReset_sound (h : Sound hc) : ∃ hc', hc.stateReset = some hc' ∧ Sound hc' :=
  resetPorts_sound _ ⟨h.consistent, h.unattached⟩

theorem changeState_sound (h : Sound hc) (value : Word) :
    ∃ hc', hc.changeState value = some hc' ∧ Sound hc' := by
  have hset : Sound { hc with hcControl := value } := ⟨h.consistent, h.unattached⟩
  unfold OHCI.changeState
  dsimp only
  split
  · exact stateReset_sound hset
  · exact ⟨_, rfl, hset⟩

theorem writeCommandStatus_sound (h : Sound hc) (value : Word) :
    ∃ hc', hc.writeCommandStatus value = some hc' ∧ Sound hc' := by
  unfold OHCI.writeCommandStatus
  dsimp only
  split
  · exact stateReset_sound ⟨h.consistent, h.unattached⟩
  · exact ⟨_, rfl, h.consistent, h.unattached⟩

/-! ## Power -/

/-- What a write to HcRhStatus does to each port. -/
def hubWrite (value status : Word) : Word :=
  let status := if has value OHCI_RHS_LPS then portPower false status else status
  if has value OHCI_RHS_LPSC then portPower true status else status

theorem powerAll_if (hc : OHCI) (p b : Bool) :
    (if b then hc.powerAll p else hc).rhPort = fun i =>
      { hc.rhPort i with
        hcRhPortStatus := if b then portPower p (hc.rhPort i).hcRhPortStatus
          else (hc.rhPort i).hcRhPortStatus } := by
  cases b <;> rfl

theorem setHubStatus_rhPort (hc : OHCI) (value : Word) : (hc.setHubStatus value).rhPort = fun i =>
    { hc.rhPort i with hcRhPortStatus := hubWrite value (hc.status i) } := by
  have hregister (b : Prop) [Decidable b] (hc : OHCI) (status : Word) :
      (if b then { hc with hcRhStatus := status } else hc).rhPort = hc.rhPort := by split <;> rfl
  have hinterrupt (b : Prop) [Decidable b] (hc : OHCI) :
      (if b then hc.setInterrupt OHCI_INTR_RHSC else hc).rhPort = hc.rhPort := by split <;> rfl
  rw [OHCI.setHubStatus, hinterrupt, hregister, hregister, powerAll_if, powerAll_if, hregister]
  rfl

theorem setHubStatus_irqNum (hc : OHCI) (value : Word) :
    (hc.setHubStatus value).irqNum = hc.irqNum := by
  have hregister (b : Prop) [Decidable b] (hc : OHCI) (status : Word) :
      (if b then { hc with hcRhStatus := status } else hc).irqNum = hc.irqNum := by split <;> rfl
  have hpower (b : Prop) [Decidable b] (hc : OHCI) (p : Bool) :
      (if b then hc.powerAll p else hc).irqNum = hc.irqNum := by split <;> rfl
  have hinterrupt (b : Prop) [Decidable b] (hc : OHCI) :
      (if b then hc.setInterrupt OHCI_INTR_RHSC else hc).irqNum = hc.irqNum := by split <;> rfl
  rw [OHCI.setHubStatus, hinterrupt, hregister, hregister, hpower, hpower, hregister]

theorem consistent_hubWrite_iff {attached : Bool} (h : Consistent status attached) :
    Consistent (hubWrite value status) attached ↔
      PowerFits (has value OHCI_RHS_LPS) (has value OHCI_RHS_LPSC) (has status OHCI_PORT_PES)
        (has status OHCI_PORT_CCS) attached := by
  have hflags := flags_powerOff (x := status) (has value OHCI_RHS_LPS)
  have hflags' : flags (hubWrite value status) = _ := flags_powerOn (has value OHCI_RHS_LPSC)
  rw [hflags] at hflags'
  exact consistent_power_iff h h.enabled (congrArg Flags.connected hflags')
    (congrArg Flags.enabled hflags') (congrArg Flags.powered hflags')

theorem enables_iff : Enables value status ↔
    ((flags status).enabled && !has value OHCI_PORT_CCS ||
      (flags status).connected && (has value OHCI_PORT_PES ||
        has value OHCI_PORT_PRS && !(flags status).resetting)) = true := by
  simp only [Enables, flags, Bool.or_eq_true, Bool.and_eq_true, Bool.not_eq_true', Bool.not_eq_true]

theorem consistent_portWrite_iff {attached : Bool} (h : Consistent status attached) :
    Consistent (portSetStatus value status) attached ↔
      PowerFits (has value OHCI_PORT_LSDA) (has value OHCI_PORT_PPS) (Enables value status)
        (has status OHCI_PORT_CCS) attached := by
  have hflags : flags (portSetStatus value status) = _ := flags_portSetStatus
  rw [enables_iff]
  refine consistent_power_iff h (fun hen => ?_) (congrArg Flags.connected hflags)
    (congrArg Flags.enabled hflags) (congrArg Flags.powered hflags)
  rw [Bool.or_eq_true, Bool.and_eq_true, Bool.and_eq_true] at hen
  exact hen.elim (fun hold => h.enabled hold.1) fun hnew => hnew.1

/-! ## Runs -/

theorem setDev_status {dev : Option Speed} : (hc.setDev i dev).status = hc.status := by
  funext j
  by_cases hj : j = i
  · rw [OHCI.status, setDev_rhPort, hj, Function.update_self, OHCI.status]
  · rw [OHCI.status, setDev_rhPort, Function.update_of_ne hj, OHCI.status]

theorem setDev_attached {dev : Option Speed} :
    (hc.setDev i dev).attached = Function.update hc.attached i dev.isSome := by
  funext j
  by_cases hj : j = i
  · rw [OHCI.attached, setDev_rhPort, hj, Function.update_self, Function.update_self]
  · rw [OHCI.attached, setDev_rhPort, Function.update_of_ne hj, Function.update_of_ne hj, OHCI.attached]

/-- A step as it should be, in a form that the next one starts from. -/
def SoundStep (hc : OHCI) (op : Op) : Prop :=
  ∃ hc', step hc op = some hc' ∧
    (∀ i, called hc op = some i → Told op (hc'.status i) ∧ ∀ j, j ≠ i → hc'.status j = hc.status j) ∧
    Sound hc'

theorem SoundStep.stepOk {op : Op} (h : SoundStep hc op) : StepOk hc op := by
  obtain ⟨hc', hstep, htold, hsound⟩ := h
  exact ⟨hc', hstep, htold, hsound.consistent⟩

theorem soundStep_quiet {op : Op} (hcalled : called hc op = none)
    (h : ∃ hc', step hc op = some hc' ∧ Sound hc') : SoundStep hc op := by
  obtain ⟨hc', hstep, hsound⟩ := h
  refine ⟨hc', hstep, fun i hi => ?_, hsound⟩
  rw [hcalled] at hi
  cases hi

theorem soundStep_attach (h : Sound hc) {speed : Speed} (hfits : Fits hc (.attach i speed)) :
    SoundStep hc (.attach i speed) := by
  by_cases hi : hc.attached i
  · exact soundStep_quiet (if_pos hi) ⟨hc, if_pos hi, h⟩
  have hcalled : called hc (.attach i speed) = some i := if_neg hi
  have hirq : hc.irqNum ≠ 9 := hfits (by rw [hcalled]; rfl)
  have hset : (hc.setDev i (some speed)).irqNum ≠ 9 := hirq
  have hdev : ((hc.setDev i (some speed)).rhPort i).dev = some speed := by
    rw [setDev_rhPort, Function.update_self]
  obtain ⟨hc', hattach, hs⟩ := attach_sets hset hdev
  refine ⟨hc', (if_neg hi).trans hattach, fun k hk => ?_, fun j => ?_, fun hnine => ?_⟩
  · obtain rfl : i = k := Option.some.inj (hcalled.symm.trans hk)
    refine ⟨?_, fun j hj => by rw [hs.other hj, setDev_status]⟩
    rw [Told, hs.same]
    exact congrArg Flags.connected (flags_attach speed)
  · rw [hs.attached, setDev_attached]
    by_cases hj : j = i
    · rw [hj, hs.same, Function.update_self]
      exact consistent_attach speed
    · rw [hs.other hj, setDev_status, Function.update_of_ne hj]
      exact h.consistent j
  · exact absurd (hs.irqNum.symm.trans hnine) hirq

theorem soundStep_detach (h : Sound hc) : SoundStep hc (.detach i) := by
  by_cases hi : hc.attached i
  · have hcalled : called hc (.detach i) = some i := if_pos hi
    have hirq := h.irqNum_ne hi
    obtain ⟨hc', hdetach, hs⟩ := detach_sets hirq i
    refine ⟨hc'.setDev i none, ?_, fun k hk => ?_, fun j => ?_, fun hnine => ?_⟩
    · rw [step, if_pos hi, hdetach, Option.map_some]
    · obtain rfl : i = k := Option.some.inj (hcalled.symm.trans hk)
      rw [setDev_status]
      refine ⟨?_, fun j hj => hs.other hj⟩
      rw [Told, hs.same]
      exact ⟨congrArg Flags.connected flags_detach, congrArg Flags.enabled flags_detach⟩
    · rw [setDev_status, setDev_attached]
      by_cases hj : j = i
      · rw [hj, hs.same, Function.update_self]
        exact consistent_detach
      · rw [hs.other hj, Function.update_of_ne hj, hs.attached]
        exact h.consistent j
    · exact absurd (hs.irqNum.symm.trans hnine) hirq
  · exact soundStep_quiet (if_neg hi) ⟨hc, if_neg hi, h⟩

theorem soundStep_wakeup (h : Sound hc) : SoundStep hc (.wakeup i) := by
  by_cases hi : hc.attached i
  · have hcalled : called hc (.wakeup i) = some i := if_pos hi
    obtain ⟨hc', hwakeup, hs⟩ := wakeup_sets (h.irqNum_ne hi) i
    refine ⟨hc', (if_pos hi).trans hwakeup, fun k hk => ?_,
      h.of_sets hs (consistent_wakeup (h.consistent i))⟩
    obtain rfl : i = k := Option.some.inj (hcalled.symm.trans hk)
    refine ⟨?_, fun j hj => hs.other hj⟩
    rw [Told, hs.same, wakeupStatus]
    split
    · exact has_clear_of_covered (by decide)
    · next hno => exact Bool.eq_false_iff.mpr hno
  · exact soundStep_quiet (if_neg hi) ⟨hc, if_neg hi, h⟩

theorem consistent_rhStatus_iff (h : Sound hc) (value : Word) :
    (∀ i, Consistent ((hc.setHubStatus value).status i) ((hc.setHubStatus value).attached i)) ↔
      Fits hc (.rhStatus value) := by
  refine forall_congr' fun i => ?_
  rw [OHCI.status, OHCI.attached, setHubStatus_rhPort]
  exact consistent_hubWrite_iff (h.consistent i)

theorem consistent_rhPortStatus_iff (h : Sound hc) (i : Fin 4) (value : Word) :
    Consistent (portSetStatus value (hc.status i)) (hc.attached i) ↔
      Fits hc (.rhPortStatus i value) := consistent_portWrite_iff (h.consistent i)

/-- Where a step fits, it is as it should be. -/
theorem soundStep_of_fits (h : Sound hc) {op : Op} (hfits : Fits hc op) : SoundStep hc op := by
  cases op with
  | attach i speed => exact soundStep_attach h hfits
  | detach i => exact soundStep_detach h
  | wakeup i => exact soundStep_wakeup h
  | rhStatus value =>
    refine soundStep_quiet rfl ⟨_, rfl, (consistent_rhStatus_iff h value).mpr hfits, fun hnine i => ?_⟩
    rw [OHCI.attached, setHubStatus_rhPort]
    exact h.unattached ((setHubStatus_irqNum hc value).symm.trans hnine) i
  | rhPortStatus i value =>
    exact soundStep_quiet rfl ⟨_, rfl, h.of_sets (sets_changeStatus hc i _)
      ((consistent_rhPortStatus_iff h i value).mpr hfits)⟩
  | control value => exact soundStep_quiet rfl (changeState_sound h value)
  | commandStatus value => exact soundStep_quiet rfl (writeCommandStatus_sound h value)

theorem fits_of_stepOk (h : Sound hc) {op : Op} (hok : StepOk hc op) : Fits hc op := by
  obtain ⟨hc', hstep, -, hcons⟩ := hok
  cases op with
  | attach i speed =>
    intro hcalled hnine
    have hi : ¬ hc.attached i := by
      rw [h.unattached hnine i]
      exact Bool.false_ne_true
    have hset : (hc.setDev i (some speed)).irqNum = 9 := hnine
    rw [step, if_neg hi, attach_of_nine hset] at hstep
    cases hstep
  | detach i | wakeup i =>
    intro hcalled hnine
    have hnone : (if hc.attached i then some i else none) = none :=
      if_neg (by rw [h.unattached hnine i]; exact Bool.false_ne_true)
    rw [called, hnone] at hcalled
    cases hcalled
  | rhStatus value =>
    obtain rfl := Option.some.inj hstep
    exact (consistent_rhStatus_iff h value).mp hcons
  | rhPortStatus i value =>
    obtain rfl := Option.some.inj hstep
    have hset := sets_changeStatus hc i (portSetStatus value (hc.status i))
    have hport := hcons i
    rw [hset.same, hset.attached] at hport
    exact (consistent_rhPortStatus_iff h i value).mp hport
  | control value => exact fun hcalled => absurd hcalled Bool.false_ne_true
  | commandStatus value => exact fun hcalled => absurd hcalled Bool.false_ne_true

theorem sound_construct (irqNum : Nat) : Sound (OHCI.construct irqNum) :=
  ⟨fun _ => consistent_zero, fun _ _ => rfl⟩

/-- The callbacks of a run stay with their ports and the ports stay consistent exactly when the
callbacks are those of the controller whose ports are registered from zero and the power is switched
only as it may be. -/
theorem root_hub_sound_iff (irqNum : Nat) (ops : List Op) :
    Guarded step StepOk (OHCI.construct irqNum) ops ↔ Guarded step Fits (OHCI.construct irqNum) ops := by
  apply guarded_congr (I := Sound)
  · exact fun hc op h => ⟨fits_of_stepOk h, fun hfits => (soundStep_of_fits h hfits).stepOk⟩
  · intro hc op hc' h hfits hstep
    obtain ⟨hc'', hstep', -, hsound⟩ := soundStep_of_fits h hfits
    obtain rfl := Option.some.inj (hstep.symm.trans hstep')
    exact hsound
  · exact sound_construct irqNum

/-- A device of the first controller is reset, and then the ports are powered down: its port stays
enabled. To the other controller no device can be attached. -/
theorem powered_down_port_stays_enabled :
    ¬ Guarded step StepOk (OHCI.construct 1)
        [.attach 0 .full, .rhPortStatus 0 OHCI_PORT_PRS, .rhStatus OHCI_RHS_LPS] ∧
      ¬ Guarded step StepOk (OHCI.construct 9) [.attach 0 .full] := by
  constructor
  · intro h
    obtain ⟨-, hattach⟩ := h
    obtain ⟨-, hreset⟩ := hattach _ rfl
    obtain ⟨⟨hc', hpower, -, hcons⟩, -⟩ := hreset _ rfl
    obtain rfl := Option.some.inj hpower
    exact absurd ((hcons 0).enabled (by decide)) (by decide)
  · intro h
    obtain ⟨⟨hc', hattach, -⟩, -⟩ := h
    cases hattach

end OpenXbox.Ohci.RootHub
