import OpenXbox.Ohci.AsyncPacket
import OpenXbox.Ohci.TransferBounds
import OpenXbox.Usb.Ports

/-!
# Assertions that a guest can reach

The controller with the devices at its ports: descriptors of any content are serviced, while ports are
reset and devices come and go. A step ends in a failed assertion exactly when a packet reaches a
device that does not take it.
-/

namespace OpenXbox.Ohci.Assertions

open OpenXbox.Lib.Run OpenXbox.Lib.Buffer OpenXbox.Ohci.Memory OpenXbox.Ohci.Service
open OpenXbox.Ohci.AsyncPacket
open OpenXbox.Ohci.DoneQueue (headTD)
open OpenXbox.Ohci.TransferBounds (usbBufferSize)
open OpenXbox.Usb.Control (USB_TOKEN_SETUP USB_TOKEN_IN USB_TOKEN_OUT USBPacket)
open OpenXbox.Usb.Packet (Failure)
open OpenXbox.Usb.Hub (NUM_PORTS)
open OpenXbox.Usb.Packet (USB_MAX_ENDPOINTS)
open OpenXbox.Usb.Ports

def OHCI_ED_FA_MASK : Word := 0x7F
def OHCI_ED_EN_MASK : Word := 0x780

structure System where
  ohci : OHCI
  bus : Bus

/-! ## The packet of a service -/

/-- The `pid` for a direction that is not the reserved one. -/
def pidOf (dir : Word) : Nat :=
  if dir = OHCI_TD_DIR_IN then USB_TOKEN_IN
  else if dir = OHCI_TD_DIR_OUT then USB_TOKEN_OUT
  else USB_TOKEN_SETUP

/-- What a service hands to the device. -/
structure Submission where
  pid : Nat
  length : Nat
  /-- The bytes that have been copied to `m_UsbBuffer`. -/
  fetched : Nat
  buffer : Nat → Byte

def Submission.ioVec (p : Submission) : List Byte := slice p.buffer 0 p.length

def submissionTD (hc : Controller) (ed : EndpointDescriptor) (td : TransferDescriptor) : Submission :=
  let dir := direction ed td
  let length := packetLength ed td dir
  { pid := pidOf dir
    length := length
    fetched := if bufferLength td ≠ 0 ∧ dir ≠ OHCI_TD_DIR_IN then length else 0
    buffer := (fetchTD hc ed td dir false).usbBuffer }

def submissionIsoTD (hc : Controller) (ed : EndpointDescriptor) (td : IsoDescriptor) : Submission :=
  let dir := bm ed.flags OHCI_ED_D_MASK 11
  let r := (relativeFrame hc td).toNat
  let len := isoLength (isoStart td r) (isoEnd td r)
  { pid := pidOf dir
    length := len
    fetched := if len ≠ 0 ∧ dir ≠ OHCI_TD_DIR_IN then len else 0
    buffer := (fetchIsoTD hc td dir r len).1.usbBuffer }

def submission (hc : Controller) (stack : Nat → Byte) (ed : EndpointDescriptor) : Submission :=
  if IsGeneral ed then submissionTD hc ed (readTD hc.mem (headTD ed) stack)
  else submissionIsoTD hc ed (readIsoTD hc.mem (headTD ed) stack)

/-- The function address and the endpoint number in `ed`. -/
def functionAddress (ed : EndpointDescriptor) : Byte := (bm ed.flags OHCI_ED_FA_MASK 0).setWidth 8

def endpointNumber (ed : EndpointDescriptor) : Nat := (bm ed.flags OHCI_ED_EN_MASK 7).toNat

/-- An answer that finds the stack as it is; nothing has been submitted. -/
def unanswered (stack : Nat → Byte) (behind : Word) : Answer :=
  ⟨stack, ⟨USB_RET_SUCCESS, 0⟩, fun _ => 0, behind⟩

/-- What the controller finds in its packet and its buffer after the device has had them. -/
def answered (stack : Nat → Byte) (behind : Word) (p : Submission) (pkt : USBPacket) : Answer :=
  ⟨stack, ⟨BitVec.ofInt 32 pkt.status, BitVec.ofNat 32 pkt.actualLength⟩, put p.buffer 0 pkt.ioVec,
    behind⟩

/-- The service submits a packet. -/
def Submits (hc : Controller) (stack : Nat → Byte) (ed : EndpointDescriptor) (completion : Bool) :
    Prop :=
  course (unanswered stack 0) hc ed completion = .answers

instance (hc : Controller) (stack : Nat → Byte) (ed : EndpointDescriptor) (completion : Bool) :
    Decidable (Submits hc stack ed completion) := inferInstanceAs (Decidable (_ = _))

/-! ## Steps -/

inductive Op where
  /-- The descriptor at the head of the queue of `ed` is serviced. -/
  | service (stack : Nat → Byte) (behind : Word) (ed : EndpointDescriptor) (completion : Bool)
  | skip (ed : EndpointDescriptor)
  | disable
  | stateReset
  /-- Guest memory, registers and the status words of the ports change. -/
  | elsewhere (hc : Controller) (enabled : Fin 4 → Bool)
  /-- The guest resets a port of the controller. -/
  | resetPort (port : Fin 4)
  | attachHub (port : Fin 4) (strings : List (Nat × List Byte))
  | attachGamepad (place : Place) (strings : List (Nat × List Byte))
  | detach (place : Place)

/-- The device at a place by a number, for `OHCI_AsyncCancelDevice`. -/
def deviceNumber (place : Place) : Nat :=
  place.port.val * (NUM_PORTS + 1) + match place.below with
    | none => 0
    | some n => n.val + 1

/-- The devices at the ports of the controller. -/
def rootDevices (b : Bus) : List Nat :=
  ((List.finRange 4).filter fun port => (b.dev ⟨port, none⟩).isSome).map fun port =>
    deviceNumber ⟨port, none⟩

namespace System

variable (s : System)

/-- A step of the controller alone. -/
def controller (op : AsyncPacket.Op) (bus : Bus) : Except Failure System :=
  match AsyncPacket.step s.ohci op with
  | none => .error .assertion
  | some ohci => .ok ⟨ohci, bus⟩

/-- `OHCI_ServiceTD` and `OHCI_ServiceIsoTD` with the functions of the device that they call. -/
def service (stack : Nat → Byte) (behind : Word) (ed : EndpointDescriptor) (completion : Bool) :
    Except Failure System :=
  if Submits s.ohci.toController stack ed completion then
    let p := submission s.ohci.toController stack ed
    if p.fetched > usbBufferSize then .error .overrun
    else if s.ohci.asserts ∧ s.ohci.inflight then .error .assertion
    else
      match s.bus.handle (functionAddress ed) p.pid (endpointNumber ed) p.ioVec with
      | .error e => .error e
      | .ok (bus, pkt) =>
        let dev := (s.bus.find (functionAddress ed)).map fun found => deviceNumber found.1
        s.controller (.service (answered stack behind p pkt) dev ed completion) bus
  else s.controller (.service (unanswered stack behind) none ed completion) s.bus

/-- The devices of the bus after a reset of the controller. -/
def resetBus : Bus :=
  (List.finRange 4).foldl Bus.portReset { s.bus with enabled := fun _ => false }

def outcome : Op → Except Failure System
  | .service stack behind ed completion => s.service stack behind ed completion
  | .skip ed => s.controller (.skip ed) s.bus
  | .disable => s.controller .disable s.bus
  | .stateReset => s.controller (.reset (rootDevices s.bus)) s.resetBus
  | .elsewhere hc enabled => s.controller (.elsewhere hc) { s.bus with enabled := enabled }
  | .resetPort port => .ok { s with bus :=
      { s.bus.deviceReset ⟨port, none⟩ with enabled := Function.update s.bus.enabled port true } }
  | .attachHub port strings => .ok { s with bus := s.bus.attachHub port strings }
  | .attachGamepad place strings => .ok { s with bus := s.bus.attachGamepad place strings }
  | .detach place =>
    -- the hub's destructor detaches it, the gamepad's does not
    if place.below = none then s.controller (.detach (deviceNumber place)) (s.bus.detach place)
    else .ok { s with bus := s.bus.detach place }

end System

/-- A run ends at an assertion, and at an access past the end of a buffer. -/
def step (s : System) (op : Op) : Option System :=
  match s.outcome op with
  | .error _ => none
  | .ok t => some t

/-- No assertion fails. -/
def StepOk (s : System) (op : Op) : Prop := s.outcome op ≠ .error .assertion

/-- A packet that is submitted is taken by the device that it reaches. -/
def Fits (s : System) : Op → Prop
  | .service stack _ ed completion =>
    let p := submission s.ohci.toController stack ed
    Submits s.ohci.toController stack ed completion → p.fetched ≤ usbBufferSize →
      s.bus.Takes (functionAddress ed) p.pid (endpointNumber ed) p.ioVec
  | _ => True

/-- A controller without devices. -/
def System.construct (hc : Controller) : System :=
  ⟨OHCI.construct true hc, fun _ => false, fun _ => none⟩

/-! ## The packet never waits -/

/-- No descriptor waits for its packet, and none is in flight. -/
structure Idle (hc : OHCI) : Prop where
  free : hc.asyncTD = 0
  incomplete : hc.asyncComplete = false
  landed : hc.state ≠ .async

section Idle

variable {hc : OHCI}

theorem submitted_ne_waits {a : Answer} (ha : a.packet.status ≠ USB_RET_ASYNC) :
    submitted a ≠ .waits := by
  rw [submitted, if_neg ha]
  decide

theorem course_ne_waits {a : Answer} (ha : a.packet.status ≠ USB_RET_ASYNC) (hc : Controller)
    (ed : EndpointDescriptor) (completion : Bool) : course a hc ed completion ≠ .waits := by
  have hsubmitted := submitted_ne_waits ha
  have hite {p : Prop} [Decidable p] {x y : Course} (hx : x ≠ .waits) (hy : y ≠ .waits) :
      (if p then x else y) ≠ .waits := by
    split
    · exact hx
    · exact hy
  have hidle : Course.idle ≠ .waits := by decide
  have hexpires : Course.expires ≠ .waits := by decide
  have hcompletes : Course.completes ≠ .waits := by decide
  rw [course, courseTD, courseIsoTD]
  refine hite ?_ ?_
  · exact hite hidle (hite hidle (hite hidle (hite hcompletes (hite hidle hsubmitted))))
  · refine hite hidle (hite hidle (hite hexpires (hite hidle (hite hidle (hite hidle (hite hidle ?_))))))
    exact hite hcompletes hsubmitted

theorem samePacket_idle (h : Idle hc) {hc' : Controller} (hsame : SamePacket hc.toController hc') :
    Idle { hc with toController := hc' } :=
  ⟨hsame.asyncTD.trans h.free, hsame.asyncComplete.trans h.incomplete, h.landed⟩

theorem stateAfter_ne_async {status : Word} (h : status ≠ USB_RET_ASYNC) : stateAfter status ≠ .async := by
  rw [stateAfter, if_neg h]
  split
  · nofun
  · nofun

/-- A service whose packet has not been put off ends without one that waits. -/
theorem service_idle (h : Idle hc) {a : Answer} (ha : a.packet.status ≠ USB_RET_ASYNC)
    (dev : Option Nat) (ed : EndpointDescriptor) (completion : Bool) :
    ∃ hc', hc.service a dev ed completion = some hc' ∧ Idle hc' := by
  have htook := serviced_took a hc.toController ed completion
  have hne := course_ne_waits ha hc.toController ed completion
  have hland : ¬ (hc.asserts ∧ hc.inflight) := fun hp => h.landed (of_decide_eq_true hp.2)
  unfold OHCI.service
  generalize course a hc.toController ed completion = c at htook hne ⊢
  generalize serviced a hc.toController ed completion = s at htook ⊢
  cases htook with
  | idle haside hsame => exact ⟨_, rfl, samePacket_idle h hsame⟩
  | expires hsame => exact ⟨_, rfl, samePacket_idle h hsame⟩
  | waitsTD => exact absurd rfl hne
  | waitsIso => exact absurd rfl hne
  | answers sent hfree hpacket htd hdone huses =>
    have hsame := huses.samePacket
    have hsubmit : OHCI.submit { hc with toController := s.hc } a dev (headTD ed) = some _ := if_neg hland
    dsimp only
    rw [hsubmit]
    exact ⟨_, rfl, hsame.asyncTD.trans (htd.trans h.free),
      hsame.asyncComplete.trans (hdone.trans h.incomplete), stateAfter_ne_async ha⟩
  | completesTD sent hg h0 hown => exact absurd (hown.trans h.free) h0
  | completesIso sent hi hpacket huses =>
    have hidle := samePacket_idle h (hpacket.trans huses.samePacket)
    exact ⟨_, rfl, hidle.free, hidle.incomplete, hidle.landed⟩

theorem asyncCancelDevice_idle (h : Idle hc) (dev : Nat) : hc.asyncCancelDevice dev = some hc :=
  if_neg fun hp => hp.1 h.free

theorem cancelDevices_idle (h : Idle hc) (devs : List Nat) :
    devs.foldlM OHCI.asyncCancelDevice hc = some hc := by
  induction devs with
  | nil => rfl
  | cons dev devs ih =>
    rw [List.foldlM_cons, asyncCancelDevice_idle h]
    exact ih

theorem stateReset_idle (h : Idle hc) (devs : List Nat) :
    ∃ hc', hc.stateReset devs = some hc' ∧ Idle hc' := by
  have hreset : Idle { hc with hcDoneHead := 0, hcFmNumber := 0, doneCount := 7 } :=
    ⟨h.free, h.incomplete, h.landed⟩
  rw [OHCI.stateReset, cancelDevices_idle hreset]
  exact ⟨_, if_neg (not_not.mpr h.free), hreset⟩

end Idle

/-! ## Packets that are taken -/

/-- What holds in every state that is reached. -/
structure Quiet (s : System) : Prop where
  idle : Idle s.ohci
  legal : s.bus.Legal

section Packets

variable {s : System}

theorem pidOf_cases (dir : Word) :
    pidOf dir = USB_TOKEN_SETUP ∨ pidOf dir = USB_TOKEN_IN ∨ pidOf dir = USB_TOKEN_OUT := by
  rw [pidOf]
  split
  · exact .inr (.inl rfl)
  split
  · exact .inr (.inr rfl)
  · exact .inl rfl

theorem submission_pid (hc : Controller) (stack : Nat → Byte) (ed : EndpointDescriptor) :
    ∃ dir, (submission hc stack ed).pid = pidOf dir := by
  rw [submission]
  split
  · exact ⟨_, rfl⟩
  · exact ⟨_, rfl⟩

theorem endpointNumber_le (ed : EndpointDescriptor) : endpointNumber ed ≤ USB_MAX_ENDPOINTS := by
  have hmask : (ed.flags &&& OHCI_ED_EN_MASK).toNat ≤ 0x780 := by
    rw [BitVec.toNat_and]
    exact Nat.and_le_right
  rw [endpointNumber, bm, BitVec.toNat_ushiftRight, Nat.shiftRight_eq_div_pow, USB_MAX_ENDPOINTS]
  omega

theorem unanswered_ne_async (stack : Nat → Byte) (behind : Word) :
    (unanswered stack behind).packet.status ≠ USB_RET_ASYNC :=
  show USB_RET_SUCCESS ≠ USB_RET_ASYNC by decide

/-- The status of a handled packet is no `USB_RET_ASYNC` for the controller either. -/
theorem answered_ne_async {stack : Nat → Byte} {behind : Word} {p : Submission} {pkt : USBPacket}
    (h : OpenXbox.Usb.Requests.Settled pkt.status) :
    (answered stack behind p pkt).packet.status ≠ USB_RET_ASYNC := by
  obtain ⟨hlow, hhigh⟩ := h
  rw [OpenXbox.Usb.Control.USB_RET_ASYNC] at hlow
  rw [OpenXbox.Usb.Control.USB_RET_SUCCESS] at hhigh
  intro heq
  have hint := congrArg BitVec.toInt heq
  rw [answered, BitVec.toInt_ofInt] at hint
  have hasync : USB_RET_ASYNC.toInt = -6 := by decide
  rw [hasync, Int.bmod_eq_of_le (by omega) (by omega)] at hint
  omega

/-- A step of the controller that leaves it idle. -/
theorem controller_quiet {op : AsyncPacket.Op} {bus : Bus} (hb : bus.Legal)
    (h : ∃ hc, AsyncPacket.step s.ohci op = some hc ∧ Idle hc) :
    ∃ t, s.controller op bus = .ok t ∧ Quiet t := by
  obtain ⟨hc, hstep, hidle⟩ := h
  rw [System.controller, hstep]
  exact ⟨_, rfl, hidle, hb⟩

theorem resetBus_legal (hb : s.bus.Legal) : s.resetBus.Legal := by
  have hfold (ports : List (Fin 4)) (b : Bus) (hb : b.Legal) : (ports.foldl Bus.portReset b).Legal := by
    induction ports generalizing b with
    | nil => exact hb
    | cons port ports ih => exact ih _ (legal_portReset hb port)
  exact hfold _ _ hb

/-- A step that comes back is no failed assertion, and leaves the state that it comes back with. -/
theorem comes_back {x : Except Failure System} (h : ∃ t, x = .ok t ∧ Quiet t) :
    x ≠ .error .assertion ∧ ∀ t, x = .ok t → Quiet t := by
  obtain ⟨t, rfl, ht⟩ := h
  refine ⟨nofun, fun t' heq => ?_⟩
  cases heq
  exact ht

/-- A service fails an assertion exactly when its packet is not taken. -/
theorem service_fails_iff (h : Quiet s) (stack : Nat → Byte) (behind : Word)
    (ed : EndpointDescriptor) (completion : Bool) :
    s.service stack behind ed completion = .error .assertion ↔
      ¬ Fits s (.service stack behind ed completion) := by
  have hgoes {a : Answer} (ha : a.packet.status ≠ USB_RET_ASYNC) (dev : Option Nat) {bus : Bus}
      (hb : bus.Legal) : s.controller (.service a dev ed completion) bus ≠ .error .assertion :=
    have hstep : ∃ hc, AsyncPacket.step s.ohci (.service a dev ed completion) = some hc ∧ Idle hc :=
      service_idle h.idle ha dev ed completion
    (comes_back (controller_quiet hb hstep)).1
  rw [System.service, Fits]
  by_cases hsubmits : Submits s.ohci.toController stack ed completion
  · rw [if_pos hsubmits, forall_prop_of_true hsubmits]
    dsimp only
    by_cases hfetched : (submission s.ohci.toController stack ed).fetched > usbBufferSize
    · rw [if_pos hfetched]
      exact iff_of_false nofun (not_not.mpr fun hle => absurd hfetched (Nat.not_lt.mpr hle))
    · have hland : ¬ (s.ohci.asserts ∧ s.ohci.inflight) := fun hp =>
        h.idle.landed (of_decide_eq_true hp.2)
      obtain ⟨dir, hpid⟩ := submission_pid s.ohci.toController stack ed
      rw [if_neg hfetched, if_neg hland, forall_prop_of_true (Nat.not_lt.mp hfetched),
        ← handle_fails_iff h.legal (hpid ▸ pidOf_cases dir) (endpointNumber_le ed)]
      cases hhandle : s.bus.handle (functionAddress ed) (submission s.ohci.toController stack ed).pid
          (endpointNumber ed) (submission s.ohci.toController stack ed).ioVec with
      | error e => exact ⟨fun heq => congrArg _ (Except.error.inj heq),
          fun heq => congrArg _ (Except.error.inj heq)⟩
      | ok r =>
        obtain ⟨hb, hstatus⟩ := handle_kept h.legal hhandle
        exact iff_of_false (hgoes (answered_ne_async hstatus) _ hb) nofun
  · rw [if_neg hsubmits]
    exact iff_of_false (hgoes (unanswered_ne_async stack behind) _ h.legal) (not_not.mpr fun hyes => absurd hyes hsubmits)

theorem service_quiet (h : Quiet s) {stack : Nat → Byte} {behind : Word} {ed : EndpointDescriptor}
    {completion : Bool} {t : System} (hstep : s.service stack behind ed completion = .ok t) :
    Quiet t := by
  have hgoes {a : Answer} (ha : a.packet.status ≠ USB_RET_ASYNC) (dev : Option Nat) {bus : Bus}
      (hb : bus.Legal) (hok : s.controller (.service a dev ed completion) bus = .ok t) : Quiet t :=
    have hstep : ∃ hc, AsyncPacket.step s.ohci (.service a dev ed completion) = some hc ∧ Idle hc :=
      service_idle h.idle ha dev ed completion
    (comes_back (controller_quiet hb hstep)).2 t hok
  rw [System.service] at hstep
  split at hstep
  · dsimp only at hstep
    split at hstep
    · cases hstep
    split at hstep
    · cases hstep
    split at hstep
    · cases hstep
    · next hhandle =>
      obtain ⟨hb, hstatus⟩ := handle_kept h.legal hhandle
      exact hgoes (answered_ne_async hstatus) _ hb hstep
  · exact hgoes (unanswered_ne_async stack behind) _ h.legal hstep

end Packets

/-! ## Runs -/

section Runs

variable {s : System}

/-- Every other step comes back. -/
theorem other_comes_back (h : Quiet s) {op : Op}
    (hop : ∀ stack behind ed completion, op ≠ .service stack behind ed completion) :
    s.outcome op ≠ .error .assertion ∧ ∀ t, s.outcome op = .ok t → Quiet t := by
  have hfree : ¬ s.ohci.asyncTD ≠ 0 := not_not.mpr h.idle.free
  apply comes_back
  cases op with
  | service stack behind ed completion => exact absurd rfl (hop stack behind ed completion)
  | skip ed => exact controller_quiet h.legal ⟨_, if_neg fun hp => hfree hp.1, h.idle⟩
  | disable => exact controller_quiet h.legal ⟨_, if_neg hfree, h.idle⟩
  | stateReset => exact controller_quiet (resetBus_legal h.legal) (stateReset_idle h.idle _)
  | elsewhere hc enabled =>
    rw [System.outcome]
    have hstep : ∃ hc', AsyncPacket.step s.ohci (.elsewhere hc) = some hc' ∧ Idle hc' :=
      ⟨_, rfl, h.idle.free, h.idle.incomplete, h.idle.landed⟩
    exact controller_quiet (fun p d hp => h.legal p d hp) hstep
  | resetPort port => exact ⟨_, rfl, h.idle, fun p d hp => legal_deviceReset h.legal p d hp⟩
  | attachHub port strings => exact ⟨_, rfl, h.idle, legal_attachHub h.legal port strings⟩
  | attachGamepad place strings => exact ⟨_, rfl, h.idle, legal_attachGamepad h.legal strings⟩
  | detach place =>
    rw [System.outcome]
    split
    · exact controller_quiet (legal_detach h.legal) ⟨_, asyncCancelDevice_idle h.idle _, h.idle⟩
    · exact ⟨_, rfl, h.idle, legal_detach h.legal⟩

theorem stepOk_iff (h : Quiet s) (op : Op) : StepOk s op ↔ Fits s op := by
  cases op with
  | service stack behind ed completion =>
    exact not_iff_comm.mp (service_fails_iff h stack behind ed completion).symm
  | _ => exact iff_of_true (other_comes_back h fun _ _ _ _ heq => by cases heq).1 trivial

theorem step_quiet (h : Quiet s) {op : Op} {t : System} (hstep : step s op = some t) : Quiet t := by
  have hok : s.outcome op = .ok t := by
    rw [step] at hstep
    split at hstep
    · cases hstep
    · next heq =>
      rw [heq]
      exact congrArg _ (Option.some.inj hstep)
  cases op with
  | service stack behind ed completion => exact service_quiet h hok
  | _ => exact (other_comes_back h fun _ _ _ _ heq => by cases heq).2 t hok

theorem quiet_construct (hc : Controller) : Quiet (System.construct hc) := by
  refine ⟨⟨rfl, rfl, fun h => by cases h⟩, fun place d h => ?_⟩
  cases h

/-- Along a run no assertion fails, exactly when every packet that is submitted on the way is taken by
the device that it reaches. -/
theorem no_assertion_iff_fits (hc : Controller) (ops : List Op) :
    Guarded step StepOk (System.construct hc) ops ↔ Guarded step Fits (System.construct hc) ops := by
  apply guarded_congr (I := Quiet)
  · exact fun s op h => stepOk_iff h op
  · exact fun s op t h _ hstep => step_quiet h hstep
  · exact quiet_construct hc

end Runs

/-- An endpoint descriptor with endpoint number 1 at function address 0, whose queue has a descriptor
with the SETUP token at 0x100. -/
def setupToEndpoint1 : EndpointDescriptor := ⟨0x00400080, 0, 0x100, 0⟩

/-- A hub is attached, its port is reset, and the descriptor is serviced. -/
def hubRun : List Op :=
  [.attachHub ⟨0, by decide⟩ [], .resetPort ⟨0, by decide⟩, .service (fun _ => 0) 0 setupToEndpoint1 false]

theorem setup_to_endpoint1_fails :
    ¬ Guarded step StepOk (System.construct (controllerOver [0, 0, 0, 0])) hubRun := by
  intro h
  have hattached := h.2 _ rfl
  have hreset := hattached.2 _ rfl
  have hservice := hreset.1
  exact hservice rfl

end OpenXbox.Ohci.Assertions
