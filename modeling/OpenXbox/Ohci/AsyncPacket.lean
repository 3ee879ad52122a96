import OpenXbox.Lib.Run
import OpenXbox.Ohci.Retirements

/-!
# The packet of the controller

A controller has one packet. A device may put the packet of a general descriptor off and complete it
later; the descriptor waits in `m_AsyncTD` until it is serviced again. A run is followed with the
packet's `Id`, which is the descriptor it was set up for, and with the descriptors that the status
and the length in the packet have been used for.
-/

namespace OpenXbox.Ohci.AsyncPacket

open OpenXbox.Lib.Run OpenXbox.Lib.Loop OpenXbox.Lib.Bits OpenXbox.Ohci.Memory OpenXbox.Ohci.Service
open OpenXbox.Ohci.DoneQueue (headTD)
open OpenXbox.Ohci.Retirements (Aside copied_aside fetchTD_aside fetchIsoTD_aside)

/-! ## What a service does with the packet -/

inductive Course where
  /-- Neither submits the packet nor looks at it. -/
  | idle
  /-- Retires the descriptor after its last frame. -/
  | expires
  /-- Submits the packet, which the device puts off. -/
  | waits
  /-- Submits the packet and uses what the device has answered. -/
  | answers
  /-- Uses the packet as it finds it. -/
  | completes
  deriving DecidableEq

/-- The packet has been submitted. -/
def submitted (a : Answer) : Course := if a.packet.status = USB_RET_ASYNC then .waits else .answers

def courseTD (a : Answer) (hc : Controller) (ed : EndpointDescriptor) : Course :=
  let addr := headTD ed
  if addr = hc.asyncTD ∧ !hc.asyncComplete then .idle
  else if addr = 0 then .idle
  else if direction ed (readTD hc.mem addr a.stack) = OHCI_TD_DIR_RESERVED then .idle
  else if addr = hc.asyncTD then .completes
  else if hc.asyncTD ≠ 0 then .idle
  else submitted a

def courseIsoTD (a : Answer) (hc : Controller) (ed : EndpointDescriptor) (completion : Bool) : Course :=
  let td := readIsoTD hc.mem (headTD ed) a.stack
  let r := (relativeFrame hc td).toNat
  let dir := bm ed.flags OHCI_ED_D_MASK 11
  if headTD ed = 0 then .idle
  else if relativeFrame hc td < 0 then .idle
  else if relativeFrame hc td > frameCount td then .expires
  else if dir = OHCI_TD_DIR_RESERVED then .idle
  else if td.bufferPage0 = 0 ∨ td.bufferEnd = 0 then .idle
  else if offsetsRejected td r then .idle
  else if (fetchIsoTD hc td dir r (isoLength (isoStart td r) (isoEnd td r))).2 then .idle
  else if completion then .completes
  else submitted a

def IsGeneral (ed : EndpointDescriptor) : Prop := ed.flags &&& OHCI_ED_F = 0

instance (ed : EndpointDescriptor) : Decidable (IsGeneral ed) := inferInstanceAs (Decidable (_ = _))

def course (a : Answer) (hc : Controller) (ed : EndpointDescriptor) (completion : Bool) : Course :=
  if IsGeneral ed then courseTD a hc ed else courseIsoTD a hc ed completion

/-- The descriptor at the head of the queue of `ed` is serviced. -/
def serviced (a : Answer) (hc : Controller) (ed : EndpointDescriptor) (completion : Bool) : Serviced :=
  if IsGeneral ed then serviceTD (fun _ => a) hc ed else serviceIsoTD (fun _ => a) hc ed completion

/-! ## The controller with its packet -/

/-- `USBPacketState`. -/
inductive PacketState where
  | undefined
  | setup
  /-- Queued or put off. -/
  | async
  | complete
  | canceled
  deriving DecidableEq

/-- A descriptor for which the status and the length in a packet have been used. -/
structure Settled where
  td : Word
  /-- `Id` of the packet. -/
  packet : Word

structure OHCI extends Controller where
  /-- Assertions are compiled in. -/
  asserts : Bool
  /-- `Id`, `State` and the device of `m_UsbPacket`. -/
  id : Word
  state : PacketState
  dev : Option Nat
  settled : List Settled

/-- `USB_IsPacketInflight`. -/
def OHCI.inflight (hc : OHCI) : Bool := hc.state = .async

/-- The state of a packet that has been handled; without a device it is left as it was set up. -/
def stateAfter (status : Word) : PacketState :=
  if status = USB_RET_ASYNC then .async
  else if status = USB_RET_NAK ∨ status = USB_RET_NODEV then .setup
  else .complete

/-- `USB_PacketSetup` and `USB_HandlePacket`; a packet in flight is not to be set up. -/
def OHCI.submit (hc : OHCI) (a : Answer) (dev : Option Nat) (addr : Word) : Option OHCI :=
  if hc.asserts ∧ hc.inflight then none
  else some { hc with id := addr, state := stateAfter a.packet.status, dev := dev }

def OHCI.settle (hc : OHCI) (addr : Word) : OHCI :=
  { hc with settled := hc.settled ++ [⟨addr, hc.id⟩] }

/-- The service of the descriptor at the head of the queue of `ed`. -/
def OHCI.service (hc : OHCI) (a : Answer) (dev : Option Nat) (ed : EndpointDescriptor)
    (completion : Bool) : Option OHCI :=
  let after := { hc with toController := (serviced a hc.toController ed completion).hc }
  match course a hc.toController ed completion with
  | .idle | .expires => some after
  | .waits => after.submit a dev (headTD ed)
  | .answers => (after.submit a dev (headTD ed)).map fun hc => hc.settle (headTD ed)
  | .completes => some (after.settle (headTD ed))

/-- `USB_CancelPacket`, and `m_AsyncTD` cleared; a packet that is not in flight is not to be
cancelled. -/
def OHCI.cancel (hc : OHCI) : Option OHCI :=
  if hc.asserts ∧ ¬ hc.inflight then none
  else some { hc with state := .canceled, asyncTD := 0 }

/-- A halted or skipped endpoint in the list. -/
def OHCI.skip (hc : OHCI) (ed : EndpointDescriptor) : Option OHCI :=
  if hc.asyncTD ≠ 0 ∧ headTD ed = hc.asyncTD then hc.cancel else some hc

/-- A frame boundary after a list has been disabled. -/
def OHCI.disable (hc : OHCI) : Option OHCI := if hc.asyncTD ≠ 0 then hc.cancel else some hc

/-- `OHCI_AsyncCancelDevice`. -/
def OHCI.asyncCancelDevice (hc : OHCI) (dev : Nat) : Option OHCI :=
  if hc.asyncTD ≠ 0 ∧ hc.inflight ∧ hc.dev = some dev then hc.cancel else some hc

/-- `OHCI_StateReset`, with the devices whose ports are reset. -/
def OHCI.stateReset (hc : OHCI) (devs : List Nat) : Option OHCI :=
  (devs.foldlM OHCI.asyncCancelDevice { hc with hcDoneHead := 0, hcFmNumber := 0, doneCount := 7 }).bind
    OHCI.disable

/-- A device completes the packet that it has put off, and `OHCI_AsyncCompletePacket` is called; the
lists are processed by the services that follow. -/
def OHCI.asyncCompletePacket (hc : OHCI) (packet : UsbPacket) (data : Nat → Byte) : Option OHCI :=
  if hc.inflight then
    some { hc with packet := packet, usbBuffer := data, state := .complete, asyncComplete := true }
  else none

/-- What else changes: guest memory, the write-back of endpoints, frames, other registers. -/
def OHCI.elsewhere (hc : OHCI) (hc' : Controller) : OHCI :=
  { hc with
    toController := { hc' with
      asyncTD := hc.asyncTD, asyncComplete := hc.asyncComplete, packet := hc.packet } }

/-! ## Runs -/

inductive Op where
  | service (a : Answer) (dev : Option Nat) (ed : EndpointDescriptor) (completion : Bool)
  | skip (ed : EndpointDescriptor)
  | disable
  | detach (dev : Nat)
  | reset (devs : List Nat)
  | complete (packet : UsbPacket) (data : Nat → Byte)
  | elsewhere (hc : Controller)

/-- `none` when an assertion fails, or when there is no packet to complete. -/
def step (hc : OHCI) : Op → Option OHCI
  | .service a dev ed completion => hc.service a dev ed completion
  | .skip ed => hc.skip ed
  | .disable => hc.disable
  | .detach dev => hc.asyncCancelDevice dev
  | .reset devs => hc.stateReset devs
  | .complete packet data => hc.asyncCompletePacket packet data
  | .elsewhere hc' => some (hc.elsewhere hc')

/-- As constructed; the other registers are as in `hc`. -/
def OHCI.construct (asserts : Bool) (hc : Controller) : OHCI :=
  { hc with
    asyncTD := 0, asyncComplete := false, packet := ⟨0, 0⟩, asserts := asserts, id := 0
    state := .undefined, dev := none, settled := [] }

/-! ## What is to hold after every step -/

/-- `m_AsyncComplete` tells that the packet of the descriptor in `m_AsyncTD` is complete, and each
descriptor has been settled with its own packet. -/
structure Sound (hc : OHCI) : Prop where
  complete : hc.asyncComplete → hc.asyncTD ≠ 0 ∧ hc.id = hc.asyncTD ∧ hc.state = .complete
  own : ∀ s ∈ hc.settled, s.packet = s.td

/-- An isochronous descriptor is submitted while no general one waits, and settled with the packet it
finds only if it is its own. -/
def CourseFits (hc : OHCI) (ed : EndpointDescriptor) : Course → Prop
  | .idle | .expires => True
  | .waits | .answers => hc.asyncTD = 0
  | .completes => hc.id = headTD ed

/-- Nothing is cancelled while a complete packet waits for its descriptor to be serviced, and a device
completes only the packet of a general descriptor. -/
def Fits (hc : OHCI) : Op → Prop
  | .service a _ ed completion =>
    ¬ IsGeneral ed → CourseFits hc ed (course a hc.toController ed completion)
  | .skip ed => headTD ed = hc.asyncTD → hc.asyncComplete = false
  | .disable | .reset _ => hc.asyncComplete = false
  | .complete _ _ => hc.asyncTD ≠ 0
  | .detach _ | .elsewhere _ => True

section Decidable

variable (hc : OHCI)

instance : Decidable (Sound hc) :=
  decidable_of_iff
    ((hc.asyncComplete → hc.asyncTD ≠ 0 ∧ hc.id = hc.asyncTD ∧ hc.state = .complete) ∧
      ∀ s ∈ hc.settled, s.packet = s.td)
    ⟨fun h => ⟨h.1, h.2⟩, fun h => ⟨h.complete, h.own⟩⟩

instance (ed : EndpointDescriptor) (c : Course) : Decidable (CourseFits hc ed c) :=
  match c with
  | .idle => isTrue trivial
  | .expires => isTrue trivial
  | .waits => inferInstanceAs (Decidable (_ = _))
  | .answers => inferInstanceAs (Decidable (_ = _))
  | .completes => inferInstanceAs (Decidable (_ = _))

instance (op : Op) : Decidable (Fits hc op) :=
  match op with
  | .service _ _ ed _ => inferInstanceAs (Decidable (¬ IsGeneral ed → CourseFits hc ed _))
  | .skip _ => inferInstanceAs (Decidable (_ = _ → _ = _))
  | .disable => inferInstanceAs (Decidable (_ = _))
  | .detach _ => isTrue trivial
  | .reset _ => inferInstanceAs (Decidable (_ = _))
  | .complete _ _ => inferInstanceAs (Decidable (_ ≠ _))
  | .elsewhere _ => isTrue trivial

end Decidable

/-- The test that `OHCI_ServiceTD` makes of the descriptor would do for an isochronous one. -/
theorem courseFits_of_waiting {hc : OHCI} {ed : EndpointDescriptor} (h : Sound hc)
    (hdone : hc.asyncComplete = true) (hown : headTD ed = hc.asyncTD) : CourseFits hc ed .completes :=
  (h.complete hdone).2.1.trans hown.symm

/-! ## The courses of a service -/

/-- The packet and what waits for it are as they were. -/
structure SamePacket (hc hc' : Controller) : Prop where
  packet : hc'.packet = hc.packet
  asyncTD : hc'.asyncTD = hc.asyncTD
  asyncComplete : hc'.asyncComplete = hc.asyncComplete

theorem SamePacket.refl (hc : Controller) : SamePacket hc hc := ⟨rfl, rfl, rfl⟩

theorem SamePacket.trans {hc hc' hc'' : Controller} (h : SamePacket hc hc') (h' : SamePacket hc' hc'') :
    SamePacket hc hc'' :=
  ⟨h'.packet.trans h.packet, h'.asyncTD.trans h.asyncTD, h'.asyncComplete.trans h.asyncComplete⟩

theorem copied_samePacket {es : List Event} {hc hc' : Controller} (h : Copied es hc hc') :
    SamePacket hc hc' := by
  obtain ⟨host, usbBuffer, unrecoverable, rfl⟩ := h
  exact ⟨rfl, rfl, rfl⟩

section Finish

variable (hc : Controller) (ed : EndpointDescriptor) (addr dir : Word)

theorem settleTD_samePacket (td : TransferDescriptor) (ret : Word) :
    SamePacket hc (settleTD hc ed td addr dir ret).hc := by
  have hretire (ed : EndpointDescriptor) (td : TransferDescriptor) :
      SamePacket hc (retireTD hc ed td addr).hc := by
    unfold retireTD
    dsimp only
    split <;> exact ⟨rfl, rfl, rfl⟩
  unfold settleTD
  split
  · dsimp only
    split
    · exact ⟨rfl, rfl, rfl⟩
    · exact hretire _ _
  split
  · exact .refl hc
  · exact hretire _ _

theorem finishTD_samePacket (td : TransferDescriptor) :
    SamePacket hc (finishTD hc ed td addr dir).hc := by
  have hreturn : SamePacket hc (returnData hc td dir) := by
    unfold returnData
    split
    · exact copied_samePacket (copyTD_copied hc td hc.packet.ret.toNat true)
    · exact .refl hc
  exact hreturn.trans (settleTD_samePacket _ ed addr dir td _)

theorem retireIfLast_samePacket (td : IsoDescriptor) (r : Nat) :
    SamePacket hc (retireIfLast hc ed td addr r).hc := by
  unfold retireIfLast
  split <;> exact ⟨rfl, rfl, rfl⟩

theorem finishIsoTD_samePacket (td : IsoDescriptor) (r len : Nat) :
    SamePacket hc (finishIsoTD hc ed td addr dir r len).hc := by
  have hcopied := copied_samePacket
    (copyIsoTD_copied hc (isoStart td r) (isoEnd td r) hc.packet.ret.toNat true)
  unfold finishIsoTD
  dsimp only
  split
  · split
    · next h =>
      rw [h] at hcopied
      exact hcopied.trans ⟨rfl, rfl, rfl⟩
    · next h =>
      rw [h] at hcopied
      exact hcopied.trans (retireIfLast_samePacket _ ed addr _ r)
  split
  · exact retireIfLast_samePacket hc ed addr _ r
  · exact retireIfLast_samePacket hc ed addr _ r

end Finish

/-- The descriptor is settled with the status and the length in the packet of `sent`. -/
def Uses (ed : EndpointDescriptor) (sent : Controller) (s : Serviced) : Prop :=
  (∃ td dir, s = finishTD sent ed td (headTD ed) dir) ∨
    ∃ td dir r len, s = finishIsoTD sent ed td (headTD ed) dir r len

theorem Uses.samePacket {ed : EndpointDescriptor} {sent : Controller} {s : Serviced}
    (h : Uses ed sent s) : SamePacket sent s.hc := by
  obtain ⟨td, dir, rfl⟩ | ⟨td, dir, r, len, rfl⟩ := h
  · exact finishTD_samePacket sent ed (headTD ed) dir td
  · exact finishIsoTD_samePacket sent ed (headTD ed) dir td r len

/-- What each course means for the done queue, for the packet and for what waits for it. -/
inductive Took (a : Answer) (hc : Controller) (ed : EndpointDescriptor) (s : Serviced) : Course → Prop where
  | idle (haside : Aside hc s.hc) (hsame : SamePacket hc s.hc) : Took a hc ed s .idle
  | expires (hsame : SamePacket hc s.hc) : Took a hc ed s .expires
  | waitsTD (hg : IsGeneral ed) (hfree : hc.asyncTD = 0) (h0 : headTD ed ≠ 0) (haside : Aside hc s.hc)
      (hpacket : s.hc.packet = a.packet) (htd : s.hc.asyncTD = headTD ed)
      (hdone : s.hc.asyncComplete = hc.asyncComplete) : Took a hc ed s .waits
  | waitsIso (hi : ¬ IsGeneral ed) (haside : Aside hc s.hc) (hpacket : s.hc.packet = a.packet)
      (htd : s.hc.asyncTD = hc.asyncTD) (hdone : s.hc.asyncComplete = hc.asyncComplete) :
      Took a hc ed s .waits
  | answers (sent : Controller) (hfree : IsGeneral ed → hc.asyncTD = 0)
      (hpacket : sent.packet = a.packet) (htd : sent.asyncTD = hc.asyncTD)
      (hdone : sent.asyncComplete = hc.asyncComplete) (huses : Uses ed sent s) : Took a hc ed s .answers
  | completesTD (sent : Controller) (hg : IsGeneral ed) (h0 : headTD ed ≠ 0)
      (hown : headTD ed = hc.asyncTD) (hpacket : sent.packet = hc.packet) (htd : sent.asyncTD = 0)
      (hdone : sent.asyncComplete = false) (huses : Uses ed sent s) : Took a hc ed s .completes
  | completesIso (sent : Controller) (hi : ¬ IsGeneral ed) (hpacket : SamePacket hc sent)
      (huses : Uses ed sent s) : Took a hc ed s .completes

section Courses

variable {a : Answer} {hc : Controller} {ed : EndpointDescriptor}

theorem fetchTD_samePacket (td : TransferDescriptor) (dir : Word) (completion : Bool) :
    SamePacket hc (fetchTD hc ed td dir completion) := by
  unfold fetchTD
  split
  · exact copied_samePacket (copyTD_copied hc td (packetLength ed td dir) false)
  · exact .refl hc

theorem serviceTD_took (hg : IsGeneral ed) :
    Took a hc ed (serviceTD (fun _ => a) hc ed) (courseTD a hc ed) := by
  have hcalled : Aside hc hc.called := ⟨rfl, rfl, rfl⟩
  have hsame : SamePacket hc hc.called := ⟨rfl, rfl, rfl⟩
  have hhead : ed.headP &&& OHCI_DPTR_MASK = headTD ed := rfl
  unfold serviceTD courseTD transferTD
  dsimp only [Controller.answer]
  rw [hhead]
  by_cases hskip : headTD ed = hc.asyncTD ∧ (!hc.asyncComplete) = true
  · rw [if_pos hskip, if_pos (by simpa using hskip)]
    exact .idle hcalled hsame
  rw [if_neg hskip, if_neg (by simpa using hskip)]
  by_cases h0 : headTD ed = 0
  · rw [if_pos h0, if_pos h0]
    exact .idle ⟨rfl, rfl, rfl⟩ ⟨rfl, rfl, rfl⟩
  rw [if_neg h0, if_neg h0]
  generalize readTD hc.mem (headTD ed) a.stack = td
  by_cases hdir : direction ed td = OHCI_TD_DIR_RESERVED
  · rw [if_pos hdir, if_pos hdir]
    exact .idle hcalled hsame
  rw [if_neg hdir, if_neg hdir]
  have hfetch := hcalled.trans
    (fetchTD_aside hc.called ed td (direction ed td) (decide (headTD ed = hc.asyncTD)))
  have hpacket : SamePacket hc.called (fetchTD hc.called ed td (direction ed td)
      (decide (headTD ed = hc.asyncTD))) := fetchTD_samePacket td _ _
  have hfetch' := hsame.trans hpacket
  generalize fetchTD hc.called ed td (direction ed td) (decide (headTD ed = hc.asyncTD)) = fetched
    at hfetch hfetch' ⊢
  by_cases hown : headTD ed = hc.asyncTD
  · rw [if_pos (by simpa using hown), if_pos hown]
    exact .completesTD { fetched with asyncTD := 0, asyncComplete := false } hg h0 hown hfetch'.packet
      rfl rfl (.inl ⟨td, direction ed td, rfl⟩)
  rw [if_neg (by simpa using hown), if_neg hown, hfetch'.asyncTD]
  by_cases hfree : hc.asyncTD ≠ 0
  · rw [if_pos hfree, if_pos hfree]
    exact .idle hfetch hfetch'
  rw [if_neg hfree, if_neg hfree, submitted]
  have hpacket : (submit fetched a (packetLength ed td (direction ed td))).packet = a.packet := rfl
  rw [hpacket]
  split
  · exact .waitsTD hg (not_not.mp hfree) h0 ⟨hfetch.mem, hfetch.head, hfetch.count⟩ rfl rfl
      hfetch'.asyncComplete
  · exact .answers (submit fetched a (packetLength ed td (direction ed td)))
      (fun _ => not_not.mp hfree) rfl hfetch'.asyncTD hfetch'.asyncComplete
      (.inl ⟨td, direction ed td, rfl⟩)

theorem fetchIsoTD_samePacket (td : IsoDescriptor) (dir : Word) (r len : Nat) :
    SamePacket hc (fetchIsoTD hc td dir r len).1 := by
  unfold fetchIsoTD
  split
  · exact copied_samePacket (copyIsoTD_copied hc (isoStart td r) (isoEnd td r) len false)
  · exact .refl hc

/-- Whether the data can be fetched does not depend on what else the controller holds. -/
theorem fetchIsoTD_error (hc hc' : Controller) (td : IsoDescriptor) (dir : Word) (r len : Nat) :
    (fetchIsoTD hc td dir r len).2 = (fetchIsoTD hc' td dir r len).2 := by
  unfold fetchIsoTD
  split
  · exact copyPages_error _ _ _ _ _ _
  · rfl

theorem serviceIsoTD_took (hi : ¬ IsGeneral ed) (completion : Bool) :
    Took a hc ed (serviceIsoTD (fun _ => a) hc ed completion) (courseIsoTD a hc ed completion) := by
  have hcalled : Aside hc hc.called := ⟨rfl, rfl, rfl⟩
  have hsame : SamePacket hc hc.called := ⟨rfl, rfl, rfl⟩
  have hhead : ed.headP &&& OHCI_DPTR_MASK = headTD ed := rfl
  unfold serviceIsoTD courseIsoTD
  dsimp only [Controller.answer]
  rw [hhead]
  by_cases h0 : headTD ed = 0
  · rw [if_pos h0, if_pos h0]
    exact .idle ⟨rfl, rfl, rfl⟩ ⟨rfl, rfl, rfl⟩
  rw [if_neg h0, if_neg h0]
  generalize readIsoTD hc.mem (headTD ed) a.stack = td
  by_cases hearly : relativeFrame hc td < 0
  · rw [if_pos hearly, if_pos hearly]
    exact .idle hcalled hsame
  rw [if_neg hearly, if_neg hearly]
  by_cases hlate : relativeFrame hc td > frameCount td
  · rw [if_pos hlate, if_pos hlate]
    exact .expires ⟨rfl, rfl, rfl⟩
  rw [if_neg hlate, if_neg hlate]
  unfold frameIsoTD transferIsoTD
  dsimp only
  generalize (relativeFrame hc td).toNat = r
  by_cases hdir : bm ed.flags OHCI_ED_D_MASK 11 = OHCI_TD_DIR_RESERVED
  · rw [if_pos hdir, if_pos hdir]
    exact .idle hcalled hsame
  rw [if_neg hdir, if_neg hdir]
  by_cases hpages : td.bufferPage0 = 0 ∨ td.bufferEnd = 0
  · rw [if_pos hpages, if_pos hpages]
    exact .idle hcalled hsame
  rw [if_neg hpages, if_neg hpages]
  generalize hlog : (hc.called.log (.readOffset r)).log (.readOffset (r + 1)) = logged
  have haside : Aside hc logged := by rw [← hlog]; exact ⟨rfl, rfl, rfl⟩
  have hpacket : SamePacket hc logged := by rw [← hlog]; exact ⟨rfl, rfl, rfl⟩
  by_cases hoffsets : offsetsRejected td r
  · rw [if_pos hoffsets, if_pos hoffsets]
    exact .idle haside hpacket
  rw [if_neg hoffsets, if_neg hoffsets]
  generalize isoLength (isoStart td r) (isoEnd td r) = len
  rw [fetchIsoTD_error hc logged]
  have hfetch := haside.trans (fetchIsoTD_aside logged td (bm ed.flags OHCI_ED_D_MASK 11) r len)
  have hread : SamePacket logged (fetchIsoTD logged td (bm ed.flags OHCI_ED_D_MASK 11) r len).1 :=
    fetchIsoTD_samePacket td _ r len
  have hfetch' := hpacket.trans hread
  generalize fetchIsoTD logged td (bm ed.flags OHCI_ED_D_MASK 11) r len = fetched at hfetch hfetch' ⊢
  by_cases herror : fetched.2 = true
  · rw [if_pos herror, if_pos herror]
    exact .idle ⟨hfetch.mem, hfetch.head, hfetch.count⟩
      ⟨hfetch'.packet, hfetch'.asyncTD, hfetch'.asyncComplete⟩
  rw [if_neg herror, if_neg herror]
  cases completion with
  | true => exact .completesIso fetched.1 hi hfetch' (.inr ⟨td, _, r, len, rfl⟩)
  | false =>
    rw [if_neg Bool.false_ne_true, if_neg Bool.false_ne_true, submitted]
    have hanswer : (submit fetched.1 a len).packet = a.packet := rfl
    rw [hanswer]
    split
    · exact .waitsIso hi ⟨hfetch.mem, hfetch.head, hfetch.count⟩ rfl hfetch'.asyncTD
        hfetch'.asyncComplete
    · exact .answers (submit fetched.1 a len) (fun hg => absurd hg hi) rfl hfetch'.asyncTD
        hfetch'.asyncComplete (.inr ⟨td, _, r, len, rfl⟩)

theorem serviced_took (a : Answer) (hc : Controller) (ed : EndpointDescriptor) (completion : Bool) :
    Took a hc ed (serviced a hc ed completion) (course a hc ed completion) := by
  by_cases hg : IsGeneral ed
  · rw [serviced, course, if_pos hg, if_pos hg]
    exact serviceTD_took hg
  · rw [serviced, course, if_neg hg, if_neg hg]
    exact serviceIsoTD_took hg completion

end Courses

/-! ## The invariant -/

/-- Besides, a descriptor that waits does so for its own packet. -/
structure Invariant (hc : OHCI) : Prop where
  sound : Sound hc
  waiting : hc.asyncTD ≠ 0 → hc.id = hc.asyncTD

section Invariant

variable {hc hc' : OHCI}

/-- Without a descriptor that waits no packet is complete. -/
theorem Invariant.not_complete (h : Invariant hc) (hfree : hc.asyncTD = 0) : hc.asyncComplete = false :=
  Bool.eq_false_iff.mpr fun hdone => (h.sound.complete hdone).1 hfree

/-- No descriptor waits any more. -/
theorem Invariant.of_free (h : ∀ s ∈ hc.settled, s.packet = s.td) (hfree : hc.asyncTD = 0)
    (hdone : hc.asyncComplete = false) : Invariant hc :=
  ⟨⟨fun hyes => absurd (hdone.symm.trans hyes) Bool.false_ne_true, h⟩, fun hne => absurd hfree hne⟩

/-- The settlement of a descriptor with the packet that was set up for it. -/
theorem own_settle {addr : Word} (h : ∀ s ∈ hc.settled, s.packet = s.td) (hid : hc.id = addr) :
    ∀ s ∈ (hc.settle addr).settled, s.packet = s.td := by
  intro s hs
  obtain hold | hnew := List.mem_append.mp hs
  · exact h s hold
  · obtain rfl := List.mem_singleton.mp hnew
    exact hid

theorem submit_eq {a : Answer} {dev : Option Nat} {addr : Word} (h : hc.submit a dev addr = some hc') :
    hc' = { hc with id := addr, state := stateAfter a.packet.status, dev := dev } := by
  unfold OHCI.submit at h
  split at h
  · cases h
  · exact (Option.some.inj h).symm

theorem cancel_eq (h : hc.cancel = some hc') : hc' = { hc with state := .canceled, asyncTD := 0 } := by
  unfold OHCI.cancel at h
  split at h
  · cases h
  · exact (Option.some.inj h).symm

theorem cancel_invariant (h : Invariant hc) (hdone : hc.asyncComplete = false)
    (hc'_eq : hc.cancel = some hc') : Invariant hc' := by
  rw [cancel_eq hc'_eq]
  exact .of_free h.sound.own rfl hdone

/-- A cancellation is harmless while no packet is complete. -/
theorem cancel_if_invariant (h : Invariant hc) {p : Prop} [Decidable p]
    (hdone : p → hc.asyncComplete = false)
    (hstep : (if p then hc.cancel else some hc) = some hc') : Invariant hc' := by
  split at hstep
  · next hp => exact cancel_invariant h (hdone hp) hstep
  · obtain rfl := Option.some.inj hstep
    exact h

/-- A packet in flight is not complete. -/
theorem asyncCancelDevice_invariant (h : Invariant hc) {dev : Nat}
    (hstep : hc.asyncCancelDevice dev = some hc') : Invariant hc' := by
  refine cancel_if_invariant h (fun hp => Bool.eq_false_iff.mpr fun hdone => ?_) hstep
  have hflight : hc.state = .async := of_decide_eq_true hp.2.1
  rw [(h.sound.complete hdone).2.2] at hflight
  cases hflight

theorem asyncCancelDevice_complete {dev : Nat} (hdone : hc.asyncComplete = false)
    (hstep : hc.asyncCancelDevice dev = some hc') : hc'.asyncComplete = false := by
  unfold OHCI.asyncCancelDevice at hstep
  split at hstep
  · rw [cancel_eq hstep]
    exact hdone
  · obtain rfl := Option.some.inj hstep
    exact hdone

theorem cancelDevices_invariant (devs : List Nat) (h : Invariant hc) (hdone : hc.asyncComplete = false)
    (hstep : devs.foldlM OHCI.asyncCancelDevice hc = some hc') :
    Invariant hc' ∧ hc'.asyncComplete = false := by
  induction devs generalizing hc with
  | nil =>
    obtain rfl := Option.some.inj hstep
    exact ⟨h, hdone⟩
  | cons dev devs ih =>
    rw [List.foldlM_cons] at hstep
    obtain ⟨hc₁, hone, hrest⟩ := Option.bind_eq_some_iff.mp hstep
    exact ih (asyncCancelDevice_invariant h hone) (asyncCancelDevice_complete hdone hone) hrest

theorem stateReset_invariant (h : Invariant hc) {devs : List Nat} (hdone : hc.asyncComplete = false)
    (hstep : hc.stateReset devs = some hc') : Invariant hc' := by
  obtain ⟨hc₁, hcancel, hdisable⟩ := Option.bind_eq_some_iff.mp hstep
  have hstart : Invariant { hc with hcDoneHead := 0, hcFmNumber := 0, doneCount := 7 } :=
    ⟨⟨h.sound.complete, h.sound.own⟩, h.waiting⟩
  obtain ⟨h₁, hdone₁⟩ := cancelDevices_invariant devs hstart hdone hcancel
  exact cancel_if_invariant h₁ (fun _ => hdone₁) hdisable

theorem complete_invariant (h : Invariant hc) {packet : UsbPacket} {data : Nat → Byte}
    (hwaits : hc.asyncTD ≠ 0) (hstep : hc.asyncCompletePacket packet data = some hc') :
    Invariant hc' := by
  unfold OHCI.asyncCompletePacket at hstep
  split at hstep
  · obtain rfl := Option.some.inj hstep
    exact ⟨⟨fun _ => ⟨hwaits, h.waiting hwaits, rfl⟩, h.sound.own⟩, h.waiting⟩
  · cases hstep

/-- A service that leaves the packet alone. -/
theorem samePacket_invariant (h : Invariant hc) {hc₁ : Controller}
    (hsame : SamePacket hc.toController hc₁) : Invariant { hc with toController := hc₁ } := by
  refine ⟨⟨fun hdone => ?_, h.sound.own⟩, fun hne => ?_⟩
  · have hold := h.sound.complete (hsame.asyncComplete.symm.trans hdone)
    exact ⟨hsame.asyncTD ▸ hold.1, hsame.asyncTD ▸ hold.2.1, hold.2.2⟩
  · have hold := h.waiting (hsame.asyncTD ▸ hne)
    exact hsame.asyncTD ▸ hold

theorem service_invariant (h : Invariant hc) {a : Answer} {dev : Option Nat} {ed : EndpointDescriptor}
    {completion : Bool} (hfits : Fits hc (.service a dev ed completion))
    (hstep : hc.service a dev ed completion = some hc') : Invariant hc' := by
  have htook := serviced_took a hc.toController ed completion
  have hcourse : ¬ IsGeneral ed → CourseFits hc ed (course a hc.toController ed completion) := hfits
  unfold OHCI.service at hstep
  generalize course a hc.toController ed completion = c at htook hstep hcourse
  generalize serviced a hc.toController ed completion = s at htook hstep
  cases htook with
  | idle haside hsame =>
    obtain rfl := Option.some.inj hstep
    exact samePacket_invariant h hsame
  | expires hsame =>
    obtain rfl := Option.some.inj hstep
    exact samePacket_invariant h hsame
  | waitsTD hg hfree h0 haside hpacket htd hdone =>
    rw [submit_eq hstep]
    have hno := h.not_complete hfree
    refine ⟨⟨fun hyes => ?_, h.sound.own⟩, fun _ => htd.symm⟩
    exact absurd (hno.symm.trans (hdone.symm.trans hyes)) Bool.false_ne_true
  | waitsIso hi haside hpacket htd hdone =>
    rw [submit_eq hstep]
    have hfree : hc.asyncTD = 0 := hcourse hi
    exact .of_free h.sound.own (htd.trans hfree) (hdone.trans (h.not_complete hfree))
  | answers sent hfree hpacket htd hdone huses =>
    obtain ⟨hc₁, hsubmit, rfl⟩ := Option.map_eq_some_iff.mp hstep
    obtain rfl := submit_eq hsubmit
    have hsame := huses.samePacket
    have hnone : hc.asyncTD = 0 := by
      by_cases hg : IsGeneral ed
      · exact hfree hg
      · exact hcourse hg
    exact .of_free (own_settle h.sound.own rfl) (hsame.asyncTD.trans (htd.trans hnone))
      (hsame.asyncComplete.trans (hdone.trans (h.not_complete hnone)))
  | completesTD sent hg h0 hown hpacket htd hdone huses =>
    obtain rfl := Option.some.inj hstep
    have hsame := huses.samePacket
    have hid : hc.id = headTD ed := by rw [hown]; exact h.waiting (hown ▸ h0)
    exact .of_free (own_settle h.sound.own hid) (hsame.asyncTD.trans htd) (hsame.asyncComplete.trans hdone)
  | completesIso sent hi hpacket huses =>
    obtain rfl := Option.some.inj hstep
    have hafter := samePacket_invariant h (hpacket.trans huses.samePacket)
    exact ⟨⟨hafter.sound.complete, own_settle hafter.sound.own (hcourse hi)⟩, hafter.waiting⟩

/-- What a service retires or writes back is settled with the packet that the controller then has, if
it has not expired. -/
theorem service_settles {a : Answer} {dev : Option Nat} {ed : EndpointDescriptor} {completion : Bool}
    (hstep : hc.service a dev ed completion = some hc') :
    course a hc.toController ed completion = .expires ∨ Aside hc.toController hc'.toController ∨
      (hc'.settled = hc.settled ++ [⟨headTD ed, hc'.id⟩] ∧ ∃ sent, sent.packet = hc'.packet ∧
        Uses ed sent (serviced a hc.toController ed completion)) := by
  have htook := serviced_took a hc.toController ed completion
  unfold OHCI.service at hstep
  generalize course a hc.toController ed completion = c at htook hstep ⊢
  generalize serviced a hc.toController ed completion = s at htook hstep ⊢
  cases htook with
  | idle haside hsame =>
    obtain rfl := Option.some.inj hstep
    exact .inr (.inl haside)
  | expires hsame => exact .inl rfl
  | waitsTD hg hfree h0 haside hpacket htd hdone | waitsIso hi haside hpacket htd hdone =>
    rw [submit_eq hstep]
    exact .inr (.inl haside)
  | answers sent hfree hpacket htd hdone huses =>
    obtain ⟨hc₁, hsubmit, rfl⟩ := Option.map_eq_some_iff.mp hstep
    obtain rfl := submit_eq hsubmit
    exact .inr (.inr ⟨rfl, sent, huses.samePacket.packet.symm, huses⟩)
  | completesTD sent hg h0 hown hpacket htd hdone huses | completesIso sent hi hpacket huses =>
    obtain rfl := Option.some.inj hstep
    exact .inr (.inr ⟨rfl, sent, huses.samePacket.packet.symm, huses⟩)

theorem step_invariant (h : Invariant hc) {op : Op} (hfits : Fits hc op)
    (hstep : step hc op = some hc') : Invariant hc' := by
  cases op with
  | service a dev ed completion => exact service_invariant h hfits hstep
  | skip ed => exact cancel_if_invariant h (fun hp => hfits hp.2) hstep
  | disable => exact cancel_if_invariant h (fun _ => hfits) hstep
  | detach dev => exact asyncCancelDevice_invariant h hstep
  | reset devs => exact stateReset_invariant h hfits hstep
  | complete packet data => exact complete_invariant h hfits hstep
  | elsewhere hc₁ =>
    obtain rfl := Option.some.inj hstep
    exact ⟨⟨h.sound.complete, h.sound.own⟩, h.waiting⟩

end Invariant

/-! ## The walk over a list -/

section Walk

variable {env : Nat → Answer} {devs : Nat → Option Nat} {completion : Bool} {w w' : Walk} {hc : OHCI}

/-- What one turn of a walk does, as steps; `devs` tells which device a packet goes to. -/
def turnOps (env : Nat → Answer) (devs : Nat → Option Nat) (completion : Bool) (w : Walk) : List Op :=
  match w.position with
  | .list current =>
    let ed := readED w.hc.mem current w.ed
    if ed.headP &&& OHCI_ED_H ≠ 0 ∨ ed.flags &&& OHCI_ED_K ≠ 0 then [.skip ed] else []
  | .queue current nextED =>
    if w.ed.headP &&& OHCI_DPTR_MASK = w.ed.tailP then [.elsewhere (leaveED env w current nextED).hc]
    else
      let s := serviceHead env w completion
      let w' := { w with hc := s.hc, ed := s.ed, active := true }
      .service (w.hc.answer env) (devs w.hc.calls) w.ed completion ::
        if s.stop then [.elsewhere (leaveED env w' current nextED).hc] else []

theorem serviceHead_serviced : serviceHead env w completion =
    serviced (w.hc.answer env) w.hc w.ed completion := rfl

/-- Without assertions a service always returns. -/
theorem service_exec (h : hc.asserts = false) (a : Answer) (dev : Option Nat) (ed : EndpointDescriptor)
    (completion : Bool) :
    ∃ hc', hc.service a dev ed completion = some hc' ∧ hc'.asserts = false ∧
      hc'.toController = (serviced a hc.toController ed completion).hc := by
  have hsubmit (hc : OHCI) (h : hc.asserts = false) : hc.submit a dev (headTD ed) =
      some { hc with id := headTD ed, state := stateAfter a.packet.status, dev := dev } := by
    rw [OHCI.submit, if_neg (by simp [h])]
  unfold OHCI.service
  dsimp only
  cases course a hc.toController ed completion with
  | idle => exact ⟨_, rfl, h, rfl⟩
  | expires => exact ⟨_, rfl, h, rfl⟩
  | waits => exact ⟨_, hsubmit _ h, h, rfl⟩
  | answers =>
    dsimp only
    rw [hsubmit { hc with toController := (serviced a hc.toController ed completion).hc } h]
    exact ⟨_, rfl, h, rfl⟩
  | completes => exact ⟨_, rfl, h, rfl⟩

theorem skip_exec (h : hc.asserts = false) (ed : EndpointDescriptor) :
    ∃ hc', hc.skip ed = some hc' ∧ hc'.asserts = false ∧
      hc'.toController = cancelPending hc.toController ed := by
  unfold OHCI.skip cancelPending headTD
  split
  · exact ⟨_, if_neg (by simp [h]), h, rfl⟩
  · exact ⟨hc, rfl, h, rfl⟩

/-- One turn of a walk is a run. -/
theorem turn_exec (devs : Nat → Option Nat) (hw : hc.toController = w.hc) (h : hc.asserts = false)
    (hb : walkBody env completion w = .next w') :
    ∃ hc', exec step hc (turnOps env devs completion w) = some hc' ∧ hc'.asserts = false ∧
      hc'.toController = w'.hc := by
  have hleave (hc : OHCI) (v : Walk) (current nextED : Word) (hv : hc.toController = v.hc)
      (ha : hc.asserts = false) :
      ∃ hc', exec step hc [.elsewhere (leaveED env v current nextED).hc] = some hc' ∧
        hc'.asserts = false ∧ hc'.toController = (leaveED env v current nextED).hc := by
    refine ⟨_, rfl, ha, ?_⟩
    unfold OHCI.elsewhere leaveED Controller.called
    dsimp only
    rw [hv]
  unfold walkBody at hb
  unfold turnOps
  cases hpos : w.position with
  | list current =>
    rw [hpos] at hb
    dsimp only at hb ⊢
    split at hb
    · cases hb
    obtain rfl := Turn.next.inj hb
    unfold enterED
    dsimp only
    split
    · obtain ⟨hc', hskip, ha, heq⟩ := skip_exec h (readED w.hc.mem current w.ed)
      exact ⟨hc', by rw [exec_cons, step, hskip]; rfl, ha, by rw [heq, hw]⟩
    · exact ⟨hc, rfl, h, hw⟩
  | queue current nextED =>
    rw [hpos] at hb
    dsimp only at hb ⊢
    split at hb
    · next ht =>
      rw [if_pos ht]
      obtain rfl := Turn.next.inj hb
      exact hleave hc w current nextED hw h
    next ht =>
    rw [if_neg ht]
    obtain ⟨hc₁, hservice, ha, heq⟩ := service_exec h (w.hc.answer env) (devs w.hc.calls) w.ed completion
    rw [hw, ← serviceHead_serviced] at heq
    rw [exec_cons, step, hservice, Option.bind_some]
    generalize hs : serviceHead env w completion = s at heq hb ⊢
    split at hb
    · next hstop =>
      obtain rfl := Turn.next.inj hb
      rw [if_pos hstop]
      exact hleave hc₁ _ current nextED heq ha
    · next hstop =>
      obtain rfl := Turn.next.inj hb
      rw [if_neg hstop]
      exact ⟨hc₁, rfl, ha, heq⟩

theorem walkBody_exit (hb : walkBody env completion w = .exit w') : w'.hc = w.hc := by
  unfold walkBody at hb
  dsimp only at hb
  split at hb
  · split at hb
    · rw [← Turn.exit.inj hb]
    · cases hb
  split at hb
  · cases hb
  split at hb <;> cases hb

/-- So is the whole of it: what holds in runs holds in the walk. -/
theorem walk_exec (devs : Nat → Option Nat) {fuel : Nat} (hw : hc.toController = w.hc)
    (h : hc.asserts = false) (hloop : loop (walkBody env completion) fuel w = some w') :
    ∃ ops hc', exec step hc ops = some hc' ∧ hc'.asserts = false ∧ hc'.toController = w'.hc := by
  induction fuel generalizing w hc with
  | zero => cases hloop
  | succ fuel ih =>
    cases hb : walkBody env completion w with
    | next v =>
      rw [loop_next hb] at hloop
      obtain ⟨hc₁, hturn, ha, heq⟩ := turn_exec devs hw h hb
      obtain ⟨ops, hc', hrest, hlast⟩ := ih heq ha hloop
      exact ⟨turnOps env devs completion w ++ ops, hc', by rw [exec_append, hturn]; exact hrest, hlast⟩
    | exit v =>
      rw [loop_exit hb] at hloop
      obtain rfl := Option.some.inj hloop
      exact ⟨[], hc, rfl, h, hw.trans (walkBody_exit hb).symm⟩

end Walk

theorem invariant_construct (asserts : Bool) (hc : Controller) : Invariant (OHCI.construct asserts hc) :=
  .of_free (fun _ hs => absurd hs List.not_mem_nil) rfl rfl

/-- In a run whose steps fit, a complete packet is that of the descriptor that waits, and every
descriptor is settled with its own. -/
theorem own_packets (asserts : Bool) (hc : Controller) (ops : List Op)
    (h : Guarded step Fits (OHCI.construct asserts hc) ops) :
    Always step Sound (OHCI.construct asserts hc) ops := by
  have hinvariant : Always step Invariant (OHCI.construct asserts hc) ops :=
    always_of_guarded (fun _ _ _ hi hfits hstep => step_invariant hi hfits hstep)
      (invariant_construct asserts hc) h
  exact hinvariant.mono fun _ hi => hi.sound

/-- A general descriptor at 0x100 and an isochronous one at 0x110. -/
def twoDescriptors : Controller :=
  controllerOver [0x100000, 0x1000, 0, 0x1007, 0, 0x3000, 0, 0x3007, 0xE000]

def generalEndpoint : EndpointDescriptor := ⟨0x81000, 0x200, 0x100, 0⟩

def isoEndpoint : EndpointDescriptor := ⟨0x89000, 0x200, 0x110, 0⟩

/-- The device puts the packet off. -/
def putOff : Answer := ⟨fun _ => 0, ⟨USB_RET_ASYNC, 0⟩, fun _ => 0, 0⟩

theorem put_off_and_completed :
    Always step Sound (OHCI.construct true twoDescriptors)
      [.service putOff (some 1) generalEndpoint false, .complete ⟨USB_RET_SUCCESS, 8⟩ fun _ => 0,
        .service putOff none generalEndpoint true, .disable] :=
  own_packets true twoDescriptors _ (by decide)

/-- The packet of the general descriptor is put off and completed, and the isochronous descriptor comes
first when the lists are processed. It is settled with that packet. -/
theorem iso_settled_with_other_packet :
    ¬ Always step Sound (OHCI.construct true twoDescriptors)
      [.service putOff (some 1) generalEndpoint false, .complete ⟨USB_RET_SUCCESS, 8⟩ fun _ => 0,
        .service putOff none isoEndpoint true] := by decide

end OpenXbox.Ohci.AsyncPacket
