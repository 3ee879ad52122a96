import OpenXbox.Ohci.Assertions
import OpenXbox.Usb.Delivered

/-!
# What the devices deliver

The packet of the controller comes back from a hub, from a gamepad, or from an address without a
device. What it then says fits into the buffer of the controller, whatever has been done before.
-/

namespace OpenXbox.Ohci.Deliveries

open OpenXbox.Lib.Run OpenXbox.Ohci.Memory OpenXbox.Ohci.Service OpenXbox.Ohci.Assertions
  OpenXbox.Usb.Delivered
open OpenXbox.Ohci.AsyncPacket (OHCI)
open OpenXbox.Ohci.TransferBounds (usbBufferSize DeviceFits)
open OpenXbox.Usb.Control (USBPacket dataBufferSize)
open OpenXbox.Usb.Ports (Bus handle_kept)
open OpenXbox.Usb.Requests (Settled)

/-- What the controller takes for a length is no more than its buffer has. -/
def Held (p : UsbPacket) : Prop := nonneg p.ret = true → p.ret.toNat ≤ usbBufferSize

theorem held_unanswered (stack : Nat → Byte) (behind : Word) : Held (unanswered stack behind).packet :=
  fun _ => Nat.zero_le _

/-- Statuses of failed packets are negative for the controller, too. -/
theorem held_answered {stack : Nat → Byte} {behind : Word} {p : Submission} {n : Nat} {pkt : USBPacket}
    (hsettled : Settled pkt.status) (hwithin : Within n pkt) : Held (answered stack behind p pkt).packet := by
  obtain ⟨hlow, hhigh⟩ := hsettled
  rw [OpenXbox.Usb.Control.USB_RET_ASYNC] at hlow
  rw [OpenXbox.Usb.Control.USB_RET_SUCCESS] at hhigh
  intro hnonneg
  rw [answered, UsbPacket.ret] at hnonneg ⊢
  by_cases hok : pkt.status = 0
  · have hle := (hwithin.delivered hok).2
    rw [dataBufferSize] at hle
    rw [if_pos (by rw [hok]; rfl), BitVec.toNat_ofNat, usbBufferSize]
    omega
  · have hint : (BitVec.ofInt 32 pkt.status).toInt = pkt.status := by
      rw [BitVec.toInt_ofInt, Int.bmod_eq_of_le (by omega) (by omega)]
    have hne : BitVec.ofInt 32 pkt.status ≠ USB_RET_SUCCESS := by
      intro heq
      rw [heq] at hint
      exact hok hint.symm
    rw [if_neg hne, nonneg, BitVec.msb_eq_toInt, hint, decide_eq_true (by omega)] at hnonneg
    cases hnonneg

/-! ## The packet that is left -/

section Packet

variable {hc hc' : OHCI}

theorem serviced_packet (a : Answer) (hc : Controller) (ed : EndpointDescriptor) (completion : Bool) :
    (AsyncPacket.serviced a hc ed completion).hc.packet = hc.packet ∨
      (AsyncPacket.serviced a hc ed completion).hc.packet = a.packet := by
  have htook := AsyncPacket.serviced_took a hc ed completion
  generalize AsyncPacket.course a hc ed completion = c at htook
  cases htook with
  | idle haside hsame => exact .inl hsame.packet
  | expires hsame => exact .inl hsame.packet
  | waitsTD hg hfree h0 haside hpacket htd hdone => exact .inr hpacket
  | waitsIso hi haside hpacket htd hdone => exact .inr hpacket
  | answers sent hfree hpacket htd hdone huses => exact .inr (huses.samePacket.packet.trans hpacket)
  | completesTD sent hg h0 hown hpacket htd hdone huses =>
    exact .inl (huses.samePacket.packet.trans hpacket)
  | completesIso sent hi hpacket huses => exact .inl (huses.samePacket.packet.trans hpacket.packet)

theorem service_packet {a : Answer} {dev : Option Nat} {ed : EndpointDescriptor} {completion : Bool}
    (h : hc.service a dev ed completion = some hc') : hc'.packet = hc.packet ∨ hc'.packet = a.packet := by
  have hpacket := serviced_packet a hc.toController ed completion
  unfold OHCI.service at h
  dsimp only at h
  split at h
  · cases h
    exact hpacket
  · cases h
    exact hpacket
  · rw [AsyncPacket.submit_eq h]
    exact hpacket
  · obtain ⟨hc₁, hsubmit, rfl⟩ := Option.map_eq_some_iff.mp h
    rw [AsyncPacket.submit_eq hsubmit]
    exact hpacket
  · cases h
    exact hpacket

theorem cancelled_packet {c : Prop} [Decidable c] (h : (if c then hc.cancel else some hc) = some hc') :
    hc'.packet = hc.packet := by
  split at h
  · rw [AsyncPacket.cancel_eq h]
  · rw [Option.some.inj h]

theorem stateReset_packet {devs : List Nat} (h : hc.stateReset devs = some hc') :
    hc'.packet = hc.packet := by
  have hdevs (devs : List Nat) (hc hc' : OHCI) (h : devs.foldlM OHCI.asyncCancelDevice hc = some hc') :
      hc'.packet = hc.packet := by
    induction devs generalizing hc with
    | nil => rw [← Option.some.inj h]
    | cons dev devs ih =>
      rw [List.foldlM_cons] at h
      obtain ⟨hc₁, hone, hrest⟩ := Option.bind_eq_some_iff.mp h
      exact (ih hc₁ hrest).trans (cancelled_packet hone)
  obtain ⟨hc₁, hcancel, hdisable⟩ := Option.bind_eq_some_iff.mp h
  have hsame : hc₁.packet = hc.packet :=
    hdevs devs { hc with hcDoneHead := 0, hcFmNumber := 0, doneCount := 7 } hc₁ hcancel
  exact (cancelled_packet hdisable).trans hsame

/-- The packet that a step may leave in place of the one before. -/
def brought : AsyncPacket.Op → Option UsbPacket
  | .service a _ _ _ => some a.packet
  | .complete packet _ => some packet
  | .skip _ | .disable | .detach _ | .reset _ | .elsewhere _ => none

theorem step_packet {op : AsyncPacket.Op} (h : AsyncPacket.step hc op = some hc') :
    hc'.packet = hc.packet ∨ brought op = some hc'.packet := by
  cases op with
  | service a dev ed completion => exact (service_packet h).imp_right fun hp => congrArg some hp.symm
  | skip ed => exact .inl (cancelled_packet h)
  | disable => exact .inl (cancelled_packet h)
  | detach dev => exact .inl (cancelled_packet h)
  | reset devs => exact .inl (stateReset_packet h)
  | complete packet data =>
    rw [AsyncPacket.step, OHCI.asyncCompletePacket] at h
    split at h
    · cases h
      exact .inr rfl
    · cases h
  | elsewhere hc₁ =>
    cases h
    exact .inl rfl

end Packet

/-! ## Runs -/

section Runs

variable {s t : System}

/-- What a service finds, from whatever device is there. -/
inductive Answers (s : System) (stack : Nat → Byte) (behind : Word) (ed : EndpointDescriptor)
    (completion : Bool) : Answer → Prop
  | unanswered (h : ¬ Submits s.ohci.toController stack ed completion) :
      Answers s stack behind ed completion (unanswered stack behind)
  | answered {bus : Bus} {pkt : USBPacket} (h : Submits s.ohci.toController stack ed completion)
      (hhandle : s.bus.handle (functionAddress ed) (submission s.ohci.toController stack ed).pid
        (endpointNumber ed) (submission s.ohci.toController stack ed).ioVec = .ok (bus, pkt)) :
      Answers s stack behind ed completion
        (answered stack behind (submission s.ohci.toController stack ed) pkt)

theorem Answers.held {stack : Nat → Byte} {behind : Word} {ed : EndpointDescriptor} {completion : Bool}
    {a : Answer} (h : Quiet s) (ha : Answers s stack behind ed completion a) : Held a.packet := by
  cases ha with
  | unanswered _ => exact held_unanswered stack behind
  | answered _ hhandle => exact held_answered (handle_kept h.legal hhandle).2 (handle_within hhandle)

theorem controller_held {op : AsyncPacket.Op} {bus : Bus} (h : Held s.ohci.packet)
    (hop : ∀ p, brought op = some p → Held p) (hstep : s.controller op bus = .ok t) :
    Held t.ohci.packet := by
  rw [System.controller] at hstep
  split at hstep
  · cases hstep
  · next hc heq =>
    cases hstep
    rcases step_packet heq with hsame | hbrought
    · rw [hsame]
      exact h
    · exact hop _ hbrought

theorem service_held (hquiet : Quiet s) (h : Held s.ohci.packet) {stack : Nat → Byte} {behind : Word}
    {ed : EndpointDescriptor} {completion : Bool} (hstep : s.service stack behind ed completion = .ok t) :
    Held t.ohci.packet := by
  have hgoes {a : Answer} (ha : Answers s stack behind ed completion a) (dev : Option Nat) (p : UsbPacket)
      (hp : brought (.service a dev ed completion) = some p) : Held p :=
    Option.some.inj hp ▸ ha.held hquiet
  rw [System.service] at hstep
  split at hstep
  · next hsubmits =>
    dsimp only at hstep
    split at hstep
    · cases hstep
    split at hstep
    · cases hstep
    split at hstep
    · cases hstep
    · next hhandle => exact controller_held h (hgoes (.answered hsubmits hhandle) _) hstep
  · next hsilent => exact controller_held h (hgoes (.unanswered hsilent) none) hstep

theorem step_held (hquiet : Quiet s) (h : Held s.ohci.packet) {op : Op} (hstep : step s op = some t) :
    Held t.ohci.packet := by
  have hok : s.outcome op = .ok t := by
    rw [step] at hstep
    split at hstep
    · cases hstep
    · next heq =>
      rw [heq]
      exact congrArg _ (Option.some.inj hstep)
  cases op with
  | service stack behind ed completion => exact service_held hquiet h hok
  | skip ed => exact controller_held h (fun _ hp => by cases hp) hok
  | disable => exact controller_held h (fun _ hp => by cases hp) hok
  | stateReset => exact controller_held h (fun _ hp => by cases hp) hok
  | elsewhere hc enabled =>
    rw [System.outcome] at hok
    exact controller_held h (fun _ hp => by cases hp) hok
  | resetPort port =>
    cases hok
    exact h
  | attachHub port strings =>
    cases hok
    exact h
  | attachGamepad place strings =>
    cases hok
    exact h
  | detach place =>
    rw [System.outcome] at hok
    split at hok
    · exact controller_held h (fun _ hp => by cases hp) hok
    · cases hok
      exact h

/-- In every run of the controller with its devices, a service finds no more bytes reported than its
buffer has, in the packet it submits and in the one that is left from before. -/
theorem devices_fit {hc : Controller} {ops : List Op} (h : exec step (System.construct hc) ops = some s)
    {stack : Nat → Byte} {behind : Word} {ed : EndpointDescriptor} {completion : Bool} {a : Answer}
    (ha : Answers s stack behind ed completion a) : DeviceFits (fun _ => a) s.ohci.toController := by
  have hstep (s : System) (op : Op) (t : System) (hs : Quiet s ∧ Held s.ohci.packet)
      (ht : step s op = some t) : Quiet t ∧ Held t.ohci.packet :=
    ⟨step_quiet hs.1 ht, step_held hs.1 hs.2 ht⟩
  have hstart : Held (System.construct hc).ohci.packet := fun _ => Nat.zero_le _
  have hreached := exec_invariant hstep ⟨quiet_construct hc, hstart⟩ h
  exact ⟨hreached.2, ha.held hreached.1⟩

end Runs

end OpenXbox.Ohci.Deliveries
