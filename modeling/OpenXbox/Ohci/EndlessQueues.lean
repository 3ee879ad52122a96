import OpenXbox.Lib.Cycle
import OpenXbox.Ohci.FiniteLists
import OpenXbox.Ohci.OutTransfer

/-!
# Endless queues

Two ways in which a queue is never left: HeadP has become null before the queue got to its TailP,
and data that cannot be sent in packets of the endpoint's size is sent to a device that takes every
packet. A buffer of at most two pages can be sent in packets of any size but zero.
-/

namespace OpenXbox.Ohci.EndlessQueues

open OpenXbox.Lib.Loop OpenXbox.Lib.Cycle OpenXbox.Ohci.Memory OpenXbox.Ohci.Service
  OpenXbox.Ohci.Layout OpenXbox.Ohci.Progress OpenXbox.Ohci.ListWalk OpenXbox.Ohci.FiniteLists
open OpenXbox.Ohci.OutTransfer (Spans OutTD bufferLength_of_ends advance_eq)

/-! ## Data that can be sent -/

section Sendable

variable {ed : EndpointDescriptor} {td : TransferDescriptor}

/-- Sending some of the data leaves data that can be sent. -/
theorem sendable_of_partlySent (h : Sendable ed (partlySent ed td)) : Sendable ed td := by
  rcases h with hin | ⟨j, hj⟩
  · exact .inl (direction_partlySent ed td ▸ hin)
  · exact .inr ⟨j + 1, by rwa [Function.iterate_succ_apply]⟩

theorem sendable_of_spans (hsize : 1 ≤ maxPacketSize ed) {length : Nat} (h : Spans td length) :
    Sendable ed td := by
  induction length using Nat.strong_induction_on generalizing td with
  | h length ih =>
    by_cases hle : length ≤ maxPacketSize ed
    · exact .inr ⟨0, (bufferLength_of_ends h).trans_le hle⟩
    have hlt := maxPacketSize_lt ed
    have hrest : Spans (partlySent ed td) (length - maxPacketSize ed) :=
      h.moved (Nat.not_le.mp hle) (advance_eq td (by omega)) rfl
    exact sendable_of_partlySent (ih _ (by omega) hrest)

/-- The data of a descriptor with a buffer of at most two pages, none of them page 0. -/
theorem sendable_of_outTD {s : OutTransfer.Endpoint} (h : OutTD s td) : Sendable s.ed td :=
  sendable_of_spans h.size h.spans

/-- Without a packet size none of the data can be sent. -/
theorem not_sendable_of_zero (hsize : maxPacketSize ed = 0) (hdir : direction ed td ≠ OHCI_TD_DIR_IN)
    (hl : bufferLength td ≠ 0) : ¬ Sendable ed td := by
  have hstill (t : TransferDescriptor) : bufferLength (partlySent ed t) = bufferLength t := by
    have hptr : advance t (BitVec.ofNat 32 0) = t.currentBufferPointer := by
      rw [advance_eq t (by decide), OutTransfer.byteAddress_zero]
    rw [bufferLength, bufferLength, partlySent, hsize, hptr]
  intro h
  rcases h with hin | ⟨j, hj⟩
  · exact hdir hin
  · have hall : bufferLength ((partlySent ed)^[j] td) = bufferLength td := by
      clear hj
      induction j with
      | zero => rfl
      | succ j ih => rw [Function.iterate_succ_apply', hstill, ih]
    omega

end Sendable

/-! ## Queues that are never left -/

/-- The queue has run into a null pointer. For a general endpoint a packet must be pending. -/
structure NullHead (w : Walk) : Prop where
  inQueue : ∃ current nextED, w.position = .queue current nextED
  head : w.ed.headP &&& OHCI_DPTR_MASK = 0
  tail : w.ed.tailP ≠ 0
  pending : IsGeneral w.ed → ¬ (w.hc.asyncTD = 0 ∧ w.hc.asyncComplete = false)

/-- The queue is at a descriptor with data that cannot be sent, and no packet waits. -/
structure Unsendable (w : Walk) : Prop where
  inQueue : ∃ current nextED, w.position = .queue current nextED
  general : IsGeneral w.ed
  tail : w.ed.headP &&& OHCI_DPTR_MASK ≠ w.ed.tailP
  nonnull : w.ed.headP &&& OHCI_DPTR_MASK ≠ 0
  mapped : mapped w.hc.mem (w.ed.headP &&& OHCI_DPTR_MASK) 16 = true
  keeps : Keeps w.hc.mem (w.ed.headP &&& OHCI_DPTR_MASK) 16
  free : w.hc.asyncTD = 0
  direction : direction w.ed (tdAt w.hc.mem (w.ed.headP &&& OHCI_DPTR_MASK)) ≠ OHCI_TD_DIR_RESERVED
  data : ¬ Sendable w.ed (tdAt w.hc.mem (w.ed.headP &&& OHCI_DPTR_MASK))

section Endless

variable {env : Nat → Answer} {completion : Bool} {w : Walk}

/-- The descriptor is not serviced, but the service does not stop. -/
theorem NullHead.turn (h : NullHead w) : ∃ v, walkBody env completion w = .next v ∧ NullHead v := by
  obtain ⟨⟨current, nextED, hpos⟩, h0, ht, hpending⟩ := h
  have hnull : serviceHead env w completion = ⟨false, w.hc.called.fatalError, w.ed⟩ := by
    by_cases hg : IsGeneral w.ed
    · rw [serviceHead_general env completion hg, serviceTD_null env w.hc w.ed h0, if_neg (hpending hg)]
    · rw [serviceHead_iso env completion hg, serviceIsoTD, h0]
      rfl
  have hnt : w.ed.headP &&& OHCI_DPTR_MASK ≠ w.ed.tailP := by
    rw [h0]
    exact ht.symm
  refine ⟨_, walkBody_go hpos hnt (by rw [hnull]), ?_⟩
  rw [afterService, hnull]
  exact ⟨⟨current, nextED, hpos⟩, h0, ht, hpending⟩

/-- A packet is sent, and the data that is left cannot be sent either. -/
theorem Unsendable.turn (h : Unsendable w) (htakes : ∀ n, Takes (env n).packet) :
    ∃ v, walkBody env completion w = .next v ∧ Unsendable v := by
  obtain ⟨⟨current, nextED, hpos⟩, hg, ht, h0, hm, hkeeps, hfree, hres, hdata⟩ := h
  obtain ⟨hdir, hlong⟩ := not_or.mp hdata
  have hlen : maxPacketSize w.ed < bufferLength (tdAt w.hc.mem (w.ed.headP &&& OHCI_DPTR_MASK)) :=
    Nat.not_le.mp fun hle => hlong ⟨0, hle⟩
  obtain ⟨hc', hserve, hfree', hmem⟩ :=
    serviceTD_partly env w.hc w.ed h0 hm hfree rfl hres hdir hlen (htakes w.hc.calls)
  have hhead : serviceHead env w completion = ⟨false, hc', w.ed⟩ := by
    rw [serviceHead_general env completion hg, hserve]
  refine ⟨_, walkBody_go hpos ht (by rw [hhead]), ?_⟩
  rw [afterService, hhead]
  have htd := tdAt_writeTD hkeeps hm
    (partlySent w.ed (tdAt w.hc.mem (w.ed.headP &&& OHCI_DPTR_MASK)))
  rw [← hmem] at htd
  refine ⟨⟨current, nextED, hpos⟩, hg, ht, h0, ?_, ?_, hfree', ?_, ?_⟩
  · rw [hmem, writeTD, hkeeps.mapped_eq (by decide) le_rfl]
    exact hm
  · rw [hmem]
    exact hkeeps.store (by decide) _
  · rw [htd, direction_partlySent]
    exact hres
  · rw [htd]
    exact mt sendable_of_partlySent hdata

/-- A walk that gets to such a queue does not return. -/
theorem endless_of_reaches {hc : Controller} {ed : EndpointDescriptor} {head : Word}
    (htakes : ∀ n, Takes (env n).packet)
    (hsteps : Steps (walkBody env completion) ⟨hc, ed, false, .list head⟩ w)
    (h : NullHead w ∨ Unsendable w) (fuel : Nat) :
    serviceEDlist fuel env hc ed head completion = none := by
  have hnone : ∀ fuel, loop (walkBody env completion) fuel w = none := by
    rcases h with hnull | hdata
    · exact loop_none_of_invariant (fun v hv => hv.turn) hnull
    · exact loop_none_of_invariant (fun v hv => hv.turn htakes) hdata
  rw [serviceEDlist]
  cases hloop : loop (walkBody env completion) fuel ⟨hc, ed, false, .list head⟩ with
  | none => rfl
  | some t =>
    obtain ⟨more, hmore⟩ := ends_of_steps hsteps ⟨fuel, hloop⟩
    rw [hnone more] at hmore
    cases hmore

end Endless

end OpenXbox.Ohci.EndlessQueues
