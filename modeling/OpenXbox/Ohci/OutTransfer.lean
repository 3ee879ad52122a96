import Mathlib.Tactic.IntervalCases
import OpenXbox.Ohci.Assertions

/-!
# Splitting of OUT transfers

Services of an OUT descriptor send its buffer in packets of the endpoint's size. How far they have
got is in CurrentBufferPointer only, which goes on in the page of BufferEnd when it has come to the
end of its own. What they send is read at an address of the host, and not from the memory of the
guest.
-/

namespace OpenXbox.Ohci.OutTransfer

open OpenXbox.Lib.Buffer OpenXbox.Lib.Bits OpenXbox.Ohci.Memory OpenXbox.Ohci.Service
  OpenXbox.Ohci.Layout OpenXbox.Ohci.Progress
open OpenXbox.Ohci.AsyncPacket (IsGeneral)
open OpenXbox.Ohci.Assertions (submissionTD Submits)
open OpenXbox.Ohci.DoneQueue (headTD)
open OpenXbox.Ohci.TransferBounds (page offsetInPage toNat_and_offsetMask pageMask_ne_iff)
open OpenXbox.Cpu.VirtualCopy (rangeOf)

/-! ## The bytes of a buffer -/

/-- The address of byte `j` of the buffer. -/
def byteAddress (td : TransferDescriptor) (j : Nat) : Word :=
  if offsetInPage td.currentBufferPointer + j < 0x1000 then td.currentBufferPointer + BitVec.ofNat 32 j
  else (td.bufferEnd &&& OHCI_PAGE_MASK) +
    BitVec.ofNat 32 (offsetInPage td.currentBufferPointer + j - 0x1000)

/-- Where the controller looks for an address in host memory. -/
def hostAddress (paddr : Word) : Word :=
  if paddr < XBOX_MEMORY_SIZE then paddr + CONTIGUOUS_MEMORY_BASE else paddr

/-- What the controller takes for byte `j` of the buffer. -/
def hostByte (host : Word → Byte) (td : TransferDescriptor) (j : Nat) : Byte :=
  host (hostAddress (byteAddress td j))

/-- The byte of the guest at a physical address, as `MemRead` finds it. -/
def physicalByte (mem : GuestMemory) (paddr : Word) : Option Byte :=
  (rangeOf mem.map paddr).map fun r => mem.host (r.place paddr)

/-- The bytes of the buffer in the memory of the guest. -/
def guestBytes (mem : GuestMemory) (td : TransferDescriptor) : List (Option Byte) :=
  (List.range (bufferLength td)).map fun j => physicalByte mem (byteAddress td j)

/-- The host has the byte of the guest where the controller looks for byte `j`. -/
def Reflects (hc : Controller) (td : TransferDescriptor) (j : Nat) : Prop :=
  physicalByte hc.mem (byteAddress td j) = some (hostByte hc.host td j)

/-- The number of packets that `length` bytes take. -/
def packetCount (length size : Nat) : Nat := (length - 1) / size + 1

/-! ## Calls -/

/-- The controller, and its copy of the endpoint descriptor. -/
structure Endpoint where
  hc : Controller
  ed : EndpointDescriptor

/-- One call of `OHCI_ServiceTD`. -/
def call (env : Nat → Answer) (s : Endpoint) : Endpoint :=
  ⟨(serviceTD env s.hc s.ed).hc, (serviceTD env s.hc s.ed).ed⟩

def after (env : Nat → Answer) (s : Endpoint) (k : Nat) : Endpoint := (call env)^[k] s

/-- The packet that a call hands to the device. -/
def packet (env : Nat → Answer) (s : Endpoint) : List Byte :=
  (submissionTD s.hc s.ed (readTD s.hc.mem (headTD s.ed) (s.hc.answer env).stack)).ioVec

def toggle (td : TransferDescriptor) : Bool := td.flags &&& OHCI_TD_T0 ≠ 0

/-- The descriptor `td` at the head of the queue is for OUT packets, and no packet waits. It is not
over the page table entries that it is translated with. -/
structure Ready (s : Endpoint) (td : TransferDescriptor) : Prop where
  nonnull : headTD s.ed ≠ 0
  mapped : mapped s.hc.mem (headTD s.ed) 16 = true
  keeps : Keeps s.hc.mem (headTD s.ed) 16
  read : tdAt s.hc.mem (headTD s.ed) = td
  general : IsGeneral s.ed
  out : direction s.ed td = OHCI_TD_DIR_OUT
  free : s.hc.asyncTD = 0
  size : 1 ≤ maxPacketSize s.ed

/-- Besides, it has a buffer of at most two pages without a byte in page 0. -/
structure OutTD (s : Endpoint) (td : TransferDescriptor) : Prop extends Ready s td where
  nonempty : 1 ≤ bufferLength td
  bounded : bufferLength td ≤ 8192
  noPage0 : ∀ j, j < bufferLength td → page (byteAddress td j) ≠ 0

/-- The calls from `s` on send `count` packets, as if for the buffer of `td`. -/
structure Paces (env : Nat → Answer) (s : Endpoint) (td : TransferDescriptor) (count : Nat) :
    Prop where
  submits : ∀ k, k < count →
    Submits (after env s k).hc ((after env s k).hc.answer env).stack (after env s k).ed false
  full : ∀ k, k + 1 < count → (packet env (after env s k)).length = maxPacketSize s.ed
  unsent : ∀ k, k < count → (tdAt (after env s k).hc.mem (headTD s.ed)).currentBufferPointer =
    byteAddress td (((List.range k).map fun i => packet env (after env s i)).flatten.length)
  sent : (tdAt (after env s count).hc.mem (headTD s.ed)).currentBufferPointer = 0
  toggles : ∀ k, k < count → toggle (tdAt (after env s (k + 1)).hc.mem (headTD s.ed)) =
    !toggle (tdAt (after env s k).hc.mem (headTD s.ed))
  queued : ∀ k, k < count → (after env s k).ed = s.ed ∧
    (after env s k).hc.hcDoneHead = s.hc.hcDoneHead ∧
      (tdAt (after env s k).hc.mem (headTD s.ed)).nextTD = td.nextTD
  retired : (after env s count).hc.hcDoneHead = headTD s.ed ∧
    (tdAt (after env s count).hc.mem (headTD s.ed)).nextTD = s.hc.hcDoneHead ∧
      headTD (after env s count).ed = td.nextTD &&& OHCI_DPTR_MASK

/-- All that the packets of the calls from `s` on hold. -/
def sentBytes (env : Nat → Answer) (s : Endpoint) (count : Nat) : List Byte :=
  ((List.range count).map fun k => packet env (after env s k)).flatten

/-- The calls from `s` on send the buffer of `td` in `count` packets. -/
structure Splits (env : Nat → Answer) (s : Endpoint) (td : TransferDescriptor) (count : Nat) : Prop
    extends Paces env s td count where
  data : (sentBytes env s count).map some = guestBytes s.hc.mem td

/-! ## Addresses -/

/-- `length` bytes from CurrentBufferPointer on end at BufferEnd, and lie outside page 0. -/
structure Spans (td : TransferDescriptor) (length : Nat) : Prop where
  pos : 1 ≤ length
  first : page td.currentBufferPointer ≠ 0
  last : page td.bufferEnd ≠ 0
  ends : offsetInPage td.currentBufferPointer + length = offsetInPage td.bufferEnd + 1 +
    if page td.currentBufferPointer = page td.bufferEnd then 0 else 0x1000

section Addresses

variable {td : TransferDescriptor} {length : Nat}

theorem ne_zero_of_page {a : Word} (h : page a ≠ 0) : a ≠ 0 := by
  rintro rfl
  exact h rfl

theorem offsetInPage_lt (a : Word) : offsetInPage a < 0x1000 := Nat.mod_lt _ (by decide)

theorem page_add_offset (a : Word) : 0x1000 * page a + offsetInPage a = a.toNat :=
  Nat.div_add_mod a.toNat 0x1000

/-- The length that the code computes, as far as it is not beyond the buffer. -/
theorem ends_of_bufferLength (h1 : 1 ≤ bufferLength td) (hle : bufferLength td ≤ 8192) :
    offsetInPage td.currentBufferPointer + bufferLength td = offsetInPage td.bufferEnd + 1 +
      if page td.currentBufferPointer = page td.bufferEnd then 0 else 0x1000 := by
  have hfirst := page_add_offset td.currentBufferPointer
  have hlast := page_add_offset td.bufferEnd
  have hfirst_lt := offsetInPage_lt td.currentBufferPointer
  have hlast_lt := offsetInPage_lt td.bufferEnd
  by_cases hset : td.currentBufferPointer ≠ 0 ∧ td.bufferEnd ≠ 0
  · by_cases hp : page td.currentBufferPointer = page td.bufferEnd
    · have hmask : ¬ td.currentBufferPointer &&& OHCI_PAGE_MASK ≠ td.bufferEnd &&& OHCI_PAGE_MASK :=
        fun hne => (pageMask_ne_iff _ _).mp hne hp
      rw [bufferLength, if_pos hset, if_neg hmask] at h1 hle ⊢
      rw [if_pos hp]
      rw [BitVec.toNat_add, BitVec.toNat_sub, show (1 : Word).toNat = 1 from rfl] at h1 hle ⊢
      omega
    · have hoff := toNat_and_offsetMask td.currentBufferPointer
      have hoff' := toNat_and_offsetMask td.bufferEnd
      rw [OHCI_OFFSET_MASK] at hoff hoff'
      rw [bufferLength, if_pos hset, if_pos ((pageMask_ne_iff _ _).mpr hp), if_neg hp, BitVec.toNat_sub,
        BitVec.toNat_add, hoff, hoff', show (0x1001 : Word).toNat = 0x1001 from rfl]
      omega
  · rw [bufferLength, if_neg hset] at h1
    cases h1

theorem bufferLength_of_ends (h : Spans td length) : bufferLength td = length := by
  have hfirst := page_add_offset td.currentBufferPointer
  have hlast := page_add_offset td.bufferEnd
  have hfirst_lt := offsetInPage_lt td.currentBufferPointer
  have hlast_lt := offsetInPage_lt td.bufferEnd
  have hends := h.ends
  have hpos := h.pos
  rw [bufferLength, if_pos ⟨ne_zero_of_page h.first, ne_zero_of_page h.last⟩]
  by_cases hp : page td.currentBufferPointer = page td.bufferEnd
  · rw [if_neg fun hne => (pageMask_ne_iff _ _).mp hne hp, BitVec.toNat_add, BitVec.toNat_sub,
      show (1 : Word).toNat = 1 from rfl]
    rw [if_pos hp] at hends
    have hlt := td.bufferEnd.isLt
    omega
  · have hoff := toNat_and_offsetMask td.currentBufferPointer
    have hoff' := toNat_and_offsetMask td.bufferEnd
    rw [OHCI_OFFSET_MASK] at hoff hoff'
    rw [if_pos ((pageMask_ne_iff _ _).mpr hp), BitVec.toNat_sub, BitVec.toNat_add, hoff, hoff',
      show (0x1001 : Word).toNat = 0x1001 from rfl]
    rw [if_neg hp] at hends
    omega

theorem toNat_pageMask (a : Word) : (a &&& OHCI_PAGE_MASK).toNat = 0x1000 * page a := by
  rw [show OHCI_PAGE_MASK = ~~~lowMask 12 by decide, toNat_and_not_lowMask]
  exact Nat.mul_comm _ _

theorem toNat_byteAddress_low {j : Nat} (hj : offsetInPage td.currentBufferPointer + j < 0x1000) :
    (byteAddress td j).toNat =
      0x1000 * page td.currentBufferPointer + (offsetInPage td.currentBufferPointer + j) := by
  have hfirst := page_add_offset td.currentBufferPointer
  have hlt := td.currentBufferPointer.isLt
  rw [byteAddress, if_pos hj, BitVec.toNat_add, BitVec.toNat_ofNat]
  omega

theorem toNat_byteAddress_high {j : Nat} (hj : 0x1000 ≤ offsetInPage td.currentBufferPointer + j)
    (hlt : offsetInPage td.currentBufferPointer + j < 0x2000) :
    (byteAddress td j).toNat =
      0x1000 * page td.bufferEnd + (offsetInPage td.currentBufferPointer + j - 0x1000) := by
  have hlast := page_add_offset td.bufferEnd
  have hend := td.bufferEnd.isLt
  rw [byteAddress, if_neg (by omega), BitVec.toNat_add, BitVec.toNat_ofNat, toNat_pageMask]
  omega

theorem page_offset_of_toNat {a : Word} {p o : Nat} (h : a.toNat = 0x1000 * p + o) (ho : o < 0x1000) :
    page a = p ∧ offsetInPage a = o := by
  rw [page, offsetInPage, h]
  omega

theorem Spans.lt (h : Spans td length) : offsetInPage td.currentBufferPointer + length ≤ 0x2000 := by
  have hlast := offsetInPage_lt td.bufferEnd
  have hends := h.ends
  split at hends
  · omega
  · omega

/-- Within one page the buffer does not get to its end. -/
theorem Spans.pages_ne (h : Spans td length) {n : Nat} (hn : n < length)
    (hhigh : 0x1000 ≤ offsetInPage td.currentBufferPointer + n) :
    page td.currentBufferPointer ≠ page td.bufferEnd := by
  intro hp
  have hlast := offsetInPage_lt td.bufferEnd
  have hends := h.ends
  rw [if_pos hp] at hends
  omega

section Moved

variable {td' : TransferDescriptor} {n : Nat}

/-- With the pointer moved to byte `n`, what is left of the buffer ends where it did. -/
theorem Spans.moved (h : Spans td length) (hn : n < length)
    (hptr : td'.currentBufferPointer = byteAddress td n) (hend : td'.bufferEnd = td.bufferEnd) :
    Spans td' (length - n) := by
  have hlt := h.lt
  have hends := h.ends
  by_cases hhigh : 0x1000 ≤ offsetInPage td.currentBufferPointer + n
  · obtain ⟨hpage, hoff⟩ :=
      page_offset_of_toNat (toNat_byteAddress_high hhigh (by omega)) (by omega)
    rw [if_neg (h.pages_ne hn hhigh)] at hends
    refine ⟨by omega, ?_, ?_, ?_⟩
    · rw [hptr, hpage]
      exact h.last
    · rw [hend]
      exact h.last
    · rw [hptr, hend, hpage, hoff, if_pos rfl]
      omega
  · have hlow : offsetInPage td.currentBufferPointer + n < 0x1000 := by omega
    obtain ⟨hpage, hoff⟩ := page_offset_of_toNat (toNat_byteAddress_low hlow) hlow
    refine ⟨by omega, ?_, ?_, ?_⟩
    · rw [hptr, hpage]
      exact h.first
    · rw [hend]
      exact h.last
    · rw [hptr, hend, hpage, hoff]
      omega

/-- The bytes of what is left are the bytes of the buffer from `n` on. -/
theorem Spans.byteAddress_moved (h : Spans td length) {j : Nat} (hj : n + j < length)
    (hptr : td'.currentBufferPointer = byteAddress td n) (hend : td'.bufferEnd = td.bufferEnd) :
    byteAddress td' j = byteAddress td (n + j) := by
  have hlt := h.lt
  apply BitVec.eq_of_toNat_eq
  by_cases hhigh : 0x1000 ≤ offsetInPage td.currentBufferPointer + n
  · obtain ⟨hpage, hoff⟩ :=
      page_offset_of_toNat (toNat_byteAddress_high hhigh (by omega)) (by omega)
    rw [← hptr] at hpage hoff
    rw [toNat_byteAddress_low (by omega), toNat_byteAddress_high (by omega) (by omega), hpage, hoff]
    omega
  · have hlow : offsetInPage td.currentBufferPointer + n < 0x1000 := by omega
    obtain ⟨hpage, hoff⟩ := page_offset_of_toNat (toNat_byteAddress_low hlow) hlow
    rw [← hptr] at hpage hoff
    by_cases hcross : 0x1000 ≤ offsetInPage td.currentBufferPointer + (n + j)
    · rw [toNat_byteAddress_high hcross (by omega), toNat_byteAddress_high (by omega) (by omega), hend,
        hoff]
      omega
    · rw [toNat_byteAddress_low (by omega), toNat_byteAddress_low (by omega), hpage, hoff]
      omega

end Moved

/-- The pointer that the code computes after `n` bytes. -/
theorem advance_eq (td : TransferDescriptor) {n : Nat} (hn : n < 0x1000) :
    advance td (BitVec.ofNat 32 n) = byteAddress td n := by
  have hoff : (td.currentBufferPointer &&& 0xFFF).toNat = offsetInPage td.currentBufferPointer :=
    toNat_and_offsetMask td.currentBufferPointer
  have hoff_lt := offsetInPage_lt td.currentBufferPointer
  have hcond : (td.currentBufferPointer &&& 0xFFF) + BitVec.ofNat 32 n > 0xFFF ↔
      ¬ offsetInPage td.currentBufferPointer + n < 0x1000 := by
    rw [gt_iff_lt, BitVec.lt_def, BitVec.toNat_add, hoff, BitVec.toNat_ofNat,
      show (0xFFF : Word).toNat = 0xFFF from rfl]
    omega
  rw [advance, byteAddress]
  by_cases hlow : offsetInPage td.currentBufferPointer + n < 0x1000
  · rw [if_neg fun h => hcond.mp h hlow, if_pos hlow]
  · rw [if_pos (hcond.mpr hlow), if_neg hlow, show ~~~(0xFFF : Word) = OHCI_PAGE_MASK by decide]
    refine congrArg (fun low => (td.bufferEnd &&& OHCI_PAGE_MASK) + low) (BitVec.eq_of_toNat_eq ?_)
    have hmasked : ((td.currentBufferPointer + BitVec.ofNat 32 n) &&& 0xFFF).toNat =
        offsetInPage (td.currentBufferPointer + BitVec.ofNat 32 n) := toNat_and_offsetMask _
    have hfirst := page_add_offset td.currentBufferPointer
    rw [hmasked, offsetInPage, BitVec.toNat_add, BitVec.toNat_ofNat, BitVec.toNat_ofNat]
    omega

/-! ## Copies from host memory -/

theorem hostAddress_add {a : Word} {i : Nat} (h : offsetInPage a + i < 0x1000) :
    hostAddress (a + BitVec.ofNat 32 i) = hostAddress a + BitVec.ofNat 32 i := by
  have ha := page_add_offset a
  have hlt := a.isLt
  have hsize : a + BitVec.ofNat 32 i < XBOX_MEMORY_SIZE ↔ a < XBOX_MEMORY_SIZE := by
    rw [BitVec.lt_def, BitVec.lt_def, BitVec.toNat_add, BitVec.toNat_ofNat,
      show XBOX_MEMORY_SIZE.toNat = 0x4000000 from rfl]
    omega
  rw [hostAddress, hostAddress]
  by_cases hin : a < XBOX_MEMORY_SIZE
  · rw [if_pos hin, if_pos (hsize.mpr hin)]
    grind
  · rw [if_neg hin, if_neg fun hlt => hin (hsize.mp hlt)]

theorem findAndCopyTD_read {hc : Controller} {paddr : Word} (h0 : paddr ≠ 0) (pos n : Nat) :
    findAndCopyTD hc paddr pos n false =
      ({ hc with usbBuffer := fun j =>
          if pos ≤ j ∧ j < pos + n then hc.host (hostAddress paddr + BitVec.ofNat 32 (j - pos))
          else hc.usbBuffer j }, false) := by
  rw [findAndCopyTD, if_neg h0]
  rfl

/-- The first `n` bytes of a buffer, in one page or in two. -/
theorem copyPages_read {hc : Controller} {n : Nat} (h : Spans td length) (hn : n ≤ length) :
    copyPages hc td.currentBufferPointer td.bufferEnd n false =
      ({ hc with usbBuffer := fun j => if j < n then hostByte hc.host td j else hc.usbBuffer j }, false) := by
  have hlt := h.lt
  have hoff_lt := offsetInPage_lt td.currentBufferPointer
  have hmasked : (td.currentBufferPointer &&& 0xFFF).toNat = offsetInPage td.currentBufferPointer :=
    toNat_and_offsetMask td.currentBufferPointer
  have hlow (j : Nat) (hj : offsetInPage td.currentBufferPointer + j < 0x1000) :
      hc.host (hostAddress td.currentBufferPointer + BitVec.ofNat 32 j) = hostByte hc.host td j := by
    rw [hostByte, byteAddress, if_pos hj, hostAddress_add hj]
  rw [copyPages, hmasked, findAndCopyTD_read (ne_zero_of_page h.first)]
  dsimp only
  by_cases hcross : offsetInPage td.currentBufferPointer + n ≤ 0x1000
  · rw [if_pos (by omega)]
    congr 2
    funext j
    by_cases hj : j < n
    · rw [if_pos (by omega), if_pos hj]
      exact hlow j (by omega)
    · rw [if_neg (by omega), if_neg hj]
  · have hlast : td.bufferEnd &&& OHCI_PAGE_MASK ≠ 0 := by
      intro hzero
      have hpage := toNat_pageMask td.bufferEnd
      rw [hzero, show (0 : Word).toNat = 0 from rfl] at hpage
      exact h.last (by omega)
    have hlast_off : offsetInPage (td.bufferEnd &&& OHCI_PAGE_MASK) = 0 := by
      rw [offsetInPage, toNat_pageMask]
      omega
    rw [if_neg (by omega), show ~~~(0xFFF : Word) = OHCI_PAGE_MASK by decide, findAndCopyTD_read hlast]
    congr 2
    funext j
    dsimp only
    by_cases hj : j < n
    · by_cases hfirst : offsetInPage td.currentBufferPointer + j < 0x1000
      · rw [if_neg (by omega), if_pos (by omega), if_pos hj]
        exact hlow j hfirst
      · have hsecond : offsetInPage td.currentBufferPointer + j - 0x1000 < 0x1000 := by omega
        have hpos : j - min (0x1000 - offsetInPage td.currentBufferPointer) n =
            offsetInPage td.currentBufferPointer + j - 0x1000 := by omega
        rw [if_pos (by omega), if_pos hj, hostByte, byteAddress, if_neg hfirst, hpos,
          hostAddress_add (by omega)]
    · rw [if_neg (by omega), if_neg (by omega), if_neg hj]

end Addresses

/-! ## One call -/

section Call

variable {env : Nat → Answer} {s : Endpoint} {td : TransferDescriptor} {length : Nat}

theorem packetLength_out (ed : EndpointDescriptor) (hs : Spans td length) :
    packetLength ed td OHCI_TD_DIR_OUT = min (maxPacketSize ed) length := by
  have hpos := hs.pos
  rw [packetLength, bufferLength_of_ends hs, if_pos ⟨by omega, by decide⟩]

theorem fetchTD_out (hc : Controller) (ed : EndpointDescriptor) (hs : Spans td length) :
    fetchTD hc ed td OHCI_TD_DIR_OUT false =
      { hc.log (.copyTD (min (maxPacketSize ed) length)) with
        usbBuffer := fun j =>
          if j < min (maxPacketSize ed) length then hostByte hc.host td j else hc.usbBuffer j } := by
  have hpos := hs.pos
  have hcopies : bufferLength td ≠ 0 ∧ OHCI_TD_DIR_OUT ≠ OHCI_TD_DIR_IN ∧ (!false) = true := by
    rw [bufferLength_of_ends hs]
    exact ⟨by omega, by decide, rfl⟩
  rw [fetchTD, if_pos hcopies, packetLength_out ed hs, copyOrFatal, copyTD,
    copyPages_read hs (Nat.min_le_right _ _)]
  rfl

/-- The packet has the first bytes that are left, as many as fit. -/
theorem packet_eq (env : Nat → Answer) (h : Ready s td) (hs : Spans td length) :
    packet env s = slice (hostByte s.hc.host td) 0 (min (maxPacketSize s.ed) length) := by
  have hread : readTD s.hc.mem (headTD s.ed) (s.hc.answer env).stack = td :=
    (readTD_eq h.mapped _).trans h.read
  rw [packet, hread, submissionTD, h.out, Assertions.Submission.ioVec]
  dsimp only
  rw [fetchTD_out s.hc s.ed hs, packetLength_out s.ed hs]
  refine List.map_congr_left fun j hj => ?_
  rw [List.mem_range] at hj
  rw [Nat.zero_add]
  exact if_pos hj

theorem submits_packet (env : Nat → Answer) (h : Ready s td) :
    Submits s.hc (s.hc.answer env).stack s.ed false := by
  have hread : readTD s.hc.mem (headTD s.ed) (s.hc.answer env).stack = td :=
    (readTD_eq h.mapped _).trans h.read
  have hother : headTD s.ed ≠ s.hc.asyncTD := fun heq => h.nonnull (heq.trans h.free)
  have hout : direction s.ed td ≠ OHCI_TD_DIR_RESERVED := by
    rw [h.out]
    decide
  have hstack : (Assertions.unanswered (s.hc.answer env).stack 0).stack = (s.hc.answer env).stack := rfl
  rw [Submits, AsyncPacket.course, if_pos h.general, AsyncPacket.courseTD, hstack]
  rw [if_neg fun heq => hother heq.1, if_neg h.nonnull, hread, if_neg hout, if_neg hother,
    if_neg (not_not.mpr h.free), AsyncPacket.submitted,
    if_neg (Assertions.unanswered_ne_async (s.hc.answer env).stack 0)]

/-- A packet that the device takes is settled with its whole length. -/
theorem serviceTD_out (h : Ready s td) (htakes : Takes (s.hc.answer env).packet) :
    serviceTD env s.hc s.ed =
      settleTD (submit (fetchTD s.hc.called s.ed td OHCI_TD_DIR_OUT false) (s.hc.answer env)
          (packetLength s.ed td OHCI_TD_DIR_OUT)) s.ed td (headTD s.ed) OHCI_TD_DIR_OUT
        (BitVec.ofNat 32 (packetLength s.ed td OHCI_TD_DIR_OUT)) := by
  have hread : readTD s.hc.mem (s.ed.headP &&& OHCI_DPTR_MASK) (s.hc.answer env).stack = td :=
    (readTD_eq h.mapped _).trans h.read
  have hother : s.ed.headP &&& OHCI_DPTR_MASK ≠ s.hc.asyncTD :=
    fun heq => h.nonnull (heq.trans h.free)
  have hidle : (fetchTD s.hc.called s.ed td OHCI_TD_DIR_OUT false).asyncTD = 0 :=
    (fetchTD_served s.hc.called s.ed td OHCI_TD_DIR_OUT false).2.1.trans h.free
  have hwait : (s.hc.answer env).packet.status ≠ USB_RET_ASYNC := by
    rw [htakes.1]
    decide
  have hret : (s.hc.answer env).packet.ret = (s.hc.answer env).packet.actualLength := if_pos htakes.1
  have hnonneg : nonneg (s.hc.answer env).packet.ret = true := hret ▸ htakes.2
  have hnull : s.ed.headP &&& OHCI_DPTR_MASK ≠ 0 := h.nonnull
  rw [serviceTD, decide_eq_false hother, Bool.false_and]
  simp only [Bool.false_eq_true, if_false, if_neg hnull, hread, transferTD, h.out]
  rw [if_neg (by decide), if_neg (not_not.mpr hidle), if_neg (by exact hwait), finishTD, returnData,
    if_neg fun hin => absurd hin.2 (by decide), transferred]
  exact congrArg _ (if_pos ⟨hnonneg, by decide⟩)

/-- What a call leaves when more of the buffer is left. -/
structure Partly (s s' : Endpoint) (td : TransferDescriptor) : Prop where
  ed : s'.ed = s.ed
  mem : s'.hc.mem = writeTD s.hc.mem (headTD s.ed) (partlySent s.ed td)
  host : s'.hc.host = s.hc.host
  doneHead : s'.hc.hcDoneHead = s.hc.hcDoneHead
  free : s'.hc.asyncTD = 0

theorem call_partly (h : Ready s td) (hs : Spans td length) (htakes : Takes (s.hc.answer env).packet)
    (hmore : maxPacketSize s.ed < length) : Partly s (call env s) td := by
  have hlen : maxPacketSize s.ed < bufferLength td := by
    rw [bufferLength_of_ends hs]
    exact hmore
  rw [call, serviceTD_out h htakes, settleTD_partly _ _ (by decide) hlen, fetchTD_out _ _ hs]
  exact ⟨rfl, rfl, rfl, rfl, h.free⟩

/-- The last packet retires the descriptor. -/
theorem settleTD_last (hc : Controller) (ed : EndpointDescriptor) (addr : Word) (hs : Spans td length)
    (hall : length ≤ maxPacketSize ed) :
    settleTD hc ed td addr OHCI_TD_DIR_OUT (BitVec.ofNat 32 (packetLength ed td OHCI_TD_DIR_OUT)) =
      retireTD hc (toggleCarry ed (transmittedFlags td.flags))
        { td with currentBufferPointer := 0, flags := transmittedFlags td.flags } addr := by
  have hlt := maxPacketSize_lt ed
  have hret : (BitVec.ofNat 32 length).toNat = length := by
    rw [BitVec.toNat_ofNat, Nat.mod_eq_of_lt (by omega)]
  have hnonneg : nonneg (BitVec.ofNat 32 length) = true := by
    rw [nonneg, BitVec.msb_eq_decide, hret]
    simp
    omega
  have hsent : transmitted ed td OHCI_TD_DIR_OUT (BitVec.ofNat 32 length) = true := by
    rw [transmitted, packetLength_out ed hs, hret, Nat.min_eq_right hall, decide_eq_true rfl, Bool.true_or]
  rw [packetLength_out ed hs, Nat.min_eq_right hall, settleTD, if_pos hsent, moved, if_pos hnonneg,
    bufferLength_of_ends hs, transmittedTD]
  dsimp only
  rw [if_neg fun hp => hp.2 hret, if_pos hret]

/-- What the call leaves that sends the last packet. -/
structure Retired (s s' : Endpoint) (td : TransferDescriptor) : Prop where
  head : headTD s'.ed = td.nextTD &&& OHCI_DPTR_MASK
  mem : s'.hc.mem = writeTD s.hc.mem (headTD s.ed)
    ⟨transmittedFlags td.flags, 0, s.hc.hcDoneHead, td.bufferEnd⟩
  doneHead : s'.hc.hcDoneHead = headTD s.ed

theorem call_last (h : Ready s td) (hs : Spans td length) (htakes : Takes (s.hc.answer env).packet)
    (hall : length ≤ maxPacketSize s.ed) : Retired s (call env s) td := by
  rw [call, serviceTD_out h htakes, settleTD_last _ _ _ hs hall, fetchTD_out _ _ hs, retireTD]
  dsimp only
  rw [transmittedFlags_code, if_neg (not_not.mpr rfl)]
  exact ⟨nextHead_pointer _ _, rfl, rfl⟩

theorem toggle_transmitted {td' : TransferDescriptor} (h : td'.flags = transmittedFlags td.flags) :
    toggle td' = !toggle td := by
  have hbit (flags : Word) : decide (flags &&& OHCI_TD_T0 ≠ 0) = flags.getLsbD 24 := by
    rw [show OHCI_TD_T0 = BitVec.twoPow 32 24 by decide, BitVec.and_twoPow]
    cases flags.getLsbD 24 with
    | false => decide
    | true => decide
  have hflags : transmittedFlags td.flags &&& OHCI_TD_T0 =
      ((td.flags ||| OHCI_TD_T1) ^^^ OHCI_TD_T0) &&& OHCI_TD_T0 := by
    rw [transmittedFlags, setBm_and _ _ _ _ _ (by decide), setBm_and _ _ _ _ _ (by decide)]
  rw [toggle, toggle, h, hflags, hbit, hbit]
  simp [OHCI_TD_T0, OHCI_TD_T1]

end Call

/-! ## A whole transfer -/

section Transfer

variable {env : Nat → Answer} {s s' : Endpoint} {td td' : TransferDescriptor} {length : Nat}

/-- `n` bytes of the buffer of `td` have been sent, and the descriptor in memory is `td'`. -/
structure Progressed (s s' : Endpoint) (td td' : TransferDescriptor) (length n : Nat) : Prop where
  ready : Ready s' td'
  spans : Spans td' (length - n)
  ed : s'.ed = s.ed
  host : s'.hc.host = s.hc.host
  doneHead : s'.hc.hcDoneHead = s.hc.hcDoneHead
  pointer : td'.currentBufferPointer = byteAddress td n
  bufferEnd : td'.bufferEnd = td.bufferEnd
  nextTD : td'.nextTD = td.nextTD

theorem byteAddress_zero (td : TransferDescriptor) : byteAddress td 0 = td.currentBufferPointer := by
  rw [byteAddress, if_pos (show offsetInPage td.currentBufferPointer + 0 < 0x1000 from offsetInPage_lt _)]
  exact BitVec.add_zero _

theorem Ready.partly (h : Ready s td) (hp : Partly s s' td) : Ready s' (partlySent s.ed td) := by
  have hmapped : Memory.mapped s'.hc.mem (headTD s'.ed) 16 = true := by
    rw [hp.ed, hp.mem, writeTD, h.keeps.mapped_eq (by decide) le_rfl]
    exact h.mapped
  have hkeeps : Keeps s'.hc.mem (headTD s'.ed) 16 := by
    rw [hp.ed, hp.mem]
    exact h.keeps.store (by decide) _
  have hread : tdAt s'.hc.mem (headTD s'.ed) = partlySent s.ed td := by
    rw [hp.ed, hp.mem]
    exact tdAt_writeTD h.keeps h.mapped _
  refine ⟨?_, hmapped, hkeeps, hread, ?_, ?_, hp.free, ?_⟩
  · rw [hp.ed]
    exact h.nonnull
  · rw [hp.ed]
    exact h.general
  · rw [hp.ed, direction_partlySent]
    exact h.out
  · rw [hp.ed]
    exact h.size

/-- One more packet that is not the last. -/
theorem Progressed.next {n : Nat} (hs : Spans td length) (h : Progressed s s' td td' length n)
    (htakes : Takes (s'.hc.answer env).packet) (hmore : n + maxPacketSize s.ed < length) :
    Progressed s (call env s') td (partlySent s.ed td') length (n + maxPacketSize s.ed) := by
  have hsize : maxPacketSize s'.ed < length - n := by
    rw [h.ed]
    omega
  have hmps := maxPacketSize_lt s'.ed
  have hp := call_partly h.ready h.spans htakes hsize
  have hmoved : (partlySent s'.ed td').currentBufferPointer = byteAddress td' (maxPacketSize s'.ed) :=
    advance_eq td' (by omega)
  have hspans := h.spans.moved hsize hmoved rfl
  have hready := h.ready.partly hp
  rw [h.ed] at hspans hmoved hready
  rw [Nat.sub_sub] at hspans
  refine ⟨hready, hspans, hp.ed.trans h.ed, hp.host.trans h.host, hp.doneHead.trans h.doneHead, ?_,
    h.bufferEnd, h.nextTD⟩
  rw [← hs.byteAddress_moved hmore h.pointer h.bufferEnd]
  exact hmoved

theorem Progressed.read {n : Nat} (h : Progressed s s' td td' length n) :
    tdAt s'.hc.mem (headTD s.ed) = td' := by
  rw [← h.ed]
  exact h.ready.read

theorem progressed (h : Ready s td) (hs : Spans td length) (htakes : ∀ n, Takes (env n).packet) {k : Nat}
    (hk : k * maxPacketSize s.ed < length) :
    Progressed s (after env s k) td ((partlySent s.ed)^[k] td) length (k * maxPacketSize s.ed) := by
  induction k with
  | zero =>
    rw [Nat.zero_mul]
    exact ⟨h, hs, rfl, rfl, rfl, (byteAddress_zero td).symm, rfl, rfl⟩
  | succ k ih =>
    rw [Nat.succ_mul] at hk ⊢
    have hprev := ih (by omega)
    rw [after, Function.iterate_succ_apply', Function.iterate_succ_apply']
    exact hprev.next hs (htakes _) hk

theorem packet_after (h : Ready s td) (hs : Spans td length) (htakes : ∀ n, Takes (env n).packet) {k : Nat}
    (hk : k * maxPacketSize s.ed < length) :
    packet env (after env s k) = slice (hostByte s.hc.host td) (k * maxPacketSize s.ed)
      (min (maxPacketSize s.ed) (length - k * maxPacketSize s.ed)) := by
  have hp := progressed h hs htakes hk
  rw [packet_eq env hp.ready hp.spans, hp.ed, hp.host]
  refine List.map_congr_left fun j hj => ?_
  rw [List.mem_range] at hj
  rw [Nat.zero_add, hostByte, hostByte, hs.byteAddress_moved (by omega) hp.pointer hp.bufferEnd]

/-- The packets of the first `k` calls, all of the endpoint's size. -/
theorem flatten_packets (h : Ready s td) (hs : Spans td length) (htakes : ∀ n, Takes (env n).packet)
    {k : Nat} (hk : k * maxPacketSize s.ed ≤ length) :
    ((List.range k).map fun i => packet env (after env s i)).flatten =
      slice (hostByte s.hc.host td) 0 (k * maxPacketSize s.ed) := by
  rw [← flatten_slices]
  congr 1
  refine List.map_congr_left fun i hi => ?_
  have hi' : i < k := List.mem_range.mp hi
  have hle : (i + 1) * maxPacketSize s.ed ≤ length := (Nat.mul_le_mul_right _ hi').trans hk
  have hpos := h.size
  rw [Nat.succ_mul] at hle
  rw [packet_after h hs htakes (by omega), Nat.zero_add, Nat.min_eq_left (by omega)]

/-- Before the last packet less than the buffer has been sent, and with it all of it. -/
theorem packetCount_spec {size : Nat} (hlength : 1 ≤ length) (hsize : 1 ≤ size) :
    ∃ n, packetCount length size = n + 1 ∧ n * size < length ∧ length ≤ (n + 1) * size := by
  have hdiv := Nat.div_add_mod (length - 1) size
  have hmod := Nat.mod_lt (length - 1) (show 0 < size from hsize)
  refine ⟨(length - 1) / size, rfl, ?_, ?_⟩
  · rw [Nat.mul_comm]
    omega
  · rw [Nat.succ_mul, Nat.mul_comm]
    omega

theorem OutTD.spans (h : OutTD s td) : Spans td (bufferLength td) := by
  have hends := ends_of_bufferLength h.nonempty h.bounded
  have hlast := offsetInPage_lt td.bufferEnd
  have hfirst := offsetInPage_lt td.currentBufferPointer
  refine ⟨h.nonempty, ?_, ?_, hends⟩
  · have hbyte := h.noPage0 0 h.nonempty
    rwa [byteAddress_zero] at hbyte
  · -- the last byte is in the page of BufferEnd
    have hbyte := h.noPage0 (bufferLength td - 1) (Nat.sub_lt h.nonempty Nat.one_pos)
    have hone := h.nonempty
    by_cases hp : page td.currentBufferPointer = page td.bufferEnd
    · have hbyte := h.noPage0 0 h.nonempty
      rwa [byteAddress_zero, hp] at hbyte
    · rw [if_neg hp] at hends
      rwa [(page_offset_of_toNat (toNat_byteAddress_high (by omega) (by omega)) (by omega)).1] at hbyte

/-- Services of an OUT descriptor send as many bytes as its buffer has, in packets of the endpoint's
size but for the last one; the descriptor tells at each point what is left, and retires with the last
packet. What they send is what the host has at the addresses of the buffer. -/
theorem out_transfer_paces (h : OutTD s td) (htakes : ∀ n, Takes (env n).packet) :
    Paces env s td (packetCount (bufferLength td) (maxPacketSize s.ed)) ∧
      sentBytes env s (packetCount (bufferLength td) (maxPacketSize s.ed)) =
        slice (hostByte s.hc.host td) 0 (bufferLength td) := by
  have hready := h.toReady
  have hs := h.spans
  obtain ⟨n, hcount, hlt, hle⟩ := packetCount_spec h.nonempty h.size
  rw [hcount]
  have hsmall {k : Nat} (hk : k < n + 1) : k * maxPacketSize s.ed < bufferLength td :=
    (Nat.mul_le_mul_right _ (Nat.le_of_lt_succ hk)).trans_lt hlt
  have hlast := progressed hready hs htakes hlt
  have hend : bufferLength td - n * maxPacketSize s.ed ≤ maxPacketSize s.ed := by
    rw [Nat.succ_mul] at hle
    omega
  have hretired : Retired (after env s n) (after env s (n + 1)) ((partlySent s.ed)^[n] td) := by
    rw [after, after, Function.iterate_succ_apply']
    exact call_last hlast.ready hlast.spans (htakes _) (hlast.ed.symm ▸ hend)
  have hread := tdAt_writeTD hlast.ready.keeps hlast.ready.mapped
    ⟨transmittedFlags ((partlySent s.ed)^[n] td).flags, 0, (after env s n).hc.hcDoneHead,
      ((partlySent s.ed)^[n] td).bufferEnd⟩
  rw [← hretired.mem, hlast.ed] at hread
  refine ⟨⟨fun k hk => ?_, fun k hk => ?_, fun k hk => ?_, ?_, fun k hk => ?_, fun k hk => ?_, ?_⟩, ?_⟩
  · exact submits_packet env (progressed hready hs htakes (hsmall hk)).ready
  · have hnext := hsmall hk
    rw [Nat.succ_mul] at hnext
    rw [packet_after hready hs htakes (hsmall (Nat.lt_of_succ_lt hk)), length_slice]
    omega
  · have hp := progressed hready hs htakes (hsmall hk)
    rw [flatten_packets hready hs htakes (hsmall hk).le, length_slice, hp.read, hp.pointer]
  · rw [hread]
  · rw [(progressed hready hs htakes (hsmall hk)).read]
    by_cases hn : k = n
    · rw [hn, hread]
      exact toggle_transmitted rfl
    · rw [(progressed hready hs htakes (hsmall (show k + 1 < n + 1 by omega))).read,
        Function.iterate_succ_apply']
      exact toggle_transmitted rfl
  · have hp := progressed hready hs htakes (hsmall hk)
    refine ⟨hp.ed, hp.doneHead, ?_⟩
    rw [hp.read, hp.nextTD]
  · refine ⟨hretired.doneHead.trans (by rw [hlast.ed]), ?_, ?_⟩
    · rw [hread]
      exact hlast.doneHead
    · rw [hretired.head, hlast.nextTD]
  · rw [sentBytes, List.range_succ, List.map_append, List.flatten_append,
      flatten_packets hready hs htakes hlt.le, List.map_singleton, List.flatten_singleton,
      packet_after hready hs htakes hlt, Nat.min_eq_right hend]
    have hall : n * maxPacketSize s.ed + (bufferLength td - n * maxPacketSize s.ed) = bufferLength td := by
      omega
    rw [← hall, slice_add, hall, Nat.zero_add]

theorem map_some_eq_guestBytes_iff {hc : Controller} :
    (slice (hostByte hc.host td) 0 (bufferLength td)).map some = guestBytes hc.mem td ↔
      ∀ j, j < bufferLength td → Reflects hc td j := by
  rw [slice, guestBytes, List.map_map, List.map_inj_left]
  refine forall_congr' fun j => ?_
  rw [List.mem_range, Function.comp, Nat.zero_add]
  exact imp_congr_right fun _ => eq_comm

/-- The buffer is sent as it should be exactly when the host has its bytes where the controller
looks for them. -/
theorem out_transfer_splits_iff (h : OutTD s td) (htakes : ∀ n, Takes (env n).packet) :
    Splits env s td (packetCount (bufferLength td) (maxPacketSize s.ed)) ↔
      ∀ j, j < bufferLength td → Reflects s.hc td j := by
  obtain ⟨hpaces, hsent⟩ := out_transfer_paces h htakes
  rw [← map_some_eq_guestBytes_iff, ← hsent]
  exact ⟨fun hs => hs.data, fun hdata => ⟨hpaces, hdata⟩⟩

end Transfer

/-- A buffer of four bytes at the end of a page and eight at the start of another one, for an endpoint
that takes eight bytes at a time. -/
def twoPageTD : TransferDescriptor := ⟨0x80000, 0x1FFC, 0x120, 0x3007⟩

/-- RAM with the descriptor at 0x100, and from 0x1000 on the low byte of each address. -/
def numberedMemory : GuestMemory :=
  { memoryOver [] with
    host := fun x =>
      if x < 0x1000 then (memoryOver [0x80000, 0x1FFC, 0x120, 0x3007]).host x else BitVec.ofNat 8 x }

/-- The transfer, with something in host memory. -/
def twoPageTransfer (host : Word → Byte) : Endpoint :=
  ⟨{ controllerOver [] with mem := numberedMemory, host := host }, ⟨0x80000, 0x120, 0x100, 0⟩⟩

theorem twoPageTransfer_out (host : Word → Byte) : OutTD (twoPageTransfer host) twoPageTD := by
  have hed : (twoPageTransfer host).ed = ⟨0x80000, 0x120, 0x100, 0⟩ := rfl
  have hhead : headTD ⟨0x80000, 0x120, 0x100, 0⟩ = 0x100 := by decide
  have hmem : (twoPageTransfer host).hc.mem = numberedMemory := rfl
  have hmapped : mapped numberedMemory 0x100 16 = true := by decide
  have hkeeps : Keeps numberedMemory 0x100 16 := by decide
  have hread : tdAt numberedMemory 0x100 = twoPageTD := by rfl
  have hready : Ready (twoPageTransfer host) twoPageTD := by
    refine ⟨?_, ?_, ?_, ?_, ?_, ?_, rfl, ?_⟩
    · rw [hed]; decide
    · rwa [hed, hhead, hmem]
    · rwa [hed, hhead, hmem]
    · rwa [hed, hhead, hmem]
    all_goals rw [hed]; decide
  refine ⟨hready, by decide, by decide, fun j hj => ?_⟩
  have hj' : j < 12 := hj
  interval_cases j
  all_goals decide

theorem takes_eightBytes (n : Nat) : Takes (eightBytes n).packet := ⟨rfl, show nonneg 8 = true by decide⟩

/-- The host happens to have the same bytes 2 GiB further up. -/
theorem two_page_transfer_splits :
    Splits eightBytes (twoPageTransfer fun a => a.setWidth 8) twoPageTD 2 := by
  refine (out_transfer_splits_iff (twoPageTransfer_out _) takes_eightBytes).mpr fun j hj => ?_
  have hj' : j < 12 := hj
  interval_cases j
  all_goals rfl

/-- There are zeros where the controller looks, and that is what it sends. -/
theorem other_bytes_sent : ¬ Splits eightBytes (twoPageTransfer fun _ => 0) twoPageTD 2 := by
  intro h
  have hsent := (out_transfer_paces (twoPageTransfer_out fun _ => 0) takes_eightBytes).2
  have hdata : (sentBytes eightBytes (twoPageTransfer fun _ => 0) 2).map some =
      guestBytes numberedMemory twoPageTD := h.data
  rw [show sentBytes eightBytes (twoPageTransfer fun _ => 0) 2 = _ from hsent] at hdata
  have hreflects : Reflects (twoPageTransfer fun _ => 0).hc twoPageTD 0 :=
    map_some_eq_guestBytes_iff.mp hdata 0 (by decide)
  exact absurd hreflects (by unfold Reflects; decide)

end OpenXbox.Ohci.OutTransfer
