import OpenXbox.Ohci.Service

/-!
# Lengths of transfers

The lengths that the service functions hand on are those that the descriptor
denotes: the bytes from its first to its last address, which lie in one page or in
two. An endpoint sends at most its maximum packet size at a time, and data goes back
to memory in the amount that the device has delivered.
-/

namespace OpenXbox.Ohci.TransferBounds

open OpenXbox.Lib.Bits OpenXbox.Ohci.Memory OpenXbox.Ohci.Service

/-- `sizeof(m_UsbBuffer)`. -/
def usbBufferSize : Nat := 8192

def page (a : Word) : Nat := a.toNat / 0x1000

def offsetInPage (a : Word) : Nat := a.toNat % 0x1000

/-- The bytes from `first` to `last`; from another page on, those of the page of `last`
follow those of the page of `first`. -/
def spanBytes (first last : Word) : Nat :=
  if page first = page last then last.toNat + 1 - first.toNat
  else (0x1000 - offsetInPage first) + (offsetInPage last + 1)

/-- Within a page the last byte is not before the byte that precedes the first one. -/
def InOrder (first last : Word) : Prop := page first = page last → first.toNat ≤ last.toNat + 1

/-- The bytes of a general descriptor; none when one of its pointers is zero. -/
def denotedBytes (td : TransferDescriptor) : Nat :=
  if td.currentBufferPointer ≠ 0 ∧ td.bufferEnd ≠ 0 then
    spanBytes td.currentBufferPointer td.bufferEnd
  else 0

/-- The bytes of packet `r` of an isochronous descriptor. -/
def packetBytes (td : IsoDescriptor) (r : Nat) : Nat :=
  if r < frameCount td then (td.offset (r + 1)).toNat - (td.offset r).toNat
  else spanBytes (isoStart td r) td.bufferEnd

/-- The offsets around packet `r` have the same upper three bits, the packet is not an
empty one at a page boundary, and where it crosses bit 12 there are two pages. The last
packet ends at or after its start. -/
def PacketInOrder (td : IsoDescriptor) (r : Nat) : Prop :=
  if r < frameCount td then
    let first := (td.offset r).toNat
    let next := (td.offset (r + 1)).toNat
    first / 0x2000 = next / 0x2000 ∧ ¬ (first = next ∧ first % 0x1000 = 0) ∧
      (first / 0x1000 ≠ (next - 1) / 0x1000 → page td.bufferPage0 ≠ page td.bufferEnd)
  else InOrder (isoStart td r) td.bufferEnd

/-! ## Lengths -/

theorem spanBytes_le (first last : Word) : spanBytes first last ≤ usbBufferSize := by
  have hlast := Nat.mod_lt last.toNat (show 0 < 0x1000 by decide)
  have hfirst := Nat.div_add_mod first.toNat 0x1000
  have hdiv := Nat.div_add_mod last.toNat 0x1000
  rw [spanBytes, usbBufferSize]
  split
  · next hp =>
    rw [page, page] at hp
    rw [hp] at hfirst
    omega
  · rw [offsetInPage, offsetInPage]
    omega

theorem pageMask_ne_iff (a b : Word) :
    a &&& OHCI_PAGE_MASK ≠ b &&& OHCI_PAGE_MASK ↔ page a ≠ page b := by
  rw [show OHCI_PAGE_MASK = ~~~lowMask 12 by decide]
  exact not_congr (and_not_lowMask_eq_iff a b 12)

theorem toNat_and_offsetMask (a : Word) : (a &&& OHCI_OFFSET_MASK).toNat = offsetInPage a := by
  rw [show OHCI_OFFSET_MASK = lowMask 12 by decide]
  exact toNat_and_lowMask a (by decide)

/-- The two formulas of the code agree with the bytes denoted, for ends in order. -/
theorem isoLength_eq {first last : Word} (h : InOrder first last) :
    isoLength first last = spanBytes first last := by
  have hf := first.isLt
  have hl := last.isLt
  rw [isoLength, spanBytes]
  by_cases hp : page first = page last
  · rw [if_neg fun hne => (pageMask_ne_iff first last).mp hne hp, if_pos hp]
    have hle := h hp
    rw [page, page] at hp
    rw [BitVec.toNat_add, BitVec.toNat_sub, show (1 : Word).toNat = 1 from rfl]
    omega
  · have hoff := toNat_and_offsetMask first
    have hoff' := toNat_and_offsetMask last
    have hlt : offsetInPage first < 0x1000 := Nat.mod_lt _ (by decide)
    have hlt' : offsetInPage last < 0x1000 := Nat.mod_lt _ (by decide)
    rw [if_pos ((pageMask_ne_iff first last).mpr hp), if_neg hp, BitVec.toNat_sub,
      BitVec.toNat_add, hoff, hoff', show (0x1001 : Word).toNat = 0x1001 from rfl]
    omega

theorem bufferLength_eq {td : TransferDescriptor}
    (h : InOrder td.currentBufferPointer td.bufferEnd) : bufferLength td = denotedBytes td := by
  rw [bufferLength, denotedBytes]
  split
  · exact isoLength_eq h
  · rfl

theorem denotedBytes_le (td : TransferDescriptor) : denotedBytes td ≤ usbBufferSize := by
  rw [denotedBytes]
  split
  · exact spanBytes_le _ _
  · exact Nat.zero_le _

/-! ### Isochronous packets -/

theorem bit12_clear_iff (o : Word) : o &&& 0x1000 = 0 ↔ o.toNat / 0x1000 % 2 = 0 := by
  rw [show (0x1000 : Word) = BitVec.twoPow 32 12 by decide, BitVec.and_twoPow,
    BitVec.getLsbD, Nat.testBit_eq_decide_div_mod_eq]
  by_cases h : o.toNat / 2 ^ 12 % 2 = 1
  · rw [if_pos (decide_eq_true h)]
    exact iff_of_false (by decide) (by omega)
  · rw [if_neg (by rw [decide_eq_false h]; decide)]
    exact iff_of_true rfl (by omega)

theorem toNat_isoAddress (td : IsoDescriptor) (o : Word) :
    (isoAddress td o).toNat =
      page (if o.toNat / 0x1000 % 2 = 0 then td.bufferPage0 else td.bufferEnd) * 0x1000 +
        offsetInPage o := by
  have hor (p : Word) : ((p &&& OHCI_PAGE_MASK) ||| (o &&& OHCI_OFFSET_MASK)).toNat =
      page p * 0x1000 + offsetInPage o := by
    rw [show OHCI_PAGE_MASK = ~~~lowMask 12 by decide, show OHCI_OFFSET_MASK = lowMask 12 by decide]
    exact toNat_or_lowMask p o (by decide)
  rw [isoAddress]
  by_cases h : o.toNat / 0x1000 % 2 = 0
  · rw [if_pos ((bit12_clear_iff o).mpr h), if_pos h, hor]
  · rw [if_neg (mt (bit12_clear_iff o).mp h), if_neg h, hor]

theorem page_isoAddress (td : IsoDescriptor) (o : Word) :
    page (isoAddress td o) =
      page (if o.toNat / 0x1000 % 2 = 0 then td.bufferPage0 else td.bufferEnd) := by
  have h := toNat_isoAddress td o
  have hlt : offsetInPage o < 0x1000 := Nat.mod_lt _ (by decide)
  rw [page, h]
  omega

theorem offsetInPage_isoAddress (td : IsoDescriptor) (o : Word) :
    offsetInPage (isoAddress td o) = offsetInPage o := by
  have h := toNat_isoAddress td o
  have hlt : offsetInPage o < 0x1000 := Nat.mod_lt _ (by decide)
  rw [offsetInPage, h]
  omega

/-- Two offsets of one buffer that are not in one half of it are in the first and the second. -/
theorem halves_of_ne {a b : Nat} (hle : a ≤ b) (hsame : a / 0x2000 = b / 0x2000)
    (hne : a / 0x1000 ≠ b / 0x1000) :
    a / 0x1000 % 2 = 0 ∧ ¬ b / 0x1000 % 2 = 0 ∧ b / 0x1000 = a / 0x1000 + 1 := by
  have hlt : a / 0x1000 < b / 0x1000 := lt_of_le_of_ne (Nat.div_le_div_right hle) hne
  omega

/-- Between two offsets in order, the addresses are in order and as far apart. -/
theorem spanBytes_isoAddress (td : IsoDescriptor) (first next : Word)
    (hle : first.toNat ≤ next.toNat) (hsame : first.toNat / 0x2000 = next.toNat / 0x2000)
    (hempty : ¬ (first.toNat = next.toNat ∧ first.toNat % 0x1000 = 0))
    (hpages : first.toNat / 0x1000 ≠ (next.toNat - 1) / 0x1000 →
      page td.bufferPage0 ≠ page td.bufferEnd) :
    InOrder (isoAddress td first) (isoAddress td (next - 1)) ∧
      spanBytes (isoAddress td first) (isoAddress td (next - 1)) = next.toNat - first.toNat := by
  have hpos : 0 < next.toNat := by
    by_contra h0
    exact hempty ⟨by omega, by omega⟩
  have hprev : (next - 1).toNat = next.toNat - 1 := by
    have hle1 : (1 : Word) ≤ next := by
      rw [BitVec.le_def]
      exact hpos
    exact BitVec.toNat_sub_of_le hle1
  have hpf := page_isoAddress td first
  have hpn := page_isoAddress td (next - 1)
  rw [hprev] at hpn
  by_cases hc : first.toNat / 0x1000 = (next.toNat - 1) / 0x1000
  · -- both ends in one half of the buffer, so in one page
    have hof := toNat_isoAddress td first
    have hon := toNat_isoAddress td (next - 1)
    rw [offsetInPage] at hof
    rw [offsetInPage, hprev] at hon
    rw [← hc] at hpn hon
    have hp : page (isoAddress td first) = page (isoAddress td (next - 1)) := hpf.trans hpn.symm
    refine ⟨fun _ => by omega, ?_⟩
    rw [spanBytes, if_pos hp]
    omega
  · have hlast : first.toNat ≤ next.toNat - 1 := by
      by_contra hlt
      exact hempty ⟨by omega, by omega⟩
    obtain ⟨hlow, hhigh, hnext⟩ := halves_of_ne hlast (by omega) hc
    rw [if_pos hlow] at hpf
    rw [if_neg hhigh] at hpn
    have hp : page (isoAddress td first) ≠ page (isoAddress td (next - 1)) := by
      rw [hpf, hpn]
      exact hpages hc
    refine ⟨fun he => absurd he hp, ?_⟩
    rw [spanBytes, if_neg hp, offsetInPage_isoAddress td first, offsetInPage_isoAddress, offsetInPage,
      offsetInPage, hprev]
    clear hpf hpn hempty hpages hsame
    omega

theorem toNat_setWidth_offset (o : BitVec 16) : (o.setWidth 32).toNat = o.toNat := by
  rw [BitVec.toNat_setWidth]
  exact Nat.mod_eq_of_lt (o.isLt.trans (by decide))

/-- The length computed for a packet whose offsets are accepted. -/
theorem isoLength_packet {td : IsoDescriptor} {r : Nat} (h : PacketInOrder td r)
    (ha : offsetsRejected td r = false) :
    isoLength (isoStart td r) (isoEnd td r) = packetBytes td r ∧
      packetBytes td r ≤ usbBufferSize := by
  rw [PacketInOrder] at h
  rw [isoEnd, packetBytes]
  by_cases hr : r < frameCount td
  · rw [if_pos hr] at h
    obtain ⟨hsame, hempty, hpages⟩ := h
    have hle : (td.offset r).toNat ≤ (td.offset (r + 1)).toNat := by
      by_contra hgt
      have hlt : td.offset r > td.offset (r + 1) := BitVec.lt_def.mpr (by omega)
      rw [offsetsRejected, decide_eq_true hr, decide_eq_true hlt] at ha
      simp at ha
    have hf := toNat_setWidth_offset (td.offset r)
    have hn := toNat_setWidth_offset (td.offset (r + 1))
    obtain ⟨hord, hspan⟩ := spanBytes_isoAddress td ((td.offset r).setWidth 32)
      ((td.offset (r + 1)).setWidth 32) (by rw [hf, hn]; exact hle)
      (by rw [hf, hn]; exact hsame) (by rw [hf, hn]; exact hempty) (by rw [hf, hn]; exact hpages)
    rw [if_pos hr, if_pos hr, isoStart, isoLength_eq hord, hspan, hf, hn, usbBufferSize]
    omega
  · rw [if_neg hr] at h
    rw [if_neg hr, if_neg hr]
    exact ⟨isoLength_eq h, spanBytes_le _ _⟩

/-! ## Events -/

/-- The events added from one state to another satisfy `P`. -/
def Emits (P : Event → Prop) (hc hc' : Controller) : Prop :=
  ∃ es, hc'.events = hc.events ++ es ∧ ∀ e ∈ es, P e

variable {P : Event → Prop} {hc hc' hc'' : Controller}

theorem Emits.none (h : hc'.events = hc.events) : Emits P hc hc' :=
  ⟨[], by rw [h, List.append_nil], nofun⟩

theorem Emits.one {e : Event} (h : hc'.events = hc.events ++ [e]) (he : P e) : Emits P hc hc' :=
  ⟨[e], h, by rw [List.forall_mem_singleton]; exact he⟩

theorem Emits.trans (h : Emits P hc hc') (h' : Emits P hc' hc'') : Emits P hc hc'' := by
  obtain ⟨es, hes, hp⟩ := h
  obtain ⟨es', hes', hp'⟩ := h'
  refine ⟨es ++ es', by rw [hes', hes, List.append_assoc], fun e he => ?_⟩
  obtain hm | hm := List.mem_append.mp he
  · exact hp e hm
  · exact hp' e hm

theorem Emits.copied {e : Event} (h : Copied [e] hc hc') (he : P e) : Emits P hc hc' := by
  obtain ⟨host, usbBuffer, unrecoverable, rfl⟩ := h
  exact .one rfl he

theorem retireTD_keeps (hc : Controller) (ed : EndpointDescriptor) (td : TransferDescriptor)
    (addr : Word) : (retireTD hc ed td addr).hc.events = hc.events ∧
      (retireTD hc ed td addr).hc.packet = hc.packet := by
  rw [retireTD]
  split
  · exact ⟨rfl, rfl⟩
  · exact ⟨rfl, rfl⟩

theorem settleTD_keeps (hc : Controller) (ed : EndpointDescriptor) (td : TransferDescriptor)
    (addr dir ret : Word) : (settleTD hc ed td addr dir ret).hc.events = hc.events ∧
      (settleTD hc ed td addr dir ret).hc.packet = hc.packet := by
  rw [settleTD]
  split
  · dsimp only
    split
    · exact ⟨rfl, rfl⟩
    · exact retireTD_keeps hc _ _ _
  split
  · exact ⟨rfl, rfl⟩
  · exact retireTD_keeps hc _ _ _

theorem returnData_emits {td : TransferDescriptor} {dir : Word}
    (h : dir = OHCI_TD_DIR_IN → nonneg hc.packet.ret → P (.copyTD hc.packet.ret.toNat)) :
    Emits P hc (returnData hc td dir) ∧ (returnData hc td dir).packet = hc.packet := by
  rw [returnData]
  split
  · next hin =>
    have hcopy := copyTD_copied hc td hc.packet.ret.toNat true
    exact ⟨.copied hcopy (h hin.2 hin.1), hcopy.packet_eq⟩
  · exact ⟨.none rfl, rfl⟩

/-- What the end of a general transfer logs is its copy to memory. -/
theorem finishTD_emits {ed : EndpointDescriptor} {td : TransferDescriptor} {addr dir : Word}
    (h : dir = OHCI_TD_DIR_IN → nonneg hc.packet.ret → P (.copyTD hc.packet.ret.toNat)) :
    Emits P hc (finishTD hc ed td addr dir).hc ∧
      (finishTD hc ed td addr dir).hc.packet = hc.packet := by
  obtain ⟨hemit, hpacket⟩ := returnData_emits h
  obtain ⟨he, hp⟩ := settleTD_keeps (returnData hc td dir) ed td addr dir (transferred hc ed td dir)
  exact ⟨hemit.trans (.none he), hp.trans hpacket⟩

/-- What a general descriptor may hand on, when `delivered` is the result of its packet. -/
def TDEventOk (ed : EndpointDescriptor) (td : TransferDescriptor) (delivered : Word) : Event → Prop
  | .copyTD n => n ≤ usbBufferSize ∧
      if direction ed td = OHCI_TD_DIR_IN then n = delivered.toNat
      else n = min (maxPacketSize ed) (denotedBytes td)
  | .addBuffer n => n ≤ usbBufferSize ∧
      if direction ed td = OHCI_TD_DIR_IN then n = denotedBytes td
      else n = min (maxPacketSize ed) (denotedBytes td)
  | .copyIsoTD _ => False
  | .readOffset _ => False

/-- What packet `r` of an isochronous descriptor may hand on and read. -/
def IsoEventOk (ed : EndpointDescriptor) (td : IsoDescriptor) (r : Nat) (delivered : Word) :
    Event → Prop
  | .copyIsoTD n => n ≤ usbBufferSize ∧
      if bm ed.flags OHCI_ED_D_MASK 11 = OHCI_TD_DIR_IN then n = delivered.toNat
      else n = packetBytes td r
  | .addBuffer n => n ≤ usbBufferSize ∧ n = packetBytes td r
  | .readOffset i => r ≤ 6 → i ≤ 7
  | .copyTD _ => False

/-- The device does not report more bytes than the buffer holds, for the pending packet
and for the next one. -/
structure DeviceFits (env : Nat → Answer) (hc : Controller) : Prop where
  pending : nonneg hc.packet.ret → hc.packet.ret.toNat ≤ usbBufferSize
  answer : nonneg (hc.answer env).packet.ret → (hc.answer env).packet.ret.toNat ≤ usbBufferSize

section General

variable {env : Nat → Answer} {ed : EndpointDescriptor} {td : TransferDescriptor} {addr : Word}

theorem packetLength_of_in (hin : direction ed td = OHCI_TD_DIR_IN)
    (ho : InOrder td.currentBufferPointer td.bufferEnd) :
    packetLength ed td (direction ed td) = denotedBytes td := by
  rw [packetLength, if_neg (fun h => h.2 hin), bufferLength_eq ho]

theorem packetLength_of_not_in (hout : direction ed td ≠ OHCI_TD_DIR_IN)
    (ho : InOrder td.currentBufferPointer td.bufferEnd) :
    packetLength ed td (direction ed td) = min (maxPacketSize ed) (denotedBytes td) := by
  rw [packetLength, bufferLength_eq ho]
  split
  · rfl
  · next h =>
    have hz : denotedBytes td = 0 := by
      by_contra hne
      exact h ⟨hne, hout⟩
    rw [hz, Nat.min_zero]

theorem min_denotedBytes_le (ed : EndpointDescriptor) (td : TransferDescriptor) :
    min (maxPacketSize ed) (denotedBytes td) ≤ usbBufferSize :=
  (Nat.min_le_right _ _).trans (denotedBytes_le td)

/-- The packet of a descriptor in order is handed on with the length it should have. -/
theorem addBuffer_ok (ho : InOrder td.currentBufferPointer td.bufferEnd) (delivered : Word) :
    TDEventOk ed td delivered (.addBuffer (packetLength ed td (direction ed td))) := by
  by_cases hin : direction ed td = OHCI_TD_DIR_IN
  · rw [TDEventOk, if_pos hin, packetLength_of_in hin ho]
    exact ⟨denotedBytes_le td, rfl⟩
  · rw [TDEventOk, if_neg hin, packetLength_of_not_in hin ho]
    exact ⟨min_denotedBytes_le ed td, rfl⟩

theorem fetchTD_emits (hc : Controller) (ho : InOrder td.currentBufferPointer td.bufferEnd)
    (delivered : Word) (completion : Bool) :
    Emits (TDEventOk ed td delivered) hc (fetchTD hc ed td (direction ed td) completion) ∧
      (fetchTD hc ed td (direction ed td) completion).packet = hc.packet := by
  rw [fetchTD]
  split
  · next h =>
    have hcopy := copyTD_copied hc td (packetLength ed td (direction ed td)) false
    refine ⟨.copied hcopy ?_, hcopy.packet_eq⟩
    rw [TDEventOk, if_neg h.2.1, packetLength_of_not_in h.2.1 ho]
    exact ⟨min_denotedBytes_le ed td, rfl⟩
  · exact ⟨.none rfl, rfl⟩

/-- The end of a transfer whose packet has a result that fits the buffer. -/
theorem finishTD_ok (hfit : nonneg hc.packet.ret → hc.packet.ret.toNat ≤ usbBufferSize) :
    Emits (TDEventOk ed td (finishTD hc ed td addr (direction ed td)).hc.packet.ret) hc
      (finishTD hc ed td addr (direction ed td)).hc := by
  rw [(finishTD_emits (P := fun _ => True) fun _ _ => trivial).2]
  refine (finishTD_emits fun hin hpos => ?_).1
  rw [TDEventOk, if_pos hin]
  exact ⟨hfit hpos, rfl⟩

theorem transferTD_ok {a : Answer} {completion : Bool}
    (ho : InOrder td.currentBufferPointer td.bufferEnd)
    (hpending : nonneg hc.packet.ret → hc.packet.ret.toNat ≤ usbBufferSize)
    (hanswer : nonneg a.packet.ret → a.packet.ret.toNat ≤ usbBufferSize) :
    Emits (TDEventOk ed td (transferTD a hc ed td addr completion).hc.packet.ret) hc
      (transferTD a hc ed td addr completion).hc := by
  rw [transferTD]
  dsimp only
  split
  · exact .none rfl
  split
  · obtain ⟨he, hp⟩ := fetchTD_emits hc ho
      (finishTD { fetchTD hc ed td (direction ed td) completion with
        asyncTD := 0, asyncComplete := false } ed td addr (direction ed td)).hc.packet.ret completion
    refine he.trans (finishTD_ok ?_)
    exact hp ▸ hpending
  split
  · exact (fetchTD_emits hc ho _ completion).1
  · have hsub : (submit (fetchTD hc ed td (direction ed td) completion) a
        (packetLength ed td (direction ed td))).events =
        (fetchTD hc ed td (direction ed td) completion).events ++
          [.addBuffer (packetLength ed td (direction ed td))] := rfl
    split
    · exact (fetchTD_emits hc ho _ completion).1.trans (.one hsub (addBuffer_ok ho _))
    · refine (fetchTD_emits hc ho _ completion).1.trans ?_
      exact Emits.trans (.one hsub (addBuffer_ok ho _)) (finishTD_ok hanswer)

/-- The service of a general descriptor in order hands on the lengths it denotes. -/
theorem serviceTD_ok (hd : DeviceFits env hc)
    (ho : InOrder (readTD hc.mem (ed.headP &&& OHCI_DPTR_MASK) (hc.answer env).stack).currentBufferPointer
      (readTD hc.mem (ed.headP &&& OHCI_DPTR_MASK) (hc.answer env).stack).bufferEnd) :
    Emits (TDEventOk ed (readTD hc.mem (ed.headP &&& OHCI_DPTR_MASK) (hc.answer env).stack)
      (serviceTD env hc ed).hc.packet.ret) hc (serviceTD env hc ed).hc := by
  rw [serviceTD]
  split
  · exact .none rfl
  split
  · exact .none rfl
  · exact Emits.trans (.none rfl) (transferTD_ok ho hd.pending hd.answer)

end General

section Isochronous

variable {env : Nat → Answer} {ed : EndpointDescriptor} {td : IsoDescriptor} {addr : Word} {r : Nat}

theorem retireIfLast_keeps (hc : Controller) (ed : EndpointDescriptor) (td : IsoDescriptor)
    (addr : Word) (r : Nat) : (retireIfLast hc ed td addr r).hc.events = hc.events ∧
      (retireIfLast hc ed td addr r).hc.packet = hc.packet := by
  rw [retireIfLast]
  split
  · exact ⟨rfl, rfl⟩
  · exact ⟨rfl, rfl⟩

/-- The end of a packet: what it copies to memory is what the device has delivered. -/
theorem finishIsoTD_ok (len : Nat) (hfit : nonneg hc.packet.ret → hc.packet.ret.toNat ≤ usbBufferSize) :
    Emits (IsoEventOk ed td r (finishIsoTD hc ed td addr (bm ed.flags OHCI_ED_D_MASK 11) r len).hc.packet.ret)
      hc (finishIsoTD hc ed td addr (bm ed.flags OHCI_ED_D_MASK 11) r len).hc := by
  rw [finishIsoTD]
  split
  · next hin =>
    have hcopy := copyIsoTD_copied hc (isoStart td r) (isoEnd td r) hc.packet.ret.toNat true
    have hok : IsoEventOk ed td r hc.packet.ret (.copyIsoTD hc.packet.ret.toNat) := by
      rw [IsoEventOk, if_pos hin.1]
      exact ⟨hfit hin.2.1, rfl⟩
    split
    · next hc₁ h =>
      rw [h] at hcopy
      rw [show hc₁.fatalError.packet = hc.packet from hcopy.packet_eq]
      exact Emits.trans (.copied hcopy hok) (.none rfl)
    · next hc₁ h =>
      rw [h] at hcopy
      obtain ⟨hre, hrp⟩ := retireIfLast_keeps hc₁ ed
        (setStatus td r OHCI_CC_NOERROR (some hc.packet.ret.toNat)) addr r
      rw [hrp, show hc₁.packet = hc.packet from hcopy.packet_eq]
      exact Emits.trans (.copied hcopy hok) (.none hre)
  split
  · exact .none (retireIfLast_keeps hc ed _ addr r).1
  · exact .none (retireIfLast_keeps hc ed _ addr r).1

theorem fetchIsoTD_emits (hc : Controller) (ho : packetBytes td r ≤ usbBufferSize)
    (delivered : Word) :
    Emits (IsoEventOk ed td r delivered) hc
        (fetchIsoTD hc td (bm ed.flags OHCI_ED_D_MASK 11) r (packetBytes td r)).1 ∧
      (fetchIsoTD hc td (bm ed.flags OHCI_ED_D_MASK 11) r (packetBytes td r)).1.packet =
        hc.packet := by
  rw [fetchIsoTD]
  split
  · next h =>
    have hcopy := copyIsoTD_copied hc (isoStart td r) (isoEnd td r) (packetBytes td r) false
    refine ⟨.copied hcopy ?_, hcopy.packet_eq⟩
    rw [IsoEventOk, if_neg h.2]
    exact ⟨ho, rfl⟩
  · exact ⟨.none rfl, rfl⟩

theorem transferIsoTD_ok {a : Answer} {completion : Bool}
    (ho : packetBytes td r ≤ usbBufferSize)
    (hpending : nonneg hc.packet.ret → hc.packet.ret.toNat ≤ usbBufferSize)
    (hanswer : nonneg a.packet.ret → a.packet.ret.toNat ≤ usbBufferSize) :
    Emits (IsoEventOk ed td r (transferIsoTD a hc ed td addr (bm ed.flags OHCI_ED_D_MASK 11) r
        (packetBytes td r) completion).hc.packet.ret) hc
      (transferIsoTD a hc ed td addr (bm ed.flags OHCI_ED_D_MASK 11) r (packetBytes td r)
        completion).hc := by
  rw [transferIsoTD]
  dsimp only
  split
  · exact (fetchIsoTD_emits hc ho _).1
  split
  · refine (fetchIsoTD_emits hc ho _).1.trans (finishIsoTD_ok _ ?_)
    rw [(fetchIsoTD_emits hc ho 0).2]
    exact hpending
  · have hadd (delivered : Word) :
        IsoEventOk ed td r delivered (.addBuffer (packetBytes td r)) := ⟨ho, rfl⟩
    split
    · exact (fetchIsoTD_emits hc ho _).1.trans (.one rfl (hadd _))
    · refine (fetchIsoTD_emits hc ho _).1.trans ?_
      exact Emits.trans (.one rfl (hadd _)) (finishIsoTD_ok _ hanswer)

/-- The service of frame `r` hands on the bytes of its packet. -/
theorem frameIsoTD_ok {a : Answer} {completion : Bool} (ho : PacketInOrder td r)
    (hpending : nonneg hc.packet.ret → hc.packet.ret.toNat ≤ usbBufferSize)
    (hanswer : nonneg a.packet.ret → a.packet.ret.toNat ≤ usbBufferSize) :
    Emits (IsoEventOk ed td r (frameIsoTD a hc ed td addr r completion).hc.packet.ret) hc
      (frameIsoTD a hc ed td addr r completion).hc := by
  rw [frameIsoTD]
  dsimp only
  split
  · exact .none rfl
  split
  · exact .none rfl
  have hread (delivered : Word) : Emits (IsoEventOk ed td r delivered) hc
      ((hc.log (.readOffset r)).log (.readOffset (r + 1))) := by
    have hfirst : Emits (IsoEventOk ed td r delivered) hc (hc.log (.readOffset r)) :=
      .one rfl fun h => by omega
    exact hfirst.trans (.one rfl fun h => by omega)
  split
  · exact hread _
  · next ha =>
    obtain ⟨hlen, hle⟩ := isoLength_packet ho (Bool.eq_false_iff.mpr ha)
    rw [hlen]
    exact (hread _).trans (transferIsoTD_ok hle hpending hanswer)

/-- The service of an isochronous descriptor hands on the length of the packet that is due. -/
theorem serviceIsoTD_ok {completion : Bool} (hd : DeviceFits env hc)
    (ho : PacketInOrder (readIsoTD hc.mem (ed.headP &&& OHCI_DPTR_MASK) (hc.answer env).stack)
      (relativeFrame hc
        (readIsoTD hc.mem (ed.headP &&& OHCI_DPTR_MASK) (hc.answer env).stack)).toNat) :
    Emits (IsoEventOk ed (readIsoTD hc.mem (ed.headP &&& OHCI_DPTR_MASK) (hc.answer env).stack)
        (relativeFrame hc
          (readIsoTD hc.mem (ed.headP &&& OHCI_DPTR_MASK) (hc.answer env).stack)).toNat
        (serviceIsoTD env hc ed completion).hc.packet.ret) hc
      (serviceIsoTD env hc ed completion).hc := by
  rw [serviceIsoTD]
  dsimp only
  split
  · exact .none rfl
  split
  · exact .none rfl
  split
  · exact .none rfl
  · exact Emits.trans (.none rfl) (frameIsoTD_ok ho hd.pending hd.answer)

end Isochronous

/-! ## Every descriptor -/

/-- The descriptor at the head of a queue, as a service reads it. -/
def headTD (env : Nat → Answer) (hc : Controller) (ed : EndpointDescriptor) : TransferDescriptor :=
  readTD hc.mem (ed.headP &&& OHCI_DPTR_MASK) (hc.answer env).stack

def headIsoTD (env : Nat → Answer) (hc : Controller) (ed : EndpointDescriptor) : IsoDescriptor :=
  readIsoTD hc.mem (ed.headP &&& OHCI_DPTR_MASK) (hc.answer env).stack

/-- The packet of the isochronous head that is due. -/
def duePacket (env : Nat → Answer) (hc : Controller) (ed : EndpointDescriptor) : Nat :=
  (relativeFrame hc (headIsoTD env hc ed)).toNat

/-- For every descriptor in order, of either kind, the lengths handed on are those it denotes,
cut down to the maximum packet size for OUT and SETUP, or what the device has delivered. -/
theorem transfer_lengths (env : Nat → Answer) (hc : Controller) (ed : EndpointDescriptor)
    (completion : Bool) (hd : DeviceFits env hc) :
    (InOrder (headTD env hc ed).currentBufferPointer (headTD env hc ed).bufferEnd →
      Emits (TDEventOk ed (headTD env hc ed) (serviceTD env hc ed).hc.packet.ret) hc
        (serviceTD env hc ed).hc) ∧
      (PacketInOrder (headIsoTD env hc ed) (duePacket env hc ed) →
        Emits (IsoEventOk ed (headIsoTD env hc ed) (duePacket env hc ed)
          (serviceIsoTD env hc ed completion).hc.packet.ret) hc
          (serviceIsoTD env hc ed completion).hc) :=
  ⟨serviceTD_ok hd, serviceIsoTD_ok hd⟩

/-- An endpoint with the descriptor at 0x100 in its queue. -/
def endpointAt (flags : Word) : EndpointDescriptor := ⟨flags, 0x200, 0x100, 0⟩

/-- A buffer of 16 bytes, in one page. -/
def sixteenBytes : Controller := controllerOver [0, 0x1000, 0, 0x100F]

/-- Two packets; the first one has 16 bytes. -/
def twoPackets : Controller := controllerOver [0x1000000, 0x3000, 0, 0x4FFF, 0xE010E000, 0xE020]

theorem sample_transfer_lengths :
    Emits (TDEventOk (endpointAt 0x80800) (headTD eightBytes sixteenBytes (endpointAt 0x80800))
        (serviceTD eightBytes sixteenBytes (endpointAt 0x80800)).hc.packet.ret) sixteenBytes
      (serviceTD eightBytes sixteenBytes (endpointAt 0x80800)).hc ∧
    Emits (IsoEventOk (endpointAt 0x9000) (headIsoTD eightBytes twoPackets (endpointAt 0x9000)) 0
        (serviceIsoTD eightBytes twoPackets (endpointAt 0x9000) false).hc.packet.ret) twoPackets
      (serviceIsoTD eightBytes twoPackets (endpointAt 0x9000) false).hc := by
  have general : InOrder (headTD eightBytes sixteenBytes (endpointAt 0x80800)).currentBufferPointer
      (headTD eightBytes sixteenBytes (endpointAt 0x80800)).bufferEnd := fun _ => by decide
  have first : PacketInOrder (headIsoTD eightBytes twoPackets (endpointAt 0x9000))
      (duePacket eightBytes twoPackets (endpointAt 0x9000)) :=
    ⟨by decide, by decide, fun h => absurd h (by decide)⟩
  exact ⟨(transfer_lengths eightBytes sixteenBytes (endpointAt 0x80800) false
      ⟨fun _ => by decide, fun _ => by decide⟩).1 general,
    (transfer_lengths eightBytes twoPackets (endpointAt 0x9000) false
      ⟨fun _ => by decide, fun _ => by decide⟩).2 first⟩

/-- With a maximum packet size of 8, an OUT buffer of 16 bytes is handed on in part. -/
theorem out_packet_is_part_of_buffer :
    ¬ ∀ n, Event.addBuffer n ∈ (serviceTD eightBytes sixteenBytes (endpointAt 0x80800)).hc.events →
      n ≤ usbBufferSize ∧ n = denotedBytes (headTD eightBytes sixteenBytes (endpointAt 0x80800)) := by
  intro h
  have hmem : Event.addBuffer 8 ∈
      (serviceTD eightBytes sixteenBytes (endpointAt 0x80800)).hc.events := by decide
  exact absurd (h 8 hmem).2 (by decide)

end OpenXbox.Ohci.TransferBounds
