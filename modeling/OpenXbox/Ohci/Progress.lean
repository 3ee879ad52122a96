import Mathlib.Logic.Function.Iterate
import OpenXbox.Ohci.Layout
import OpenXbox.Ohci.Service

/-!
# Progress of one service

A service of a descriptor stops the queue, moves HeadP on to the next descriptor, or
leaves a general descriptor at the head with less of its buffer to send.
-/

namespace OpenXbox.Ohci.Progress

open OpenXbox.Lib.Bits OpenXbox.Ohci.Memory OpenXbox.Ohci.Service OpenXbox.Ohci.Layout

/-- What services of descriptors in the blocks `bs` leave of the controller. -/
structure Served (bs : List Block) (hc hc' : Controller) : Prop where
  mem : Writes bs hc.mem hc'.mem
  frame : hc'.hcFmNumber = hc.hcFmNumber
  complete : hc'.asyncComplete = true → hc.asyncComplete = true

theorem Served.refl (bs : List Block) (hc : Controller) : Served bs hc hc :=
  ⟨.none bs hc.mem, rfl, id⟩

theorem Served.trans {bs cs : List Block} {hc hc' hc'' : Controller} (h : Served bs hc hc')
    (h' : Served cs hc' hc'') : Served (bs ++ cs) hc hc'' :=
  ⟨h.mem.trans h'.mem, h'.frame.trans h.frame, fun hd => h.complete (h'.complete hd)⟩

/-- A change of none of the fields the walk goes by. -/
theorem Served.of_eq {bs : List Block} {hc hc' : Controller} (hm : hc'.mem = hc.mem)
    (hf : hc'.hcFmNumber = hc.hcFmNumber) (hd : hc'.asyncComplete = hc.asyncComplete) :
    Served bs hc hc' := by
  refine ⟨?_, hf, fun h => hd ▸ h⟩
  rw [hm]
  exact .none bs hc.mem

theorem Served.write {hc hc' hc'' : Controller} {addr : Word} {n : Nat} {bytes : Nat → Byte}
    (h : Served [] hc hc') (hm : hc''.mem = vmemWrite hc'.mem addr n bytes)
    (hf : hc''.hcFmNumber = hc'.hcFmNumber) (hd : hc''.asyncComplete = hc'.asyncComplete) :
    Served [(addr, n)] hc hc'' := by
  refine ⟨?_, hf.trans h.frame, fun ha => h.complete (hd ▸ ha)⟩
  rw [hm]
  exact h.mem.trans (.one hc'.mem addr n bytes)

theorem Served.mem_eq {hc hc' : Controller} (h : Served [] hc hc') : hc'.mem = hc.mem := h.mem.eq

/-- Copies change nothing the walk goes by. -/
theorem copied_served {es : List Event} {hc hc' : Controller} (h : Copied es hc hc') :
    Served [] hc hc' ∧ hc'.asyncTD = hc.asyncTD ∧ hc'.asyncComplete = hc.asyncComplete := by
  obtain ⟨host, usbBuffer, unrecoverable, rfl⟩ := h
  exact ⟨.of_eq rfl rfl rfl, rfl, rfl⟩

theorem Served.mono {hc hc' : Controller} (h : Served [] hc hc') (bs : List Block) :
    Served bs hc hc' :=
  h.trans (.refl bs hc')

/-! ## Fields of flags and pointers -/

/-- Setting one field leaves another as it is. -/
theorem setBm_and (val mask m newval : Word) (shift : Nat) (h : mask &&& m = 0#32) :
    setBm val mask shift newval &&& m = val &&& m := by
  have hnew : newval <<< shift &&& mask &&& m = 0#32 := by
    rw [BitVec.and_assoc, h, BitVec.and_zero]
  rw [setBm, or_and_of_apart hnew, and_not_and_of_apart h]

/-- A transmission leaves the direction of the descriptor as it is. -/
theorem transmittedFlags_direction (flags : Word) :
    bm (transmittedFlags flags) OHCI_TD_DP_MASK 19 = bm flags OHCI_TD_DP_MASK 19 := by
  rw [bm, bm, transmittedFlags, setBm_and _ _ _ _ _ (by decide), setBm_and _ _ _ _ _ (by decide),
    xor_and_of_apart (by decide), or_and_of_apart (by decide)]

theorem nextHead_pointer (ed : EndpointDescriptor) (next : Word) :
    (nextHead ed next).headP &&& OHCI_DPTR_MASK = next &&& OHCI_DPTR_MASK :=
  and_not_or_and ed.headP next OHCI_DPTR_MASK

theorem maxPacketSize_lt (ed : EndpointDescriptor) : maxPacketSize ed < 2048 := by
  have hmask : (ed.flags &&& OHCI_ED_MPS_MASK).toNat ≤ OHCI_ED_MPS_MASK.toNat := by
    rw [BitVec.toNat_and]
    exact Nat.and_le_right
  have hval : OHCI_ED_MPS_MASK.toNat = 0x7FF0000 := rfl
  rw [maxPacketSize, bm, BitVec.toNat_ushiftRight, Nat.shiftRight_eq_div_pow]
  omega

/-! ## General descriptors -/

/-- The descriptor after a packet of its data, where more is left to send. -/
def partlySent (ed : EndpointDescriptor) (td : TransferDescriptor) : TransferDescriptor :=
  { td with
    flags := transmittedFlags td.flags
    currentBufferPointer := advance td (BitVec.ofNat 32 (maxPacketSize ed)) }

theorem direction_partlySent (ed : EndpointDescriptor) (td : TransferDescriptor) :
    direction ed (partlySent ed td) = direction ed td := by
  rw [direction, direction, partlySent, transmittedFlags_direction]

/-- What the service of the general descriptor `td` at `addr` does to the queue of `ed`. -/
inductive Turned (mem : GuestMemory) (ed : EndpointDescriptor) (td : TransferDescriptor)
    (addr : Word) (s : Serviced) : Prop where
  | stops (h : s.stop = true)
  | moves (h : s.ed.headP &&& OHCI_DPTR_MASK = td.nextTD &&& OHCI_DPTR_MASK)
  | stays (hed : s.ed = ed) (hdir : direction ed td ≠ OHCI_TD_DIR_IN)
      (hlen : maxPacketSize ed < bufferLength td)
      (hmem : s.hc.mem = writeTD mem addr (partlySent ed td))

/-- What any service at `addr` leaves as it was. -/
structure Kept (n : Nat) (hc : Controller) (ed : EndpointDescriptor) (addr : Word)
    (s : Serviced) : Prop where
  served : Served [(addr, n)] hc s.hc
  asyncTD : s.hc.asyncTD = hc.asyncTD
  asyncComplete : s.hc.asyncComplete = hc.asyncComplete
  kept : s.ed = { ed with headP := s.ed.headP }

section General

variable {hc : Controller} {ed : EndpointDescriptor} {td : TransferDescriptor} {addr dir ret : Word}

theorem writeBackTD_kept {hc' : Controller} {ed' : EndpointDescriptor} (td : TransferDescriptor)
    (hm : hc'.mem = hc.mem) (hf : hc'.hcFmNumber = hc.hcFmNumber) (ha : hc'.asyncTD = hc.asyncTD)
    (hd : hc'.asyncComplete = hc.asyncComplete) (hed : ed' = { ed with headP := ed'.headP }) :
    Kept 16 hc ed addr (writeBackTD hc' ed' td addr) :=
  ⟨(Served.of_eq hm hf hd).write rfl rfl rfl, ha, hd, hed⟩

theorem retireTD_kept {ed' : EndpointDescriptor} (td : TransferDescriptor)
    (hed : ed' = { ed with headP := ed'.headP }) :
    Kept 16 hc ed addr (retireTD hc ed' td addr) := by
  rw [retireTD]
  have hnext : nextHead ed' td.nextTD = { ed with headP := (nextHead ed' td.nextTD).headP } := by
    rw [hed]
    rfl
  split
  · exact writeBackTD_kept _ rfl rfl rfl rfl hnext
  · exact writeBackTD_kept _ rfl rfl rfl rfl hnext

theorem settleTD_kept (hc : Controller) (ed : EndpointDescriptor) (td : TransferDescriptor)
    (addr dir ret : Word) : Kept 16 hc ed addr (settleTD hc ed td addr dir ret) := by
  rw [settleTD]
  split
  · split
    · exact writeBackTD_kept _ rfl rfl rfl rfl rfl
    · exact retireTD_kept _ rfl
  split
  · exact ⟨.refl _ hc, rfl, rfl, rfl⟩
  · exact retireTD_kept _ rfl

/-- The bytes of an OUT packet that has been transmitted. -/
theorem ret_of_transmitted (hdir : dir ≠ OHCI_TD_DIR_IN) (h : transmitted ed td dir ret = true) :
    ret.toNat = packetLength ed td dir := by
  rw [transmitted, Bool.or_eq_true, decide_eq_true_eq] at h
  obtain h | h := h
  · exact h
  · rw [decide_eq_false hdir, Bool.false_and, Bool.false_and] at h
    cases h

theorem moves_of_next {mem : GuestMemory} {hc' : Controller} {ed' : EndpointDescriptor}
    {td' : TransferDescriptor}
    (h : td'.nextTD = td.nextTD) : Turned mem ed td addr (retireTD hc' ed' td' addr) := by
  apply Turned.moves
  rw [← h]
  exact nextHead_pointer ed' td'.nextTD

theorem moved_nextTD : (moved td ret).nextTD = td.nextTD := by
  rw [moved]
  split
  · rfl
  · rfl

/-- A packet that leaves some of the data to send. -/
theorem sent_partly (hdir : dir ≠ OHCI_TD_DIR_IN) (h : transmitted ed td dir ret = true)
    (hlen : ret.toNat ≠ bufferLength td) : maxPacketSize ed < bufferLength td ∧
      transmittedTD (moved td ret) (bufferLength td) ret = partlySent ed td := by
  have hret := ret_of_transmitted hdir h
  have hpos : bufferLength td ≠ 0 := by
    intro hz
    rw [packetLength, if_neg fun hn => hn.1 hz] at hret
    exact hlen hret
  rw [packetLength, if_pos ⟨hpos, hdir⟩] at hret
  have hmps : ret.toNat = maxPacketSize ed := by omega
  have hword : ret = BitVec.ofNat 32 (maxPacketSize ed) := by
    rw [← hmps, BitVec.ofNat_toNat, BitVec.setWidth_eq]
  have hsign : nonneg ret = true := by
    rw [nonneg, BitVec.msb_eq_decide, hmps, decide_eq_false, Bool.not_false]
    have hlt := maxPacketSize_lt ed
    omega
  refine ⟨by omega, ?_⟩
  rw [moved, if_pos hsign, transmittedTD, if_neg hlen, partlySent, hword]

theorem settleTD_turned (hc : Controller) (ed : EndpointDescriptor) (td : TransferDescriptor)
    (addr ret : Word) :
    Turned hc.mem ed td addr (settleTD hc ed td addr (direction ed td) ret) := by
  rw [settleTD]
  split
  · next h =>
    split
    · next hpart =>
      obtain ⟨hlen, hsent⟩ := sent_partly hpart.1 h hpart.2
      rw [hsent]
      exact .stays rfl hpart.1 hlen rfl
    · exact moves_of_next moved_nextTD
  split
  · exact .stops rfl
  · exact moves_of_next moved_nextTD

/-- A general descriptor at `addr` has been serviced without a wait: no packet was
pending, or its own has been completed. -/
def Passed (addr : Word) (hc hc' : Controller) : Prop :=
  hc'.asyncTD = 0 ∧
    (hc.asyncTD = addr ∧ hc'.asyncComplete = false ∨
      hc.asyncTD = 0 ∧ hc'.asyncComplete = hc.asyncComplete)

theorem Passed.trans {hc' hc'' : Controller} (h0 : addr ≠ 0) (h : Passed addr hc hc')
    (h' : Passed addr hc' hc'') : Passed addr hc hc'' := by
  obtain ⟨ha, hwas⟩ := h
  obtain ⟨ha', hwas'⟩ := h'
  obtain ⟨haddr, _⟩ | ⟨_, hsame⟩ := hwas'
  · exact absurd (haddr.symm.trans ha) h0
  · exact ⟨ha', hsame ▸ hwas⟩

/-- What the service of the general descriptor `td` at `addr` does. -/
structure Serves (hc : Controller) (ed : EndpointDescriptor) (td : TransferDescriptor)
    (addr : Word) (s : Serviced) : Prop where
  served : Served [(addr, 16)] hc s.hc
  kept : s.ed = { ed with headP := s.ed.headP }
  turned : Turned hc.mem ed td addr s
  passed : s.stop = true ∨ Passed addr hc s.hc

theorem Serves.stop {s : Serviced} (h : Served [(addr, 16)] hc s.hc) (hed : s.ed = ed)
    (hstop : s.stop = true) : Serves hc ed td addr s :=
  ⟨h, by rw [hed], .stops hstop, .inl hstop⟩

theorem settleTD_serves {hc' : Controller} (h : Served [] hc hc') (hp : Passed addr hc hc')
    (ret : Word) : Serves hc ed td addr (settleTD hc' ed td addr (direction ed td) ret) := by
  obtain ⟨hserved, hasync, hcomplete, hed⟩ := settleTD_kept hc' ed td addr (direction ed td) ret
  refine ⟨h.trans hserved, hed, ?_, .inr ?_⟩
  · rw [← h.mem_eq]
    exact settleTD_turned hc' ed td addr ret
  · rw [Passed, hasync, hcomplete]
    exact hp

theorem finishTD_serves {hc' : Controller} (h : Served [] hc hc') (hp : Passed addr hc hc') :
    Serves hc ed td addr (finishTD hc' ed td addr (direction ed td)) := by
  rw [finishTD, returnData]
  split
  · obtain ⟨hcopied, hasync, hcomplete⟩ :=
      copied_served (copyTD_copied hc' td hc'.packet.ret.toNat true)
    refine settleTD_serves (h.trans hcopied) ?_ _
    rw [Passed, hasync, hcomplete]
    exact hp
  · exact settleTD_serves h hp _

theorem fetchTD_served (hc : Controller) (ed : EndpointDescriptor) (td : TransferDescriptor)
    (dir : Word) (completion : Bool) : Served [] hc (fetchTD hc ed td dir completion) ∧
      (fetchTD hc ed td dir completion).asyncTD = hc.asyncTD ∧
      (fetchTD hc ed td dir completion).asyncComplete = hc.asyncComplete := by
  rw [fetchTD]
  split
  · exact copied_served (copyTD_copied hc td (packetLength ed td dir) false)
  · exact ⟨.refl [] hc, rfl, rfl⟩

theorem transferTD_serves {hc' : Controller} (h : Served [] hc hc')
    (ha : hc'.asyncTD = hc.asyncTD) (hd : hc'.asyncComplete = hc.asyncComplete) (a : Answer)
    (completion : Bool) (hown : completion = true → hc.asyncTD = addr) :
    Serves hc ed td addr (transferTD a hc' ed td addr completion) := by
  rw [transferTD]
  split
  · exact .stop (h.mono _) rfl rfl
  obtain ⟨hfetch, hasync, hcomplete⟩ := fetchTD_served hc' ed td (direction ed td) completion
  have hfetched := h.trans hfetch
  dsimp only
  split
  · next hc =>
    have hdone : Served [] (fetchTD hc' ed td (direction ed td) completion)
        { fetchTD hc' ed td (direction ed td) completion with asyncTD := 0, asyncComplete := false } :=
      ⟨.none [] _, rfl, fun hf => by cases hf⟩
    exact finishTD_serves (hfetched.trans hdone) ⟨rfl, .inl ⟨hown hc, rfl⟩⟩
  split
  · exact .stop (hfetched.mono _) rfl rfl
  next hidle =>
  have hsubmit : Served [] (fetchTD hc' ed td (direction ed td) completion)
      (submit (fetchTD hc' ed td (direction ed td) completion) a
        (packetLength ed td (direction ed td))) := .of_eq rfl rfl rfl
  split
  · have hwait : Served [] (submit (fetchTD hc' ed td (direction ed td) completion) a
        (packetLength ed td (direction ed td)))
        { submit (fetchTD hc' ed td (direction ed td) completion) a
            (packetLength ed td (direction ed td)) with asyncTD := addr } := .of_eq rfl rfl rfl
    exact .stop ((hfetched.trans (hsubmit.trans hwait)).mono _) rfl rfl
  · have hzero : (fetchTD hc' ed td (direction ed td) completion).asyncTD = 0 := not_not.mp hidle
    exact finishTD_serves (hfetched.trans hsubmit)
      ⟨hzero, .inr ⟨(hasync.trans ha).symm.trans hzero, hcomplete.trans hd⟩⟩

/-- The service of a general descriptor that is mapped. -/
theorem serviceTD_serves (env : Nat → Answer) (hc : Controller) (ed : EndpointDescriptor)
    (h0 : ed.headP &&& OHCI_DPTR_MASK ≠ 0)
    (hm : mapped hc.mem (ed.headP &&& OHCI_DPTR_MASK) 16 = true) :
    Serves hc ed (tdAt hc.mem (ed.headP &&& OHCI_DPTR_MASK)) (ed.headP &&& OHCI_DPTR_MASK)
      (serviceTD env hc ed) := by
  rw [serviceTD]
  split
  · exact .stop (.of_eq rfl rfl rfl) rfl rfl
  · rw [readTD_eq hm]
    have hcalled : Served [] hc hc.called := .of_eq rfl rfl rfl
    exact transferTD_serves hcalled rfl rfl _ _ fun h => (of_decide_eq_true h).symm

/-! ### Services that send a packet of the data -/

theorem transmittedFlags_code (flags : Word) :
    bm (transmittedFlags flags) OHCI_TD_CC_MASK 28 = OHCI_CC_NOERROR := by
  have hcode : transmittedFlags flags &&& OHCI_TD_CC_MASK = 0#32 := by
    rw [transmittedFlags, setBm_and _ _ _ _ _ (by decide), setBm, and_not_or_and]
    decide
  rw [bm, hcode]
  decide

theorem packetLength_of_lt (hdir : dir ≠ OHCI_TD_DIR_IN) (hlen : maxPacketSize ed < bufferLength td) :
    packetLength ed td dir = maxPacketSize ed := by
  rw [packetLength, if_pos ⟨by omega, hdir⟩, Nat.min_eq_left hlen.le]

/-- A packet that has been sent, with more data left. -/
theorem settleTD_partly (hc : Controller) (addr : Word) (hdir : dir ≠ OHCI_TD_DIR_IN)
    (hlen : maxPacketSize ed < bufferLength td) :
    settleTD hc ed td addr dir (BitVec.ofNat 32 (packetLength ed td dir)) =
      ⟨false, { hc with mem := writeTD hc.mem addr (partlySent ed td) }, ed⟩ := by
  have hlt := maxPacketSize_lt ed
  have hret : (BitVec.ofNat 32 (packetLength ed td dir)).toNat = maxPacketSize ed := by
    rw [packetLength_of_lt hdir hlen, BitVec.toNat_ofNat, Nat.mod_eq_of_lt (by omega)]
  have hsent : transmitted ed td dir (BitVec.ofNat 32 (packetLength ed td dir)) = true := by
    rw [transmitted, hret, packetLength_of_lt hdir hlen, decide_eq_true rfl, Bool.true_or]
  have hmore : (BitVec.ofNat 32 (packetLength ed td dir)).toNat ≠ bufferLength td := by omega
  rw [settleTD, if_pos hsent, (sent_partly hdir hsent hmore).2]
  dsimp only
  rw [if_pos ⟨hdir, hmore⟩, writeBackTD]
  have hcode : decide (bm (partlySent ed td).flags OHCI_TD_CC_MASK 28 ≠ OHCI_CC_NOERROR) = false :=
    decide_eq_false (not_not.mpr (transmittedFlags_code td.flags))
  rw [hcode]

/-- The device takes whatever is sent to it. -/
def Takes (p : UsbPacket) : Prop := p.status = USB_RET_SUCCESS ∧ nonneg p.actualLength = true

theorem finishTD_partly (hc : Controller) (addr : Word) (hdir : dir ≠ OHCI_TD_DIR_IN)
    (hlen : maxPacketSize ed < bufferLength td) (htakes : Takes hc.packet) :
    finishTD hc ed td addr dir =
      ⟨false, { hc with mem := writeTD hc.mem addr (partlySent ed td) }, ed⟩ := by
  have hret : hc.packet.ret = hc.packet.actualLength := if_pos htakes.1
  have hnonneg : nonneg hc.packet.ret = true := hret ▸ htakes.2
  rw [finishTD, returnData, if_neg fun h => hdir h.2, transferred, if_pos ⟨hnonneg, hdir⟩]
  exact settleTD_partly hc addr hdir hlen

theorem transferTD_partly (a : Answer) (hc : Controller) (addr : Word) (ha : hc.asyncTD = 0)
    (hres : direction ed td ≠ OHCI_TD_DIR_RESERVED) (hdir : direction ed td ≠ OHCI_TD_DIR_IN)
    (hlen : maxPacketSize ed < bufferLength td) (htakes : Takes a.packet) :
    ∃ hc', transferTD a hc ed td addr false = ⟨false, hc', ed⟩ ∧ hc'.asyncTD = 0 ∧
      hc'.mem = writeTD hc.mem addr (partlySent ed td) := by
  obtain ⟨hfetch, hasync, -⟩ := fetchTD_served hc ed td (direction ed td) false
  have hidle : (fetchTD hc ed td (direction ed td) false).asyncTD = 0 := hasync.trans ha
  have hwait : a.packet.status ≠ USB_RET_ASYNC := by
    rw [htakes.1]
    decide
  rw [transferTD]
  simp only [if_neg hres, Bool.false_eq_true, if_false, hidle, ne_eq, not_true_eq_false]
  rw [if_neg (by exact hwait)]
  have hsubmit : Takes (submit (fetchTD hc ed td (direction ed td) false) a
      (packetLength ed td (direction ed td))).packet := htakes
  rw [finishTD_partly _ addr hdir hlen hsubmit]
  refine ⟨_, rfl, hidle, ?_⟩
  rw [← hfetch.mem_eq]
  rfl

/-- A device that takes an OUT packet leaves the rest of the data to be sent. -/
theorem serviceTD_partly (env : Nat → Answer) (hc : Controller) (ed : EndpointDescriptor)
    (h0 : ed.headP &&& OHCI_DPTR_MASK ≠ 0)
    (hm : mapped hc.mem (ed.headP &&& OHCI_DPTR_MASK) 16 = true) (ha : hc.asyncTD = 0)
    (htd : tdAt hc.mem (ed.headP &&& OHCI_DPTR_MASK) = td)
    (hres : direction ed td ≠ OHCI_TD_DIR_RESERVED) (hdir : direction ed td ≠ OHCI_TD_DIR_IN)
    (hlen : maxPacketSize ed < bufferLength td) (htakes : Takes (hc.answer env).packet) :
    ∃ hc', serviceTD env hc ed = ⟨false, hc', ed⟩ ∧ hc'.asyncTD = 0 ∧
      hc'.mem = writeTD hc.mem (ed.headP &&& OHCI_DPTR_MASK) (partlySent ed td) := by
  have hother : ed.headP &&& OHCI_DPTR_MASK ≠ hc.asyncTD := fun h => h0 (h.trans ha)
  rw [serviceTD, decide_eq_false hother, Bool.false_and]
  simp only [Bool.false_eq_true, if_false, if_neg h0]
  rw [readTD_eq hm, htd]
  exact transferTD_partly (hc.answer env) hc.called _ ha hres hdir hlen htakes

/-! ### Services that stop at once -/

/-- The queue is left, and nothing the walk goes by has changed. -/
structure Stops (hc : Controller) (s : Serviced) : Prop where
  stop : s.stop = true
  served : Served [] hc s.hc
  asyncTD : s.hc.asyncTD = hc.asyncTD
  asyncComplete : s.hc.asyncComplete = hc.asyncComplete

/-- A null HeadP ends the service of a general endpoint only while no packet is pending. -/
theorem serviceTD_null (env : Nat → Answer) (hc : Controller) (ed : EndpointDescriptor)
    (h0 : ed.headP &&& OHCI_DPTR_MASK = 0) :
    serviceTD env hc ed =
      if hc.asyncTD = 0 ∧ hc.asyncComplete = false then ⟨true, hc.called, ed⟩
      else ⟨false, hc.called.fatalError, ed⟩ := by
  have hidle : (decide (0 = hc.asyncTD) && !hc.asyncComplete) = true ↔
      hc.asyncTD = 0 ∧ hc.asyncComplete = false := by
    rw [Bool.and_eq_true, decide_eq_true_eq, Bool.not_eq_true', eq_comm]
  rw [serviceTD, h0]
  simp only [hidle, if_true]

/-- While a packet is pending no other descriptor is serviced. -/
theorem serviceTD_blocked (env : Nat → Answer) (hc : Controller) (ed : EndpointDescriptor)
    (h0 : ed.headP &&& OHCI_DPTR_MASK ≠ 0) (ha : hc.asyncTD ≠ 0)
    (hown : ed.headP &&& OHCI_DPTR_MASK = hc.asyncTD → hc.asyncComplete = false) :
    Stops hc (serviceTD env hc ed) := by
  rw [serviceTD]
  split
  · exact ⟨rfl, .of_eq rfl rfl rfl, rfl, rfl⟩
  next hgo =>
  have hother : ed.headP &&& OHCI_DPTR_MASK ≠ hc.asyncTD := by
    intro heq
    rw [heq, hown heq, decide_eq_true rfl] at hgo
    exact hgo rfl
  rw [decide_eq_false hother, transferTD]
  split
  · exact ⟨rfl, .of_eq rfl rfl rfl, rfl, rfl⟩
  dsimp only
  obtain ⟨hfetch, hasync, hcomplete⟩ := fetchTD_served hc.called ed
    (readTD hc.mem (ed.headP &&& OHCI_DPTR_MASK) (hc.answer env).stack)
    (direction ed (readTD hc.mem (ed.headP &&& OHCI_DPTR_MASK) (hc.answer env).stack)) false
  have hcalled : Served [] hc hc.called := .of_eq rfl rfl rfl
  split
  · next h => cases h
  split
  · exact ⟨rfl, hcalled.trans hfetch, hasync, hcomplete⟩
  · next h => exact absurd hasync (fun heq => h (heq ▸ ha))

theorem serviceTD_reserved (env : Nat → Answer) (hc : Controller) (ed : EndpointDescriptor)
    (hm : mapped hc.mem (ed.headP &&& OHCI_DPTR_MASK) 16 = true)
    (h0 : ed.headP &&& OHCI_DPTR_MASK ≠ 0)
    (hd : direction ed (tdAt hc.mem (ed.headP &&& OHCI_DPTR_MASK)) = OHCI_TD_DIR_RESERVED) :
    Stops hc (serviceTD env hc ed) := by
  rw [serviceTD]
  split
  · exact ⟨rfl, .of_eq rfl rfl rfl, rfl, rfl⟩
  · rw [readTD_eq hm, transferTD]
    simp only [hd, if_true]
    exact ⟨rfl, .of_eq rfl rfl rfl, rfl, rfl⟩

end General

/-! ## Isochronous descriptors -/

section Iso

variable {env : Nat → Answer} {hc : Controller} {ed : EndpointDescriptor} {td : IsoDescriptor}
  {addr : Word}

theorem retireIfLast_kept (hc : Controller) (ed : EndpointDescriptor) (td : IsoDescriptor)
    (addr : Word) (r : Nat) : Kept 32 hc ed addr (retireIfLast hc ed td addr r) ∧
      (retireIfLast hc ed td addr r).stop = true := by
  rw [retireIfLast]
  split
  · exact ⟨⟨(Served.of_eq rfl rfl rfl).write rfl rfl rfl, rfl, rfl, rfl⟩, rfl⟩
  · exact ⟨⟨(Served.of_eq rfl rfl rfl).write rfl rfl rfl, rfl, rfl, rfl⟩, rfl⟩

theorem Kept.after {n : Nat} {hc' : Controller} {s : Serviced} (h : Kept n hc' ed addr s)
    (hs : Served [] hc hc') (ha : hc'.asyncTD = hc.asyncTD)
    (hd : hc'.asyncComplete = hc.asyncComplete) : Kept n hc ed addr s :=
  ⟨hs.trans h.served, h.asyncTD.trans ha, h.asyncComplete.trans hd, h.kept⟩

theorem Kept.stop {n : Nat} {hc' : Controller} (hs : Served [] hc hc')
    (ha : hc'.asyncTD = hc.asyncTD) (hd : hc'.asyncComplete = hc.asyncComplete) :
    Kept n hc ed addr ⟨true, hc', ed⟩ :=
  ⟨hs.mono _, ha, hd, rfl⟩

theorem finishIsoTD_kept (hc : Controller) (ed : EndpointDescriptor) (td : IsoDescriptor)
    (addr dir : Word) (r len : Nat) : Kept 32 hc ed addr (finishIsoTD hc ed td addr dir r len) ∧
      (finishIsoTD hc ed td addr dir r len).stop = true := by
  rw [finishIsoTD]
  split
  · obtain ⟨hcopied, hasync, hcomplete⟩ := copied_served
      (copyIsoTD_copied hc (isoStart td r) (isoEnd td r) hc.packet.ret.toNat true)
    split
    · next h =>
      rw [h] at hcopied hasync hcomplete
      exact ⟨.stop (hcopied.trans (.of_eq rfl rfl rfl)) hasync hcomplete, rfl⟩
    · next h =>
      rw [h] at hcopied hasync hcomplete
      obtain ⟨hkept, hstop⟩ := retireIfLast_kept _ ed (setStatus td r OHCI_CC_NOERROR
        (some hc.packet.ret.toNat)) addr r
      exact ⟨hkept.after hcopied hasync hcomplete, hstop⟩
  split
  · exact retireIfLast_kept hc ed _ addr r
  · exact retireIfLast_kept hc ed _ addr r

theorem transferIsoTD_kept (a : Answer) (hc : Controller) (ed : EndpointDescriptor)
    (td : IsoDescriptor) (addr dir : Word) (r len : Nat) (completion : Bool) :
    Kept 32 hc ed addr (transferIsoTD a hc ed td addr dir r len completion) ∧
      (transferIsoTD a hc ed td addr dir r len completion).stop = true := by
  have hfetch : Served [] hc (fetchIsoTD hc td dir r len).1 ∧
      (fetchIsoTD hc td dir r len).1.asyncTD = hc.asyncTD ∧
      (fetchIsoTD hc td dir r len).1.asyncComplete = hc.asyncComplete := by
    rw [fetchIsoTD]
    split
    · exact copied_served (copyIsoTD_copied hc (isoStart td r) (isoEnd td r) len false)
    · exact ⟨.refl [] hc, rfl, rfl⟩
  obtain ⟨hserved, hasync, hcomplete⟩ := hfetch
  have hsubmit : Served [] hc (submit (fetchIsoTD hc td dir r len).1 a len) :=
    hserved.trans (.of_eq rfl rfl rfl)
  rw [transferIsoTD]
  dsimp only
  split
  · exact ⟨.stop (hserved.trans (.of_eq rfl rfl rfl)) hasync hcomplete, rfl⟩
  split
  · obtain ⟨hkept, hstop⟩ := finishIsoTD_kept (fetchIsoTD hc td dir r len).1 ed td addr dir r len
    exact ⟨hkept.after hserved hasync hcomplete, hstop⟩
  split
  · exact ⟨.stop hsubmit hasync hcomplete, rfl⟩
  · obtain ⟨hkept, hstop⟩ := finishIsoTD_kept (submit (fetchIsoTD hc td dir r len).1 a len) ed td
      addr dir r len
    exact ⟨hkept.after hsubmit hasync hcomplete, hstop⟩

/-- A frame of a descriptor that is due ends the service of its endpoint. -/
theorem frameIsoTD_kept (a : Answer) (hc : Controller) (ed : EndpointDescriptor)
    (td : IsoDescriptor) (addr : Word) (r : Nat) (completion : Bool) :
    Kept 32 hc ed addr (frameIsoTD a hc ed td addr r completion) ∧
      (frameIsoTD a hc ed td addr r completion).stop = true := by
  rw [frameIsoTD]
  split
  · exact ⟨.stop (.refl [] hc) rfl rfl, rfl⟩
  split
  · exact ⟨.stop (.refl [] hc) rfl rfl, rfl⟩
  dsimp only
  have hlog : Served [] hc ((hc.log (.readOffset r)).log (.readOffset (r + 1))) :=
    .of_eq rfl rfl rfl
  split
  · exact ⟨.stop hlog rfl rfl, rfl⟩
  · obtain ⟨hkept, hstop⟩ := transferIsoTD_kept a ((hc.log (.readOffset r)).log (.readOffset (r + 1)))
      ed td addr (bm ed.flags OHCI_ED_D_MASK 11) r (isoLength (isoStart td r) (isoEnd td r)) completion
    exact ⟨hkept.after hlog rfl rfl, hstop⟩

/-- The last frame of the descriptor has passed. -/
def Expired (hc : Controller) (td : IsoDescriptor) : Prop := relativeFrame hc td > frameCount td

instance (hc : Controller) (td : IsoDescriptor) : Decidable (Expired hc td) :=
  inferInstanceAs (Decidable (_ > _))

theorem relativeFrame_congr {hc hc' : Controller} {td td' : IsoDescriptor}
    (hf : hc'.hcFmNumber = hc.hcFmNumber) (h : td'.flags = td.flags) :
    relativeFrame hc' td' = relativeFrame hc td := by
  rw [relativeFrame, relativeFrame, hf, h]

theorem expired_congr {hc hc' : Controller} {td td' : IsoDescriptor}
    (hf : hc'.hcFmNumber = hc.hcFmNumber) (h : td'.flags = td.flags) :
    Expired hc' td' ↔ Expired hc td := by
  rw [Expired, Expired, relativeFrame_congr hf h, frameCount, frameCount, h]

/-- A descriptor that is mapped is read as it is. -/
theorem readIsoTD_fields {mem : GuestMemory} {a : Word} (hm : mapped mem a 32 = true)
    (old : Nat → Byte) : (readIsoTD mem a old).flags = (isoAt mem a).flags ∧
      (readIsoTD mem a old).nextTD = (isoAt mem a).nextTD := by
  have hbytes (j : Nat) (hj : j < 32) :=
    (vmemRead_of_mapped (by decide) hm hj old).trans
      (vmemRead_of_mapped (by decide) hm hj fun _ => 0).symm
  exact ⟨wordAt_congr hbytes (by decide), wordAt_congr hbytes (by decide)⟩

/-- A descriptor whose first frame is still to come ends the service of its endpoint. -/
theorem serviceIsoTD_early (env : Nat → Answer) (hc : Controller) (ed : EndpointDescriptor)
    (completion : Bool) (h0 : ed.headP &&& OHCI_DPTR_MASK ≠ 0)
    (hm : mapped hc.mem (ed.headP &&& OHCI_DPTR_MASK) 32 = true)
    (he : relativeFrame hc (isoAt hc.mem (ed.headP &&& OHCI_DPTR_MASK)) < 0) :
    Stops hc (serviceIsoTD env hc ed completion) := by
  rw [← relativeFrame_congr rfl (readIsoTD_fields hm (hc.answer env).stack).1] at he
  rw [serviceIsoTD]
  dsimp only
  rw [if_neg h0, if_pos he]
  exact ⟨rfl, .of_eq rfl rfl rfl, rfl, rfl⟩

/-- The service of an isochronous descriptor that is mapped moves HeadP on past a
descriptor whose last frame has passed, and stops otherwise. -/
theorem serviceIsoTD_kept (env : Nat → Answer) (hc : Controller) (ed : EndpointDescriptor)
    (completion : Bool) (h0 : ed.headP &&& OHCI_DPTR_MASK ≠ 0)
    (hm : mapped hc.mem (ed.headP &&& OHCI_DPTR_MASK) 32 = true) :
    Kept 32 hc ed (ed.headP &&& OHCI_DPTR_MASK) (serviceIsoTD env hc ed completion) ∧
      ((serviceIsoTD env hc ed completion).stop = true ∨
        Expired hc (isoAt hc.mem (ed.headP &&& OHCI_DPTR_MASK)) ∧
          (serviceIsoTD env hc ed completion).ed.headP &&& OHCI_DPTR_MASK =
            (isoAt hc.mem (ed.headP &&& OHCI_DPTR_MASK)).nextTD &&& OHCI_DPTR_MASK) := by
  obtain ⟨hflags, hnext⟩ := readIsoTD_fields hm (hc.answer env).stack
  have hcalled : Served [] hc hc.called := .of_eq rfl rfl rfl
  rw [serviceIsoTD]
  dsimp only
  split
  · next hzero => exact absurd hzero h0
  split
  · exact ⟨.stop hcalled rfl rfl, .inl rfl⟩
  split
  · next hlate =>
    refine ⟨⟨(Served.of_eq rfl rfl rfl).write rfl rfl rfl, rfl, rfl, rfl⟩, .inr ⟨?_, ?_⟩⟩
    · exact (expired_congr rfl hflags).mp hlate
    · rw [← hnext]
      exact nextHead_pointer ed _
  · obtain ⟨hkept, hstop⟩ := frameIsoTD_kept (hc.answer env) hc.called ed
      (readIsoTD hc.mem (ed.headP &&& OHCI_DPTR_MASK) (hc.answer env).stack)
      (ed.headP &&& OHCI_DPTR_MASK) (relativeFrame hc
        (readIsoTD hc.mem (ed.headP &&& OHCI_DPTR_MASK) (hc.answer env).stack)).toNat completion
    exact ⟨hkept.after hcalled rfl rfl, .inl hstop⟩

end Iso

end OpenXbox.Ohci.Progress
