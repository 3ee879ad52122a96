import OpenXbox.Lib.LinkedList
import OpenXbox.Lib.Run
import OpenXbox.Ohci.Frame

/-!
# The done queue

Retired descriptors are linked through guest memory, the last one first, from HcDoneHead.
At a frame boundary the queue is handed over to the guest. A run of the controller is
traced with the descriptors that have been retired and with the queues handed over.
-/

namespace OpenXbox.Ohci.DoneQueue

open OpenXbox.Lib.LinkedList OpenXbox.Lib.Run OpenXbox.Lib.Bits OpenXbox.Ohci.Memory
  OpenXbox.Ohci.Service OpenXbox.Ohci.Layout OpenXbox.Ohci.Frame

/-- NextTD of the descriptor at `addr`. -/
def nextTDAt (mem : GuestMemory) (addr : Word) : Word := (tdAt mem addr).nextTD

/-- Following NextTD in guest memory from `head` finds these descriptors, each once. -/
def Listed (mem : GuestMemory) (head : Word) (tds : List Word) : Prop :=
  Linked (nextTDAt mem) 0 head tds ∧ tds.Nodup ∧ ∀ a ∈ tds, mapped mem a 16 = true

/-- The ways a descriptor retires: with the end of its data or an error, after its last
frame has passed, or with its last packet. -/
inductive Retirement where
  | completed (td : TransferDescriptor)
  | expired (td : IsoDescriptor)
  | lastPacket (td : IsoDescriptor)

def Retirement.size : Retirement → Nat
  | .completed _ => 16
  | .expired _ => 32
  | .lastPacket _ => 32

def Retirement.perform (hc : Controller) (ed : EndpointDescriptor) (addr : Word) :
    Retirement → Controller
  | .completed td => (retireTD hc ed td addr).hc
  | .expired td => (expireIsoTD hc ed td addr).hc
  | .lastPacket td => (retireIfLast hc ed td addr (frameCount td)).hc

/-- Anything else that happens to the controller and to memory: services that retire
nothing, packets, other registers, and the guest. -/
structure Elsewhere where
  hc : Controller
  hcInterrupt : Word
  hcFmInterval : Word
  hcFmRemaining : Word
  /-- The interrupts raised. -/
  raised : Word

/-- The done queue and WritebackDoneHead are changed nowhere else. -/
def Elsewhere.apply (e : Elsewhere) (hc : OHCI) : OHCI :=
  { hc with
    toController := { e.hc with hcDoneHead := hc.hcDoneHead, doneCount := hc.doneCount }
    hcInterrupt := e.hcInterrupt
    hcFmInterval := e.hcFmInterval
    hcFmRemaining := e.hcFmRemaining
    hcInterruptStatus := hc.hcInterruptStatus ||| (e.raised &&& ~~~OHCI_INTR_WD) }

inductive Operation where
  /-- The descriptor at the head of the queue of `ed` retires. -/
  | retire (ed : EndpointDescriptor) (r : Retirement)
  | frameBegin
  | frameEnd
  | acknowledge (value : Word)
  | elsewhere (e : Elsewhere)

/-- A queue handed over: HccaDoneHead as the controller has written it, and guest memory then. -/
structure Handover where
  doneHead : Word
  mem : GuestMemory
  tds : List Word
  /-- The guest had not acknowledged the one before. -/
  overwrites : Bool

structure Traced where
  hc : OHCI
  /-- The descriptors retired since the last hand-over, the last one first. -/
  current : List Word
  handed : List Handover
  /-- All descriptors retired, the last one first. -/
  retired : List Word
  /-- The last hand-over has not been acknowledged. -/
  unread : Bool

/-- The address of the descriptor at the head of the queue. -/
def headTD (ed : EndpointDescriptor) : Word := ed.headP &&& OHCI_DPTR_MASK

/-- The done queue has been handed over between `m` and `hc`. -/
def Traced.handOver (m : Traced) (hc : OHCI) : Traced :=
  { hc := hc, current := [], handed := ⟨hc.hccaDoneHead, hc.mem, m.current, m.unread⟩ :: m.handed
    retired := m.retired, unread := true }

def step (m : Traced) : Operation → Option Traced
  | .retire ed r => some { m with
      hc := { m.hc with toController := r.perform m.hc.toController ed (headTD ed) }
      current := headTD ed :: m.current
      retired := headTD ed :: m.retired }
  | .frameBegin => (frameBegin m.hc).map fun hc => { m with hc := hc }
  | .frameEnd => (frameEnd m.hc).map fun hc =>
      if m.hc.hcInterruptStatus &&& OHCI_INTR_UE = 0 ∧ m.hc.HandsOver then m.handOver hc
      else { m with hc := hc }
  | .acknowledge value => some { m with
      hc := acknowledge m.hc value
      unread := m.unread && value &&& OHCI_INTR_WD = 0 }
  | .elsewhere e => some { m with hc := e.apply m.hc }

/-- After a reset, with the communications area at `paddr`. -/
def start (hc : OHCI) (paddr : Word) : Traced :=
  { hc := { stateReset hc with hcHCCA := paddr, frame := none }
    current := [], handed := [], retired := [], unread := false }

/-- Every descriptor retired is in one queue handed over or in the current one, each of
which can be followed; none is handed over before the guest has acknowledged the last. -/
structure Sound (m : Traced) : Prop where
  queue : Listed m.hc.mem m.hc.hcDoneHead m.current
  handed : ∀ h ∈ m.handed, h.overwrites = false ∧ h.tds ≠ [] ∧
    Listed h.mem (h.doneHead &&& OHCI_DPTR_MASK) h.tds
  once : m.retired = m.current ++ m.handed.flatMap Handover.tds
  unread : m.unread = true → ∀ h ∈ m.handed.head?, m.hc.hccaDoneHead = h.doneHead ∧
    ((∀ a ∈ h.tds, a ∉ m.current) → Listed m.hc.mem (h.doneHead &&& OHCI_DPTR_MASK) h.tds)

/-- The descriptors of the hand-over that the guest has not acknowledged. -/
def Traced.awaited (m : Traced) : List Word :=
  if m.unread then (m.handed.head?.map Handover.tds).getD [] else []

/-- What happens elsewhere touches neither the descriptors in the queues nor HccaDoneHead
while the guest has not acknowledged it. -/
def Untouched (m : Traced) (e : Elsewhere) : Prop :=
  (∀ a ∈ m.current ++ m.awaited, nextTDAt e.hc.mem a = nextTDAt m.hc.mem a ∧
    mapped e.hc.mem a 16 = mapped m.hc.mem a 16) ∧
  (m.unread = true → (e.apply m.hc).hccaDoneHead = m.hc.hccaDoneHead)

/-- A descriptor that retires is not in the queue yet. -/
def FirstTime (m : Traced) : Operation → Prop
  | .retire ed _ => headTD ed ≠ 0 ∧ headTD ed ∉ m.current
  | .elsewhere e => Untouched m e
  | _ => True

/-- A descriptor that retires is in guest memory. -/
def InMemory (m : Traced) : Operation → Prop
  | .retire ed _ => mapped m.hc.mem (headTD ed) 16 = true
  | _ => True

/-- What is written when a descriptor retires, which are 32 bytes for an isochronous one, is no
part of the NextTD of another descriptor in the queues, wherever in virtual memory these are. -/
def Clear (m : Traced) : Operation → Prop
  | .retire ed r => ∀ a ∈ m.current ++ m.awaited, a ≠ headTD ed →
      ∀ x ∈ places m.hc.mem (headTD ed) r.size, x ∉ places m.hc.mem (a + 8) 4
  | _ => True

/-- Nor is it part of the page table entries that it, or a descriptor in the queues, is
translated with. -/
def Translated (m : Traced) : Operation → Prop
  | .retire ed r => Keeps m.hc.mem (headTD ed) r.size ∧ ∀ a ∈ m.current ++ m.awaited,
      ∀ x ∈ places m.hc.mem (headTD ed) r.size, x ∉ entries m.hc.mem a 16
  | _ => True

def Proper (m : Traced) (op : Operation) : Prop :=
  FirstTime m op ∧ InMemory m op ∧ Clear m op ∧ Translated m op

section Decidable

variable (m : Traced) (op : Operation)

instance (e : Elsewhere) : Decidable (Untouched m e) := inferInstanceAs (Decidable (_ ∧ (_ → _)))

instance : Decidable (FirstTime m op) :=
  match op with
  | .retire _ _ => inferInstanceAs (Decidable (_ ∧ _))
  | .elsewhere e => inferInstanceAs (Decidable (Untouched m e))
  | .frameBegin => isTrue trivial
  | .frameEnd => isTrue trivial
  | .acknowledge _ => isTrue trivial

instance : Decidable (InMemory m op) :=
  match op with
  | .retire _ _ => inferInstanceAs (Decidable (_ = _))
  | .elsewhere _ => isTrue trivial
  | .frameBegin => isTrue trivial
  | .frameEnd => isTrue trivial
  | .acknowledge _ => isTrue trivial

instance : Decidable (Clear m op) :=
  match op with
  | .retire ed r => List.decidableBAll (fun a => a ≠ headTD ed →
      ∀ x ∈ places m.hc.mem (headTD ed) r.size, x ∉ places m.hc.mem (a + 8) 4) _
  | .elsewhere _ => isTrue trivial
  | .frameBegin => isTrue trivial
  | .frameEnd => isTrue trivial
  | .acknowledge _ => isTrue trivial

instance : Decidable (Translated m op) :=
  match op with
  | .retire ed r => @instDecidableAnd _ _ inferInstance (List.decidableBAll (fun a =>
      ∀ x ∈ places m.hc.mem (headTD ed) r.size, x ∉ entries m.hc.mem a 16) _)
  | .elsewhere _ => isTrue trivial
  | .frameBegin => isTrue trivial
  | .frameEnd => isTrue trivial
  | .acknowledge _ => isTrue trivial

instance : Decidable (Proper m op) := inferInstanceAs (Decidable (_ ∧ _ ∧ _ ∧ _))

end Decidable

/-! ## Addresses -/

theorem headTD_aligned (ed : EndpointDescriptor) : headTD ed &&& OHCI_DPTR_MASK = headTD ed := by
  unfold headTD
  rw [BitVec.and_assoc, BitVec.and_self]

/-- The tag of HccaDoneHead goes with the low bits. -/
theorem taggedDoneHead_and (hc : OHCI) (h : hc.hcDoneHead &&& OHCI_DPTR_MASK = hc.hcDoneHead) :
    hc.taggedDoneHead &&& OHCI_DPTR_MASK = hc.hcDoneHead := by
  unfold OHCI.taggedDoneHead
  split
  · rw [or_and_of_apart (by decide), h]
  · exact h

/-! ## What a retirement does -/

section Retirement

variable {hc : Controller} {ed : EndpointDescriptor} {addr : Word}

theorem Retirement.size_cases (r : Retirement) : r.size = 16 ∨ r.size = 32 := by
  cases r with
  | completed td => exact .inl rfl
  | expired td => exact .inr rfl
  | lastPacket td => exact .inr rfl

theorem nextTD_bytes (td : TransferDescriptor) : wordAt td.bytes 8 = td.nextTD :=
  wordAt_bytes [td.flags, td.currentBufferPointer, td.nextTD, td.bufferEnd] 2

theorem nextTD_isoBytes (td : IsoDescriptor) : wordAt td.bytes 8 = td.nextTD := by
  have hbytes (j : Nat) (hj : j < 16) :
      td.bytes j = leBytes [td.flags, td.bufferPage0, td.nextTD, td.bufferEnd] j := if_pos hj
  rw [wordAt_congr hbytes (by decide)]
  exact wordAt_bytes [td.flags, td.bufferPage0, td.nextTD, td.bufferEnd] 2

/-- One descriptor is written, with the old head of the queue in its NextTD. -/
theorem Retirement.perform_eq (r : Retirement) (hc : Controller) (ed : EndpointDescriptor) (addr : Word) :
    ∃ bytes doneCount, wordAt bytes 8 = hc.hcDoneHead ∧ r.perform hc ed addr = { hc with
      mem := vmemWrite hc.mem addr r.size bytes, hcDoneHead := addr, doneCount := doneCount } := by
  cases r with
  | completed td =>
    have hnext := nextTD_bytes { td with nextTD := hc.hcDoneHead }
    unfold Retirement.perform retireTD
    dsimp only
    split
    · exact ⟨_, 0, hnext, rfl⟩
    · exact ⟨_, _, hnext, rfl⟩
  | expired td => exact ⟨_, _, nextTD_isoBytes { td with
      flags := setBm td.flags OHCI_TD_CC_MASK 28 OHCI_CC_DATAOVERRUN, nextTD := hc.hcDoneHead }, rfl⟩
  | lastPacket td =>
    unfold Retirement.perform retireIfLast
    dsimp only
    rw [if_pos rfl]
    exact ⟨_, _, nextTD_isoBytes { td with
      flags := setBm td.flags OHCI_TD_CC_MASK 28 OHCI_CC_NOERROR, nextTD := hc.hcDoneHead }, rfl⟩

variable {n : Nat} {bytes : Nat → Byte} {mem : GuestMemory}

theorem nextTDAt_vmemWrite (hkeeps : Keeps mem addr n) (hm : mapped mem addr 16 = true)
    (hn : n = 16 ∨ n = 32) : nextTDAt (vmemWrite mem addr n bytes) addr = wordAt bytes 8 := by
  have hread (j : Nat) (hj : j < 16) :
      vmemRead (vmemWrite mem addr n bytes) addr 16 (fun _ => 0) j = bytes j :=
    vmemRead_vmemWrite (by omega) hkeeps hm (by omega) hj _ _
  exact wordAt_congr hread (by decide)

/-- NextTD goes by where its descriptor is, and by its own bytes. -/
theorem nextTDAt_congr {mem' : GuestMemory} {b : Word}
    (hplace : ∀ i, i < 16 → place mem' (b + BitVec.ofNat 32 i) = place mem (b + BitVec.ofNat 32 i))
    (hbytes : ∀ x ∈ places mem (b + 8) 4, mem'.host x = mem.host x) :
    nextTDAt mem' b = nextTDAt mem b := by
  have hmapped (i : Nat) (hi : i ≤ 16) : mapped mem' b i = mapped mem b i := by
    rw [Bool.eq_iff_iff, mapped_iff, mapped_iff]
    exact forall_congr' fun j => forall_congr' fun hj => by rw [hplace j (by omega)]
  have hbyte (i : Nat) (hi : i < 4) :
      vmemRead mem' b 16 (fun _ => 0) (8 + i) = vmemRead mem b 16 (fun _ => 0) (8 + i) := by
    rw [vmemRead_eq (by decide), vmemRead_eq (by decide), hmapped _ (by omega)]
    refine if_congr Iff.rfl ?_ rfl
    rw [byteAt, byteAt, hplace _ (by omega)]
    cases hx : place mem (b + BitVec.ofNat 32 (8 + i)) with
    | none => rfl
    | some x =>
      have hin : x ∈ places mem (b + 8) 4 := by
        refine mem_places.mpr ⟨i, hi, ?_⟩
        rw [← hx, BitVec.ofNat_add, ← BitVec.add_assoc]
        rfl
      rw [Option.map_some, Option.map_some, hbytes x hin]
  change wordAt _ 8 = wordAt _ 8
  rw [wordAt, wordAt]
  exact congr (congr (congr (congrArg le32 (hbyte 0 (by decide))) (hbyte 1 (by decide)))
    (hbyte 2 (by decide))) (hbyte 3 (by decide))

/-- The store leaves the descriptor at `b` where it is, and its link as it is. -/
structure Spares (mem : GuestMemory) (addr : Word) (n : Nat) (b : Word) : Prop where
  clear : ∀ x ∈ places mem addr n, x ∉ places mem (b + 8) 4
  translated : ∀ x ∈ places mem addr n, x ∉ entries mem b 16

theorem place_spared {b : Word} (hkeeps : Keeps mem addr n) (hn : n = 16 ∨ n = 32)
    (ht : ∀ x ∈ places mem addr n, x ∉ entries mem b 16) {i : Nat} (hi : i < 16) :
    place (vmemWrite mem addr n bytes) (b + BitVec.ofNat 32 i) = place mem (b + BitVec.ofNat 32 i) :=
  place_vmemWrite (by omega) hkeeps fun x hx hused =>
    ht x hx (mem_entries.mpr ⟨i, hi, mem_tablePlaces.mp hused⟩)

theorem mapped_spared {b : Word} (hkeeps : Keeps mem addr n) (hn : n = 16 ∨ n = 32)
    (ht : ∀ x ∈ places mem addr n, x ∉ entries mem b 16) :
    mapped (vmemWrite mem addr n bytes) b 16 = mapped mem b 16 := by
  rw [Bool.eq_iff_iff, mapped_iff, mapped_iff]
  exact forall_congr' fun i => forall_congr' fun hi => by rw [place_spared hkeeps hn ht hi]

theorem nextTDAt_spared {b : Word} (hkeeps : Keeps mem addr n) (hn : n = 16 ∨ n = 32)
    (h : Spares mem addr n b) : nextTDAt (vmemWrite mem addr n bytes) b = nextTDAt mem b :=
  nextTDAt_congr (fun _ hi => place_spared hkeeps hn h.translated hi) fun x hx =>
    vmemWrite_out (by omega) hkeeps fun hin => h.clear x hin hx

theorem mapped_self (hkeeps : Keeps mem addr n) (hn : n = 16 ∨ n = 32) :
    mapped (vmemWrite mem addr n bytes) addr 16 = mapped mem addr 16 :=
  hkeeps.mapped_eq (by omega) (by omega)

end Retirement

/-! ## One step -/

/-- What the steps keep. -/
structure Invariant (m : Traced) : Prop where
  sound : Sound m
  aligned : ∀ a ∈ m.current, a &&& OHCI_DPTR_MASK = a
  count : m.hc.doneCount ≠ 7 → m.current ≠ []
  pending : m.unread = true → m.hc.Pending
  frame : ∀ hcca, m.hc.frame = some hcca → m.hc.hcHCCA ≠ 0 ∧
    (m.unread = true → hcca.doneHead = m.hc.hccaDoneHead)

theorem Listed.of_linked {mem : GuestMemory} {head : Word} {tds : List Word}
    (h : Linked (nextTDAt mem) 0 head tds) (hm : ∀ a ∈ tds, mapped mem a 16 = true) :
    Listed mem head tds := ⟨h, h.nodup, hm⟩

theorem Listed.congr {mem mem' : GuestMemory} {head : Word} {tds : List Word}
    (h : Listed mem head tds) (hl : ∀ a ∈ tds, nextTDAt mem' a = nextTDAt mem a)
    (hm : ∀ a ∈ tds, mapped mem' a 16 = mapped mem a 16) : Listed mem' head tds :=
  .of_linked (h.1.congr hl) fun a ha => (hm a ha).trans (h.2.2 a ha)

theorem mem_awaited {m : Traced} {h : Handover} {a : Word} (hu : m.unread = true)
    (hh : h ∈ m.handed.head?) (ha : a ∈ h.tds) : a ∈ m.awaited := by
  unfold Traced.awaited
  rw [if_pos hu, Option.mem_def.mp hh]
  exact ha

theorem start_invariant (hc : OHCI) (paddr : Word) : Invariant (start hc paddr) where
  sound := {
    queue := ⟨rfl, List.nodup_nil, fun _ ha => absurd ha List.not_mem_nil⟩
    handed := fun _ hh => absurd hh List.not_mem_nil
    once := rfl
    unread := fun hu => by cases hu }
  aligned := fun _ ha => absurd ha List.not_mem_nil
  count := fun h => absurd rfl h
  pending := fun hu => by cases hu
  frame := fun _ hf => by cases hf

section Steps

variable {m m' : Traced}

theorem retire_invariant {ed : EndpointDescriptor} {r : Retirement} (hi : Invariant m)
    (hp : Proper m (.retire ed r)) (hs : step m (.retire ed r) = some m') : Invariant m' := by
  obtain rfl := Option.some.inj hs
  obtain ⟨⟨h0, hfirst⟩, hmem, hclear, hkeeps, htranslated⟩ := hp
  obtain ⟨bytes, doneCount, hnext, hperform⟩ := r.perform_eq m.hc.toController ed (headTD ed)
  rw [hperform]
  have hlink (b : Word) (hne : b ≠ headTD ed) (hin : b ∈ m.current ++ m.awaited) :
      nextTDAt (vmemWrite m.hc.mem (headTD ed) r.size bytes) b = nextTDAt m.hc.mem b :=
    nextTDAt_spared hkeeps r.size_cases
      ⟨hclear b hin hne, htranslated b hin⟩
  have hmapped (b : Word) (hin : b ∈ m.current ++ m.awaited) :
      mapped (vmemWrite m.hc.mem (headTD ed) r.size bytes) b 16 = mapped m.hc.mem b 16 :=
    mapped_spared hkeeps r.size_cases (htranslated b hin)
  obtain ⟨hlinked, -, hms⟩ := hi.sound.queue
  have hkept (b : Word) (hb : b ∈ m.current) :
      nextTDAt (vmemWrite m.hc.mem (headTD ed) r.size bytes) b = nextTDAt m.hc.mem b :=
    hlink b (fun he => hfirst (he ▸ hb)) (List.mem_append_left _ hb)
  have hnew : nextTDAt (vmemWrite m.hc.mem (headTD ed) r.size bytes) (headTD ed) = m.hc.hcDoneHead :=
    (nextTDAt_vmemWrite hkeeps hmem r.size_cases).trans hnext
  refine ⟨⟨.of_linked (hlinked.push h0 hnew hkept) ?_, hi.sound.handed, ?_, ?_⟩, ?_,
    fun _ => List.cons_ne_nil _ _, hi.pending, hi.frame⟩
  · intro a ha
    obtain rfl | ha := List.mem_cons.mp ha
    · rw [mapped_self hkeeps r.size_cases]
      exact hmem
    · rw [hmapped a (List.mem_append_left _ ha)]
      exact hms a ha
  · exact congrArg (headTD ed :: ·) hi.sound.once
  · intro hu h hh
    obtain ⟨hword, hlisted⟩ := hi.sound.unread hu h hh
    refine ⟨hword, fun hnot => ?_⟩
    have hbefore := hlisted fun a ha hin => hnot a ha (List.mem_cons_of_mem _ hin)
    have hin (a : Word) (ha : a ∈ h.tds) := List.mem_append_right m.current (mem_awaited hu hh ha)
    refine hbefore.congr (fun a ha => ?_) fun a ha => hmapped a (hin a ha)
    have hne : a ≠ headTD ed := fun he => hnot a ha (he ▸ List.mem_cons_self)
    exact hlink a hne (hin a ha)
  · exact List.forall_mem_cons.mpr ⟨headTD_aligned ed, hi.aligned⟩

theorem frameBegin_invariant (hi : Invariant m) (hs : step m .frameBegin = some m') :
    Invariant m' := by
  obtain ⟨hc, hbegin, rfl⟩ := Option.map_eq_some_iff.mp hs
  unfold frameBegin at hbegin
  split at hbegin
  · cases hbegin
  split at hbegin
  · obtain rfl := Option.some.inj hbegin
    have hwd : m.hc.fatal.Pending ↔ m.hc.Pending := fatal_pending m.hc
    obtain ⟨⟨hqueue, hhanded, honce, hunread⟩, haligned, hcount, hpending, hframe⟩ := hi
    exact ⟨⟨hqueue, hhanded, honce, hunread⟩, haligned, hcount,
      fun hu => hwd.mpr (hpending hu), hframe⟩
  · next h0 =>
    obtain rfl := Option.some.inj hbegin
    obtain ⟨⟨hqueue, hhanded, honce, hunread⟩, haligned, hcount, hpending, -⟩ := hi
    refine ⟨⟨hqueue, hhanded, honce, hunread⟩, haligned, hcount, hpending, ?_⟩
    intro hcca hframe
    obtain rfl := Option.some.inj hframe
    exact ⟨h0, fun _ => rfl⟩

/-- A stopped counter is not started by counting down. -/
theorem countDown_stopped {n : Nat} (h : countDown n ≠ 7) : n ≠ 7 := by
  intro he
  rw [he] at h
  exact h rfl

/-- The end of a frame without a hand-over. -/
theorem Invariant.kept {hc : OHCI} (hi : Invariant m) (hmem : hc.mem = m.hc.mem)
    (hnone : hc.frame = none) (hhead : hc.hcDoneHead = m.hc.hcDoneHead)
    (hcount : hc.doneCount ≠ 7 → m.hc.doneCount ≠ 7) (hwd : hc.Pending ↔ m.hc.Pending)
    (hword : m.unread = true → hc.hccaDoneHead = m.hc.hccaDoneHead) :
    Invariant { m with hc := hc } := by
  obtain ⟨⟨hqueue, hhanded, honce, hunread⟩, haligned, hstopped, hpending, -⟩ := hi
  refine ⟨⟨?_, hhanded, honce, ?_⟩, haligned, fun h => hstopped (hcount h),
    fun hu => hwd.mpr (hpending hu), fun hcca hf => ?_⟩
  · rw [hmem, hhead]
    exact hqueue
  · intro hu h hh
    rw [hmem, hword hu]
    exact hunread hu h hh
  · rw [hnone] at hf
    cases hf

/-- The end of a frame with a hand-over: the queue is not empty, and what the guest has
been given before is acknowledged. -/
theorem Invariant.handOver {hc : OHCI} (hi : Invariant m) (hover : m.hc.HandsOver)
    (hmem : hc.mem = m.hc.mem) (hnone : hc.frame = none) (hhead : hc.hcDoneHead = 0)
    (hcount : hc.doneCount = 7) (hwd : hc.Pending)
    (hword : hc.hccaDoneHead = m.hc.taggedDoneHead) : Invariant (m.handOver hc) := by
  obtain ⟨⟨hqueue, hhanded, honce, -⟩, haligned, hstopped, hpending, -⟩ := hi
  obtain ⟨hzero, hread⟩ := hover
  have hne : m.current ≠ [] := hstopped (by rw [hzero]; decide)
  have hacknowledged : m.unread = false := by
    cases hu : m.unread with
    | false => rfl
    | true => exact absurd (hpending hu) hread
  have hfirst : m.hc.hcDoneHead &&& OHCI_DPTR_MASK = m.hc.hcDoneHead := by
    cases hc : m.current with
    | nil => exact absurd hc hne
    | cons a as =>
      have hlinked := hqueue.1
      rw [hc] at hlinked
      rw [hlinked.1]
      exact haligned a (hc ▸ List.mem_cons_self)
  have hlisted : Listed hc.mem (hc.hccaDoneHead &&& OHCI_DPTR_MASK) m.current := by
    rw [hmem, hword, taggedDoneHead_and m.hc hfirst]
    exact hqueue
  refine ⟨⟨?_, ?_, ?_, ?_⟩, ?_, fun h => absurd hcount h, fun _ => hwd, fun hcca hf => ?_⟩
  · exact ⟨hhead, List.nodup_nil, fun _ ha => absurd ha List.not_mem_nil⟩
  · exact List.forall_mem_cons.mpr ⟨⟨hacknowledged, hne, hlisted⟩, hhanded⟩
  · exact honce
  · intro _ h hh
    obtain rfl := Option.some.inj hh
    exact ⟨rfl, fun _ => hlisted⟩
  · exact fun _ ha => absurd ha List.not_mem_nil
  · rw [Traced.handOver, hnone] at hf
    cases hf

theorem frameEnd_invariant (hi : Invariant m) (hs : step m .frameEnd = some m') :
    Invariant m' := by
  obtain ⟨hc, hend, rfl⟩ := Option.map_eq_some_iff.mp hs
  obtain ⟨hcca, hframe, hnone, hmem, -, hended⟩ := frameEnd_ended hend
  obtain ⟨hne, hcopy⟩ := hi.frame hcca hframe
  cases hended with
  | stopped hue hhead hcount hwd hword =>
    rw [if_neg fun h => hue h.1]
    exact hi.kept hmem hnone hhead (fun h => hcount ▸ h) hwd fun _ => hword
  | handed hue hover hhead hcount hwd hword =>
    rw [if_pos ⟨hue, hover⟩]
    exact hi.handOver hover hmem hnone hhead hcount hwd (hword hne)
  | counted hstays hhead hcount hwd hword =>
    rw [if_neg fun h => hstays h.2]
    refine hi.kept hmem hnone hhead (fun h => ?_) hwd fun hu => (hword hne).trans (hcopy hu)
    rw [hcount] at h
    exact countDown_stopped h

theorem acknowledge_invariant {value : Word} (hi : Invariant m)
    (hs : step m (.acknowledge value) = some m') : Invariant m' := by
  obtain rfl := Option.some.inj hs
  obtain ⟨⟨hqueue, hhanded, honce, hunread⟩, haligned, hcount, hpending, hframe⟩ := hi
  refine ⟨⟨hqueue, hhanded, honce, ?_⟩, haligned, hcount, ?_, ?_⟩
  · intro hu
    exact hunread (Bool.and_eq_true_iff.mp hu).1
  · intro hu
    obtain ⟨hu, hvalue⟩ := Bool.and_eq_true_iff.mp hu
    have hapart : value &&& OHCI_INTR_WD = 0#32 := of_decide_eq_true hvalue
    unfold OHCI.Pending acknowledge
    rw [and_not_and_of_apart hapart]
    exact hpending hu
  · intro hcca hf
    exact ⟨(hframe hcca hf).1, fun hu => (hframe hcca hf).2 (Bool.and_eq_true_iff.mp hu).1⟩

theorem elsewhere_invariant {e : Elsewhere} (hi : Invariant m) (hp : Proper m (.elsewhere e))
    (hs : step m (.elsewhere e) = some m') : Invariant m' := by
  obtain rfl := Option.some.inj hs
  obtain ⟨⟨huntouched, hword⟩, -⟩ := hp
  obtain ⟨⟨hqueue, hhanded, honce, hunread⟩, haligned, hcount, hpending, hframe⟩ := hi
  refine ⟨⟨?_, hhanded, honce, ?_⟩, haligned, hcount, ?_, ?_⟩
  · have hin (a : Word) (ha : a ∈ m.current) := huntouched a (List.mem_append_left _ ha)
    exact hqueue.congr (fun a ha => (hin a ha).1) fun a ha => (hin a ha).2
  · intro hu h hh
    obtain ⟨hsame, hlisted⟩ := hunread hu h hh
    have hin (a : Word) (ha : a ∈ h.tds) :=
      huntouched a (List.mem_append_right _ (mem_awaited hu hh ha))
    exact ⟨(hword hu).trans hsame,
      fun hnot => (hlisted hnot).congr (fun a ha => (hin a ha).1) fun a ha => (hin a ha).2⟩
  · intro hu
    have hapart : e.raised &&& ~~~OHCI_INTR_WD &&& OHCI_INTR_WD = 0#32 := by
      rw [BitVec.and_assoc, BitVec.not_and_self]
      exact BitVec.and_zero
    unfold OHCI.Pending Elsewhere.apply
    rw [or_and_of_apart hapart]
    exact hpending hu
  · intro hcca hf
    exact ⟨(hframe hcca hf).1, fun hu => ((hframe hcca hf).2 hu).trans (hword hu).symm⟩

theorem step_invariant {op : Operation} (hi : Invariant m) (hp : Proper m op)
    (hs : step m op = some m') : Invariant m' := by
  cases op with
  | retire ed r => exact retire_invariant hi hp hs
  | frameBegin => exact frameBegin_invariant hi hs
  | frameEnd => exact frameEnd_invariant hi hs
  | acknowledge value => exact acknowledge_invariant hi hs
  | elsewhere e => exact elsewhere_invariant hi hp hs

end Steps

/-! ## Every run -/

/-- Retired descriptors that lie in guest memory, and that are written over neither a link of
the queues nor the page table of their descriptors, are each found exactly once. -/
theorem retired_found_once (hc : OHCI) (paddr : Word) (ops : List Operation)
    (h : Guarded step Proper (start hc paddr) ops) : Always step Sound (start hc paddr) ops := by
  have hsteps : ∀ m op m', Invariant m → Proper m op → step m op = some m' → Invariant m' :=
    fun _ _ _ hi hp hs => step_invariant hi hp hs
  exact (always_of_guarded hsteps (start_invariant hc paddr) h).mono fun _ hi => hi.sound

/-! ## Runs -/

/-- The endpoint whose queue starts at `addr`. -/
def endpointFor (addr : Word) : EndpointDescriptor := ⟨0, 0, addr, 0⟩

/-- A controller over some memory. -/
def hostOver (mem : GuestMemory) : OHCI :=
  { controllerOver [] with
    mem := mem
    hcHCCA := 0, hcInterruptStatus := 0, hcInterrupt := 0, hcFmInterval := 0, hcFmRemaining := 0
    frame := none }

/-- Two descriptors retire and are handed over; before the guest acknowledges them,
another one retires. -/
def handedOver : List Operation :=
  [.retire (endpointFor 0x100) (.completed ⟨0, 0, 0x140, 0⟩),
    .retire (endpointFor 0x180) (.lastPacket ⟨0, 0x3000, 0x1A0, 0x3FFF, fun _ => 0xE000⟩),
    .frameBegin, .frameEnd, .retire (endpointFor 0x140) (.completed ⟨0, 0, 0x180, 0⟩),
    .frameBegin, .frameEnd, .acknowledge OHCI_INTR_WD, .frameBegin, .frameEnd]

theorem handedOver_found_once : Guarded step Proper (start (hostOver (memoryOver [])) 0x2000) handedOver ∧
    Always step Sound (start (hostOver (memoryOver [])) 0x2000) handedOver := by
  have hguarded : Guarded step Proper (start (hostOver (memoryOver [])) 0x2000) handedOver := by
    decide +kernel
  exact ⟨hguarded, retired_found_once (hostOver (memoryOver [])) 0x2000 handedOver hguarded⟩

/-- A descriptor with five packets at 0x100, in the second half of which there is another
one; the offset of the last packet is half of its NextTD. -/
def overlapping : List Operation :=
  [.retire (endpointFor 0xE200) (.completed ⟨0, 0, 0, 0⟩),
    .retire (endpointFor 0x110) (.completed ⟨0, 0, 0, 0⟩),
    .retire (endpointFor 0x100)
      (.lastPacket ⟨0x4000000, 0x3000, 0, 0x3FFF, fun i => if i = 4 then 8 else 0⟩)]

/-- The second descriptor is not in memory: only 4 MiB of virtual memory are mapped. -/
def outside : List Operation :=
  [.retire (endpointFor 0x100) (.completed ⟨0, 0, 0, 0⟩),
    .retire (endpointFor 0x400100) (.completed ⟨0, 0, 0, 0⟩)]

/-- Page directory entries 0, 1 and 4 lead to the first 4 MiB of RAM, and entry 6 to 4 MiB
further up. -/
def sharedFrames : GuestMemory :=
  { memoryOver [] with
    host := fun x =>
      if x = 0 ∨ x = 4 ∨ x = 16 ∨ x = 24 then 0x81 else if x = 26 then 0x80 else if x = 27 then 1 else 0 }

/-- The second descriptor overwrites the directory entry of the first. -/
def overTable : List Operation :=
  [.retire (endpointFor 0x1800100) (.completed ⟨0, 0, 0, 0⟩),
    .retire (endpointFor 0x10) (.completed ⟨0, 0, 0, 0⟩)]

/-- The descriptor overwrites directory entry 4, which its own address is translated with. -/
def overItself : List Operation := [.retire (endpointFor 0x1000010) (.completed ⟨0, 0, 0, 0⟩)]

/-- Where a retired descriptor runs into another one, is not in memory, is in the frame of another
one at another virtual address (as `outside` is, with shared frames), or is over the page table. -/
theorem distinct_addresses_not_enough :
    (Guarded step (fun m op => FirstTime m op ∧ InMemory m op ∧ Translated m op)
        (start (hostOver (memoryOver [])) 0x2000) overlapping ∧
      ¬ Always step Sound (start (hostOver (memoryOver [])) 0x2000) overlapping) ∧
    (Guarded step (fun m op => FirstTime m op ∧ Clear m op ∧ Translated m op)
        (start (hostOver (memoryOver [])) 0x2000) outside ∧
      ¬ Always step Sound (start (hostOver (memoryOver [])) 0x2000) outside) ∧
    (Guarded step (fun m op => FirstTime m op ∧ InMemory m op ∧ Translated m op)
        (start (hostOver sharedFrames) 0x2000) outside ∧
      ¬ Always step Sound (start (hostOver sharedFrames) 0x2000) outside) ∧
    (Guarded step (fun m op => FirstTime m op ∧ InMemory m op ∧ Clear m op)
        (start (hostOver sharedFrames) 0x2000) overTable ∧
      ¬ Always step Sound (start (hostOver sharedFrames) 0x2000) overTable) ∧
    (Guarded step (fun m op => FirstTime m op ∧ InMemory m op ∧ Clear m op)
        (start (hostOver sharedFrames) 0x2000) overItself ∧
      ¬ Always step Sound (start (hostOver sharedFrames) 0x2000) overItself) := by
  refine ⟨⟨by decide +kernel, fun h => ?_⟩, ⟨by decide +kernel, fun h => ?_⟩,
    ⟨by decide +kernel, fun h => ?_⟩, ⟨by decide +kernel, fun h => ?_⟩,
    ⟨by decide +kernel, fun h => ?_⟩⟩
  · have hlast := (((h.2 _ rfl).2 _ rfl).2 _ rfl).queue.1
    exact absurd hlast (by decide +kernel)
  · have hlast := ((h.2 _ rfl).2 _ rfl).queue.2.2 0x400100 List.mem_cons_self
    exact absurd hlast (by decide +kernel)
  · have hlast := ((h.2 _ rfl).2 _ rfl).queue.1
    exact absurd hlast (by decide +kernel)
  · have hlast := ((h.2 _ rfl).2 _ rfl).queue.2.2 0x1800100 (List.mem_cons_of_mem _ List.mem_cons_self)
    exact absurd hlast (by decide +kernel)
  · have hlast := (h.2 _ rfl).queue.2.2 0x1000010 List.mem_cons_self
    exact absurd hlast (by decide +kernel)

end OpenXbox.Ohci.DoneQueue
