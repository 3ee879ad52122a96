import OpenXbox.Ohci.DoneQueue
import OpenXbox.Ohci.Progress

/-!
# Services and the done queue

The service of a descriptor is made of the steps that the done queue is traced by: it
changes nothing of the queue, or writes its descriptor back, or retires it.
-/

namespace OpenXbox.Ohci.Retirements

open OpenXbox.Lib.Run OpenXbox.Lib.Bits OpenXbox.Ohci.Memory OpenXbox.Ohci.Service
  OpenXbox.Ohci.Layout OpenXbox.Ohci.Frame OpenXbox.Ohci.DoneQueue

/-- Guest memory and the done queue are as they were. -/
structure Aside (hc hc' : Controller) : Prop where
  mem : hc'.mem = hc.mem
  head : hc'.hcDoneHead = hc.hcDoneHead
  count : hc'.doneCount = hc.doneCount

theorem Aside.refl (hc : Controller) : Aside hc hc := ⟨rfl, rfl, rfl⟩

theorem Aside.trans {hc hc' hc'' : Controller} (h : Aside hc hc') (h' : Aside hc' hc'') :
    Aside hc hc'' := ⟨h'.mem.trans h.mem, h'.head.trans h.head, h'.count.trans h.count⟩

theorem copied_aside {es : List Event} {hc hc' : Controller} (h : Copied es hc hc') : Aside hc hc' := by
  obtain ⟨host, usbBuffer, unrecoverable, rfl⟩ := h
  exact ⟨rfl, rfl, rfl⟩

/-- What the service of the descriptor at `addr` does; `next` is its NextTD as it was read. -/
inductive Outcome (n : Nat) (addr next : Word) (hc hc' : Controller) : Prop where
  | aside (h : Aside hc hc')
  | writtenBack {hc₁ : Controller} {bytes : Nat → Byte} (h0 : addr ≠ 0) (h : Aside hc hc₁)
      (hnext : wordAt bytes 8 = next)
      (he : hc' = { hc₁ with mem := vmemWrite hc₁.mem addr n bytes })
  | retired {hc₁ : Controller} (ed : EndpointDescriptor) (r : Retirement) (h0 : addr ≠ 0)
      (h : Aside hc hc₁) (hn : r.size = n) (he : hc' = r.perform hc₁ ed addr)

variable {n : Nat} {addr next : Word} {hc hc' : Controller}

theorem Outcome.after {hc₀ : Controller} (h₀ : Aside hc₀ hc) (h : Outcome n addr next hc hc') :
    Outcome n addr next hc₀ hc' := by
  cases h with
  | aside h => exact .aside (h₀.trans h)
  | writtenBack h0 h hnext he => exact .writtenBack h0 (h₀.trans h) hnext he
  | retired ed r h0 h hn he => exact .retired ed r h0 (h₀.trans h) hn he

/-! ## General descriptors -/

section General

variable {td : TransferDescriptor}

theorem settleTD_outcome (hc : Controller) (ed : EndpointDescriptor) (td : TransferDescriptor)
    (dir ret : Word) (h0 : addr ≠ 0) :
    Outcome 16 addr td.nextTD hc (settleTD hc ed td addr dir ret).hc := by
  have hmoved : (moved td ret).nextTD = td.nextTD := Progress.moved_nextTD
  unfold settleTD
  split
  · dsimp only
    split
    · exact .writtenBack h0 (.refl hc)
        ((nextTD_bytes (transmittedTD (moved td ret) (bufferLength td) ret)).trans hmoved) rfl
    · exact .retired _ (.completed (transmittedTD (moved td ret) (bufferLength td) ret)) h0 (.refl hc)
        rfl rfl
  split
  · exact .aside (.refl hc)
  · exact .retired _ (.completed { moved td ret with flags := failedFlags td.flags ret }) h0 (.refl hc)
      rfl rfl

theorem finishTD_outcome (hc : Controller) (ed : EndpointDescriptor) (td : TransferDescriptor)
    (dir : Word) (h0 : addr ≠ 0) :
    Outcome 16 addr td.nextTD hc (finishTD hc ed td addr dir).hc := by
  have hreturn : Aside hc (returnData hc td dir) := by
    unfold returnData
    split
    · exact copied_aside (copyTD_copied hc td hc.packet.ret.toNat true)
    · exact .refl hc
  exact (settleTD_outcome (returnData hc td dir) ed td dir (transferred hc ed td dir) h0).after hreturn

theorem fetchTD_aside (hc : Controller) (ed : EndpointDescriptor) (td : TransferDescriptor)
    (dir : Word) (completion : Bool) : Aside hc (fetchTD hc ed td dir completion) := by
  unfold fetchTD
  split
  · exact copied_aside (copyTD_copied hc td (packetLength ed td dir) false)
  · exact .refl hc

theorem transferTD_outcome (a : Answer) (hc : Controller) (ed : EndpointDescriptor)
    (td : TransferDescriptor) (completion : Bool) (h0 : addr ≠ 0) :
    Outcome 16 addr td.nextTD hc (transferTD a hc ed td addr completion).hc := by
  unfold transferTD
  dsimp only
  split
  · exact .aside (.refl hc)
  have hfetch := fetchTD_aside hc ed td (direction ed td) completion
  generalize fetchTD hc ed td (direction ed td) completion = fetched at hfetch ⊢
  split
  · have hdone : Aside fetched { fetched with asyncTD := 0, asyncComplete := false } := ⟨rfl, rfl, rfl⟩
    exact (finishTD_outcome _ ed td (direction ed td) h0).after (hfetch.trans hdone)
  split
  · exact .aside hfetch
  have hsubmit : Aside fetched (submit fetched a (packetLength ed td (direction ed td))) :=
    ⟨rfl, rfl, rfl⟩
  generalize submit fetched a (packetLength ed td (direction ed td)) = sent at hsubmit ⊢
  split
  · have hwait : Aside sent { sent with asyncTD := addr } := ⟨rfl, rfl, rfl⟩
    exact .aside (hfetch.trans (hsubmit.trans hwait))
  · exact (finishTD_outcome sent ed td (direction ed td) h0).after (hfetch.trans hsubmit)

/-- The service of a general descriptor. -/
theorem serviceTD_outcome (env : Nat → Answer) (hc : Controller) (ed : EndpointDescriptor) :
    Outcome 16 (headTD ed) (readTD hc.mem (headTD ed) (hc.answer env).stack).nextTD hc
      (serviceTD env hc ed).hc := by
  have hcalled : Aside hc hc.called := ⟨rfl, rfl, rfl⟩
  unfold serviceTD headTD
  dsimp only
  split
  · exact .aside hcalled
  split
  · exact .aside ⟨rfl, rfl, rfl⟩
  · next h0 => exact (transferTD_outcome _ hc.called ed _ _ h0).after hcalled

end General

/-! ## Isochronous descriptors -/

section Iso

theorem retireIfLast_outcome (hc : Controller) (ed : EndpointDescriptor) (td : IsoDescriptor) (r : Nat)
    (h0 : addr ≠ 0) : Outcome 32 addr td.nextTD hc (retireIfLast hc ed td addr r).hc := by
  by_cases hlast : r = frameCount td
  · rw [hlast]
    exact .retired ed (.lastPacket td) h0 (.refl hc) rfl rfl
  · have hback : retireIfLast hc ed td addr r = ⟨true, writeBackIsoTD hc td addr, ed⟩ := if_neg hlast
    rw [hback]
    exact .writtenBack h0 (.refl hc) (nextTD_isoBytes td) rfl

theorem failedStatus_nextTD (td : IsoDescriptor) (r len : Nat) (ret : Word) :
    (failedStatus td r len ret).nextTD = td.nextTD := by
  unfold failedStatus
  repeat' split
  all_goals rfl

theorem finishIsoTD_outcome (hc : Controller) (ed : EndpointDescriptor) (td : IsoDescriptor)
    (dir : Word) (r len : Nat) (h0 : addr ≠ 0) :
    Outcome 32 addr td.nextTD hc (finishIsoTD hc ed td addr dir r len).hc := by
  have hcopied := copied_aside
    (copyIsoTD_copied hc (isoStart td r) (isoEnd td r) hc.packet.ret.toNat true)
  unfold finishIsoTD
  dsimp only
  split
  · split
    · next h =>
      rw [h] at hcopied
      exact .aside (hcopied.trans ⟨rfl, rfl, rfl⟩)
    · next h =>
      rw [h] at hcopied
      exact (retireIfLast_outcome _ ed (setStatus td r OHCI_CC_NOERROR (some hc.packet.ret.toNat))
        r h0).after hcopied
  split
  · exact retireIfLast_outcome hc ed (setStatus td r OHCI_CC_NOERROR (some 0)) r h0
  · rw [← failedStatus_nextTD td r len hc.packet.ret]
    exact retireIfLast_outcome hc ed _ r h0

theorem fetchIsoTD_aside (hc : Controller) (td : IsoDescriptor) (dir : Word) (r len : Nat) :
    Aside hc (fetchIsoTD hc td dir r len).1 := by
  unfold fetchIsoTD
  split
  · exact copied_aside (copyIsoTD_copied hc (isoStart td r) (isoEnd td r) len false)
  · exact .refl hc

theorem transferIsoTD_outcome (a : Answer) (hc : Controller) (ed : EndpointDescriptor)
    (td : IsoDescriptor) (dir : Word) (r len : Nat) (completion : Bool) (h0 : addr ≠ 0) :
    Outcome 32 addr td.nextTD hc (transferIsoTD a hc ed td addr dir r len completion).hc := by
  have hfetch := fetchIsoTD_aside hc td dir r len
  unfold transferIsoTD
  dsimp only
  generalize fetchIsoTD hc td dir r len = fetched at hfetch ⊢
  have hfatal : Aside fetched.1 fetched.1.fatalError := ⟨rfl, rfl, rfl⟩
  have hsubmit : Aside fetched.1 (submit fetched.1 a len) := ⟨rfl, rfl, rfl⟩
  split
  · exact .aside (hfetch.trans hfatal)
  split
  · exact (finishIsoTD_outcome fetched.1 ed td dir r len h0).after hfetch
  split
  · exact .aside (hfetch.trans hsubmit)
  · exact (finishIsoTD_outcome (submit fetched.1 a len) ed td dir r len h0).after (hfetch.trans hsubmit)

theorem frameIsoTD_outcome (a : Answer) (hc : Controller) (ed : EndpointDescriptor)
    (td : IsoDescriptor) (r : Nat) (completion : Bool) (h0 : addr ≠ 0) :
    Outcome 32 addr td.nextTD hc (frameIsoTD a hc ed td addr r completion).hc := by
  have hlog : Aside hc ((hc.log (.readOffset r)).log (.readOffset (r + 1))) := ⟨rfl, rfl, rfl⟩
  unfold frameIsoTD
  dsimp only
  split
  · exact .aside (.refl hc)
  split
  · exact .aside (.refl hc)
  split
  · exact .aside hlog
  · exact (transferIsoTD_outcome a ((hc.log (.readOffset r)).log (.readOffset (r + 1))) ed td _ r _
      completion h0).after hlog

/-- The service of an isochronous descriptor. -/
theorem serviceIsoTD_outcome (env : Nat → Answer) (hc : Controller) (ed : EndpointDescriptor)
    (completion : Bool) :
    Outcome 32 (headTD ed) (readIsoTD hc.mem (headTD ed) (hc.answer env).stack).nextTD hc
      (serviceIsoTD env hc ed completion).hc := by
  have hcalled : Aside hc hc.called := ⟨rfl, rfl, rfl⟩
  unfold serviceIsoTD headTD
  dsimp only
  split
  · exact .aside ⟨rfl, rfl, rfl⟩
  next h0 =>
  split
  · exact .aside hcalled
  split
  · exact .retired ed (.expired _) h0 hcalled rfl rfl
  · exact (frameIsoTD_outcome _ hc.called ed _ _ completion h0).after hcalled

end Iso

/-! ## Services as steps -/

/-- NextTD of a descriptor that is mapped, as either service reads it. -/
theorem readTD_nextTD {mem : GuestMemory} (hm : mapped mem addr 16 = true) (old : Nat → Byte) :
    (readTD mem addr old).nextTD = nextTDAt mem addr := by
  rw [readTD_eq hm]
  rfl

theorem readIsoTD_nextTD {mem : GuestMemory} (hm : mapped mem addr 16 = true) (old : Nat → Byte) :
    (readIsoTD mem addr old).nextTD = nextTDAt mem addr := by
  have hread (j : Nat) (hj : j < 16) :
      vmemRead mem addr 32 old j = vmemRead mem addr 16 (fun _ => 0) j := by
    rw [vmemRead_of_mapped (by decide) hm hj, vmemRead_eq (by decide)]
    exact if_pos ⟨by omega, mapped_of_le hm (by omega)⟩
  exact wordAt_congr hread (by decide)

theorem Retirement.perform_endpoint (r : Retirement) (hc : Controller) (ed ed' : EndpointDescriptor)
    (addr : Word) : r.perform hc ed addr = r.perform hc ed' addr := by
  cases r with
  | completed td => rfl
  | expired td => rfl
  | lastPacket td =>
    unfold DoneQueue.Retirement.perform retireIfLast
    dsimp only
    rw [if_pos rfl, if_pos rfl]

/-- The descriptor of `n` bytes at `addr` can be serviced: it is in memory, it is not in
the done queue, and it is written over no link of the queues and no page table entry that
descriptors of the queues and itself are translated with. -/
structure Ready (m : Traced) (n : Nat) (addr : Word) : Prop where
  mapped : mapped m.hc.mem addr 16 = true
  fresh : addr ∉ m.current
  clear : ∀ a ∈ m.current ++ m.awaited, a ≠ addr →
    ∀ x ∈ places m.hc.mem addr n, x ∉ places m.hc.mem (a + 8) 4
  keeps : Keeps m.hc.mem addr n
  translated : ∀ a ∈ m.current ++ m.awaited, ∀ x ∈ places m.hc.mem addr n, x ∉ entries m.hc.mem a 16

section Steps

variable {m : Traced} {ed : EndpointDescriptor}

/-- The change to `hc'`, with the error of a failed service among the interrupts. -/
def changeTo (m : Traced) (hc' : Controller) : Elsewhere :=
  { hc := hc', hcInterrupt := m.hc.hcInterrupt, hcFmInterval := m.hc.hcFmInterval
    hcFmRemaining := m.hc.hcFmRemaining, raised := if hc'.unrecoverable then OHCI_INTR_UE else 0 }

theorem changeTo_apply (m : Traced) (hc' : Controller) (hhead : hc'.hcDoneHead = m.hc.hcDoneHead)
    (hcount : hc'.doneCount = m.hc.doneCount) : ((changeTo m hc').apply m.hc).toController = hc' := by
  unfold Elsewhere.apply changeTo
  dsimp only
  rw [← hhead, ← hcount]

theorem aside_untouched (h : Aside m.hc.toController hc')
    (hhost : m.unread = true → (readHCCA hc'.host m.hc.hcHCCA).doneHead = m.hc.hccaDoneHead) :
    Untouched m (changeTo m hc') := by
  refine ⟨fun a _ => ?_, hhost⟩
  have hmem : (changeTo m hc').hc.mem = m.hc.mem := h.mem
  rw [hmem]
  exact ⟨rfl, rfl⟩

/-- A descriptor written back keeps its own link, and those of the others. -/
theorem writtenBack_untouched {hc₁ : Controller} {bytes : Nat → Byte} (hn : n = 16 ∨ n = 32)
    (hready : Ready m n (headTD ed)) (h : Aside m.hc.toController hc₁)
    (hnext : wordAt bytes 8 = nextTDAt m.hc.mem (headTD ed))
    (hhost : m.unread = true → (readHCCA hc₁.host m.hc.hcHCCA).doneHead = m.hc.hccaDoneHead) :
    Untouched m (changeTo m { hc₁ with mem := vmemWrite hc₁.mem (headTD ed) n bytes }) := by
  refine ⟨fun a ha => ?_, hhost⟩
  have hmem : hc₁.mem = m.hc.mem := h.mem
  unfold changeTo
  dsimp only
  rw [hmem]
  refine ⟨?_, mapped_spared hready.keeps hn (hready.translated a ha)⟩
  by_cases he : a = headTD ed
  · rw [he]
    exact (nextTDAt_vmemWrite hready.keeps hready.mapped hn).trans hnext
  · exact nextTDAt_spared hready.keeps hn ⟨hready.clear a ha he, hready.translated a ha⟩

/-- What a service does to the controller, the steps of a run do to it. -/
theorem outcome_operations (hn : n = 16 ∨ n = 32)
    (ho : Outcome n (headTD ed) next m.hc.toController hc')
    (hready : headTD ed ≠ 0 → Ready m n (headTD ed) ∧ next = nextTDAt m.hc.mem (headTD ed))
    (hhost : m.unread = true → (readHCCA hc'.host m.hc.hcHCCA).doneHead = m.hc.hccaDoneHead) :
    ∃ ops m', Guarded step Proper m ops ∧ exec step m ops = some m' ∧ m'.hc.toController = hc' := by
  cases ho with
  | aside h =>
    have hproper : Proper m (.elsewhere (changeTo m hc')) :=
      ⟨aside_untouched h hhost, trivial, trivial, trivial⟩
    exact ⟨[.elsewhere (changeTo m hc')], _, ⟨hproper, fun _ _ => trivial⟩, rfl,
      changeTo_apply m _ h.head h.count⟩
  | @writtenBack hc₁ bytes h0 h hnext he =>
    obtain ⟨hr, hlink⟩ := hready h0
    subst he
    have hproper : Proper m (.elsewhere (changeTo m
        { hc₁ with mem := vmemWrite hc₁.mem (headTD ed) n bytes })) :=
      ⟨writtenBack_untouched hn hr h (hnext.trans hlink) hhost, trivial, trivial, trivial⟩
    have happly := changeTo_apply m { hc₁ with mem := vmemWrite hc₁.mem (headTD ed) n bytes }
      h.head h.count
    exact ⟨[.elsewhere (changeTo m { hc₁ with mem := vmemWrite hc₁.mem (headTD ed) n bytes })], _,
      ⟨hproper, fun _ _ => trivial⟩, rfl, happly⟩
  | @retired hc₁ ed' r h0 h hsize he =>
    obtain ⟨hr, -⟩ := hready h0
    have happly : ((changeTo m hc₁).apply m.hc).toController = hc₁ := changeTo_apply m _ h.head h.count
    have hsame : hc'.host = hc₁.host := by
      obtain ⟨bytes, doneCount, -, hperform⟩ := r.perform_eq hc₁ ed' (headTD ed)
      rw [he, hperform]
    rw [hsame] at hhost
    have hproper : Proper m (.elsewhere (changeTo m hc₁)) :=
      ⟨aside_untouched h hhost, trivial, trivial, trivial⟩
    have hretire : Proper { m with hc := (changeTo m hc₁).apply m.hc } (.retire ed r) := by
      have hmem : ((changeTo m hc₁).apply m.hc).mem = m.hc.mem := h.mem
      unfold Proper FirstTime InMemory Clear Translated
      dsimp only
      rw [hmem, hsize]
      exact ⟨⟨h0, hr.fresh⟩, hr.mapped, hr.clear, hr.keeps, hr.translated⟩
    refine ⟨[.elsewhere (changeTo m hc₁), .retire ed r], _, ⟨hproper, fun m₁ hs => ?_⟩, rfl, ?_⟩
    · obtain rfl := Option.some.inj hs
      exact ⟨hretire, fun _ _ => trivial⟩
    · dsimp only
      rw [happly, he]
      exact Retirement.perform_endpoint r hc₁ ed ed' (headTD ed)

/-- The service of the descriptor at the head of a queue is a run of the done queue: it
keeps the queue sound, when the descriptor can be serviced and no data goes to HccaDoneHead. -/
theorem serviceHead_operations (env : Nat → Answer) (w : Walk) (completion : Bool)
    (hw : w.hc = m.hc.toController)
    (hready : headTD w.ed ≠ 0 →
      Ready m (if w.ed.flags &&& OHCI_ED_F = 0 then 16 else 32) (headTD w.ed))
    (hhost : m.unread = true →
      (readHCCA (serviceHead env w completion).hc.host m.hc.hcHCCA).doneHead = m.hc.hccaDoneHead) :
    ∃ ops m', Guarded step Proper m ops ∧ exec step m ops = some m' ∧
      m'.hc.toController = (serviceHead env w completion).hc := by
  unfold serviceHead at hhost ⊢
  split at hready
  · next hg =>
    rw [if_pos hg] at hhost ⊢
    have ho := serviceTD_outcome env w.hc w.ed
    rw [hw] at ho hhost ⊢
    exact outcome_operations (.inl rfl) ho
      (fun h0 => ⟨hready h0, readTD_nextTD (hready h0).mapped _⟩) hhost
  · next hf =>
    rw [if_neg hf] at hhost ⊢
    have ho := serviceIsoTD_outcome env w.hc w.ed completion
    rw [hw] at ho hhost ⊢
    exact outcome_operations (.inr rfl) ho
      (fun h0 => ⟨hready h0, readIsoTD_nextTD (hready h0).mapped _⟩) hhost

end Steps

end OpenXbox.Ohci.Retirements
