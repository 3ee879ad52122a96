import OpenXbox.Nv2a.Puller

/-!
# The interrupt tree

PFIFO, PCRTC and PGRAPH have a bit in `NV_PMC_INTR_0` each, and PMC drives the interrupt
line. `UpdateIRQ` computes both from the interrupts of the engines. A write to the
interrupt registers of PGRAPH does not call it.
-/

namespace OpenXbox.Nv2a.InterruptTree

open OpenXbox.Lib.Run OpenXbox.Lib.Bits OpenXbox.Nv2a.Memory OpenXbox.Nv2a.Pusher OpenXbox.Nv2a.Registers
  OpenXbox.Nv2a.Mmio OpenXbox.Nv2a.Puller
open OpenXbox.Nv2a.Machine hiding Op step

/-- PMC and the interrupt line agree with the engines. -/
structure Settled (n : NV2ADevice) : Prop where
  pfifo : n.pmc.pending &&& NV_PMC_INTR_0_PFIFO ≠ 0 ↔ n.pfifo.raised = true
  pcrtc : n.pmc.pending &&& NV_PMC_INTR_0_PCRTC ≠ 0 ↔ n.pcrtc.interrupts.raised = true
  pgraph : n.pmc.pending &&& NV_PMC_INTR_0_PGRAPH ≠ 0 ↔ n.pgraph.interrupts.raised = true
  line : n.irq = true ↔ n.pmc.pending ≠ 0 ∧ n.pmc.enabled ≠ 0

theorem settled_reset (ram : Nat → Byte) (size clocks : Word) (command : BitVec 16)
    (u : Uninitialised) : Settled (NV2ADevice.reset ram size clocks command u) := by
  constructor
  all_goals
    simp [NV2ADevice.reset, Interrupts.none, Interrupts.raised, PCRTC.init, PGRAPH.init]

/-! ## `UpdateIRQ` -/

theorem putBits_self {bits : Word} (hbits : bits ≠ 0) (on : Bool) (word : Word) :
    putBits bits on word &&& bits ≠ 0 ↔ on = true := by
  cases on with
  | true =>
    have hset : putBits bits true word &&& bits = bits := or_and_cancel word bits
    rw [hset]
    exact iff_of_true hbits rfl
  | false =>
    have hclear : putBits bits false word &&& bits = 0 := by
      have hnot : ~~~bits &&& bits = 0#32 := by simp
      show (word &&& ~~~bits) &&& bits = 0
      rw [BitVec.and_assoc, hnot]
      simp
    rw [hclear]
    exact iff_of_false (not_not.mpr rfl) Bool.false_ne_true

theorem putBits_other {bits other : Word} (h : bits &&& other = 0#32) (on : Bool) (word : Word) :
    putBits bits on word &&& other = word &&& other := by
  cases on with
  | true => exact or_and_of_apart h
  | false => exact and_not_and_of_apart h

theorem settled_updateIRQ (n : NV2ADevice) : Settled n.updateIRQ := by
  unfold NV2ADevice.updateIRQ
  refine ⟨?_, ?_, ?_, ?_⟩
  · dsimp only
    rw [putBits_other (by decide), putBits_other (by decide)]
    exact putBits_self (by decide) _ _
  · dsimp only
    rw [putBits_other (by decide)]
    exact putBits_self (by decide) _ _
  · exact putBits_self (by decide) _ _
  · simp

/-! ## What leaves the tree alone -/

/-- Nothing changes that PMC and the interrupt line are computed from, nor these. -/
structure SameTree (n n' : NV2ADevice) : Prop where
  pmc : n'.pmc = n.pmc
  pfifo : n'.pfifo = n.pfifo
  pcrtc : n'.pcrtc.interrupts = n.pcrtc.interrupts
  irq : n'.irq = n.irq

/-- Without a new computation the tree stays settled when PGRAPH raises its interrupt as before. -/
theorem SameTree.settled_iff {n n' : NV2ADevice} (h : SameTree n n') (hs : Settled n) :
    Settled n' ↔ n'.pgraph.interrupts.raised = n.pgraph.interrupts.raised := by
  constructor
  · intro hs'
    have hiff := hs'.pgraph
    rw [h.pmc, hs.pgraph] at hiff
    exact (Bool.eq_iff_iff.mpr hiff).symm
  · intro hraised
    refine ⟨?_, ?_, ?_, ?_⟩
    · rw [h.pmc, h.pfifo]
      exact hs.pfifo
    · rw [h.pmc, h.pcrtc]
      exact hs.pcrtc
    · rw [h.pmc, hraised]
      exact hs.pgraph
    · rw [h.pmc, h.irq]
      exact hs.line

/-- A step that does not compute the tree, and leaves PGRAPH as it was. -/
structure Aside (n n' : NV2ADevice) : Prop extends SameTree n n' where
  pgraph : n'.pgraph.interrupts = n.pgraph.interrupts

theorem Aside.settled {n n' : NV2ADevice} (h : Aside n n') (hs : Settled n) : Settled n' :=
  (h.toSameTree.settled_iff hs).mpr (congrArg Interrupts.raised h.pgraph)

/-- A write to a block other than PGRAPH keeps the tree, or computes it. -/
theorem blockWrite_settled {n n' : NV2ADevice} {block : NV2ABlockInfo} {addr : Nat} {value : Word}
    {size : AccessSize} (hs : Settled n) (hmem : block ∈ memoryRegions) (hne : block ≠ Mmio.pgraph)
    (h : block.write n addr value size = .ok n') : Settled n' := by
  have haside (m : NV2ADevice) (hm : Aside n m) : Settled m := hm.settled hs
  cases blockWrite_cases hmem hne h with
  | interrupts pmc pfifo ptimer pcrtc => exact settled_updateIRQ _
  | _ => exact haside _ ⟨⟨rfl, rfl, rfl, rfl⟩, rfl⟩

/-! ## The threads of the device -/

theorem dispatch_settled {n n' : NV2ADevice} {command : CacheEntry} (hs : Settled n)
    (h : dispatch n command = some n') : Settled n' := by
  have haside (m : NV2ADevice) (phase : PullerPhase) : Aside m (setPhase m phase) :=
    ⟨⟨rfl, rfl, rfl, rfl⟩, rfl⟩
  rcases dispatch_cases h with ⟨phase, rfl⟩ | ⟨channelId, interrupts, phase, rfl⟩
  · exact (haside n phase).settled hs
  · exact (haside _ phase).settled (settled_updateIRQ _)

theorem pullerStep_settled {n n' : NV2ADevice} (hs : Settled n) (h : pullerStep n = some n') :
    Settled n' := by
  have haside (m : NV2ADevice) (hm : some m = some n') (hq : Aside n m) : Settled n' := by
    cases hm
    exact hq.settled hs
  unfold pullerStep at h
  cases hphase : n.puller.phase with
  | outer =>
    rw [hphase] at h
    exact haside _ h ⟨⟨rfl, rfl, rfl, rfl⟩, rfl⟩
  | waiting =>
    rw [hphase] at h
    dsimp only at h
    split_ifs at h <;> exact haside _ h ⟨⟨rfl, rfl, rfl, rfl⟩, rfl⟩
  | inner =>
    rw [hphase] at h
    dsimp only at h
    split at h
    · exact haside _ h ⟨⟨rfl, rfl, rfl, rfl⟩, rfl⟩
    · next command rest _ =>
      have hrest : Aside n { n with puller.workingCache := rest } := ⟨⟨rfl, rfl, rfl, rfl⟩, rfl⟩
      exact dispatch_settled (hrest.settled hs) h
  | switching command entry =>
    rw [hphase] at h
    dsimp only at h
    split_ifs at h
    exact haside _ h ⟨⟨rfl, rfl, rfl, rfl⟩, rfl⟩
  | access command entry parameter =>
    rw [hphase] at h
    dsimp only at h
    split_ifs at h
    exact haside _ h ⟨⟨rfl, rfl, rfl, rfl⟩, rfl⟩
  | method command entry parameter =>
    rw [hphase] at h
    obtain ⟨m, -, hn⟩ := Option.map_eq_some_iff.mp h
    exact haside _ (congrArg some hn) ⟨⟨rfl, rfl, rfl, rfl⟩, rfl⟩
  | done command entry =>
    rw [hphase] at h
    exact haside _ h ⟨⟨rfl, rfl, rfl, rfl⟩, rfl⟩
  | ended =>
    rw [hphase] at h
    cases h

theorem vblank_settled {n : NV2ADevice} (hs : Settled n) : Settled (vblank n) := by
  unfold vblank
  split
  · exact settled_updateIRQ _
  · exact hs

/-! ## Runs -/

/-- A write to an interrupt register of PGRAPH does not change whether PGRAPH has an
interrupt that is pending and enabled. -/
def Harmless (n : NV2ADevice) : Op → Prop
  | .access (.write barIndex addr value _) =>
    n.machine.call = none → barIndex ≠ 1 →
      (addr = Mmio.pgraph.address NV_PGRAPH_INTR →
        (n.pgraph.interrupts.pending &&& ~~~value &&& n.pgraph.interrupts.enabled ≠ 0 ↔
          n.pgraph.interrupts.pending &&& n.pgraph.interrupts.enabled ≠ 0)) ∧
      (addr = Mmio.pgraph.address NV_PGRAPH_INTR_EN →
        (n.pgraph.interrupts.pending &&& value ≠ 0 ↔
          n.pgraph.interrupts.pending &&& n.pgraph.interrupts.enabled ≠ 0))
  | _ => True

theorem pgraphWrite_settled_iff {n n' : NV2ADevice} {addr : Nat} {value : Word} {size : AccessSize}
    (hs : Settled n) (h : pgraphWrite n addr value size = .ok n') :
    Settled n' ↔
      (pgraphInterrupts n.pgraph.interrupts addr value).raised = n.pgraph.interrupts.raised := by
  obtain ⟨valid, g, rfl, hinterrupts, -⟩ := pgraphWrite_cases h
  have hsame : SameTree n { n with machine.pgraph.channelValid := valid, pgraph := g } :=
    ⟨rfl, rfl, rfl, rfl⟩
  rw [hsame.settled_iff hs, ← hinterrupts]

/-- A write keeps the tree settled exactly when it is harmless. -/
theorem write_settled_iff {n n' : NV2ADevice} {barIndex : Nat} {addr value : Word} {size : AccessSize}
    (hs : Settled n) (hcall : n.machine.call = none)
    (h : pciMMIOWrite n barIndex addr value size = .ok n') :
    Settled n' ↔ Harmless n (.access (.write barIndex addr value size)) := by
  unfold pciMMIOWrite at h
  by_cases hbar : barIndex = 1
  · rw [if_pos hbar] at h
    cases h
    have haside (m : Machine.State) : Aside n { n with machine := m } := ⟨⟨rfl, rfl, rfl, rfl⟩, rfl⟩
    exact iff_of_true ((haside _).settled hs) fun _ hne => absurd hbar hne
  rw [if_neg hbar] at h
  have hother (hne : findBlock addr ≠ some Mmio.pgraph) :
      Harmless n (.access (.write barIndex addr value size)) := by
    refine fun _ _ => ⟨fun haddr => ?_, fun haddr => ?_⟩
    · rw [haddr] at hne
      exact absurd rfl hne
    · rw [haddr] at hne
      exact absurd rfl hne
  cases hfind : findBlock addr with
  | none =>
    rw [hfind] at h
    cases h
    exact iff_of_true hs (hother (by simp [hfind]))
  | some block =>
    rw [hfind] at h
    by_cases hblock : block = Mmio.pgraph
    · subst hblock
      have hintr := offset_eq_iff hfind (show Mmio.pgraph.offset + NV_PGRAPH_INTR < 2 ^ 32 by decide)
      have henable := offset_eq_iff hfind (show Mmio.pgraph.offset + NV_PGRAPH_INTR_EN < 2 ^ 32 by decide)
      have hblock : Mmio.pgraph.write = pgraphWrite := rfl
      dsimp only at h
      rw [hblock] at h
      rw [pgraphWrite_settled_iff hs h, pgraphInterrupts]
      simp only [hintr, henable]
      have hne : Mmio.pgraph.address NV_PGRAPH_INTR ≠ Mmio.pgraph.address NV_PGRAPH_INTR_EN := by decide
      unfold Harmless
      dsimp only
      by_cases h1 : addr = Mmio.pgraph.address NV_PGRAPH_INTR
      · simp [h1, hne, hcall, hbar, Interrupts.raised, Interrupts.acknowledge]
        exact not_iff_not.symm
      by_cases h2 : addr = Mmio.pgraph.address NV_PGRAPH_INTR_EN
      · simp [h2, hne.symm, hcall, hbar, Interrupts.raised, Interrupts.enable]
        exact not_iff_not.symm
      · simp [h1, h2]
    · exact iff_of_true (blockWrite_settled hs (findBlock_mem hfind) hblock h)
        (hother fun he => hblock (Option.some.inj (hfind.symm.trans he)))

theorem read_settled {n n' : NV2ADevice} {nanoseconds : BitVec 64} {barIndex : Nat}
    {addr value : Word} {size : AccessSize} (hs : Settled n)
    (h : access n (.read nanoseconds barIndex addr value size) = .ok n') : Settled n' := by
  obtain ⟨st01, rfl⟩ := access_read h
  have haside : Aside n { n with st01 := st01 } := ⟨⟨rfl, rfl, rfl, rfl⟩, rfl⟩
  exact haside.settled hs

/-- A step keeps the tree settled exactly when it is harmless. -/
theorem step_settled_iff (n : NV2ADevice) (op : Op) (hs : Settled n) :
    (∀ n', step n op = some n' → Settled n') ↔ Harmless n op := by
  have hmachine (m : Machine.State) : Aside n { n with machine := m } := ⟨⟨rfl, rfl, rfl, rfl⟩, rfl⟩
  cases op with
  | access a =>
    cases a with
    | read nanoseconds barIndex addr value size =>
      exact iff_of_true (fun n' h => read_settled hs (step_access.mp h).2) trivial
    | write barIndex addr value size =>
      constructor
      · intro h hcall hbar
        cases hwrite : pciMMIOWrite n barIndex addr value size with
        | ok n' =>
          have hsettled := h n' (step_access.mpr ⟨hcall, hwrite⟩)
          exact (write_settled_iff hs hcall hwrite).mp hsettled hcall hbar
        | error fault =>
          -- the writes to the two registers return
          refine ⟨fun haddr => ?_, fun haddr => ?_⟩
          · rw [haddr] at hwrite
            unfold pciMMIOWrite at hwrite
            rw [if_neg hbar] at hwrite
            cases hwrite
          · rw [haddr] at hwrite
            unfold pciMMIOWrite at hwrite
            rw [if_neg hbar] at hwrite
            cases hwrite
      · intro hharmless n' h
        obtain ⟨hcall, hwrite⟩ := step_access.mp h
        exact (write_settled_iff hs hcall hwrite).mpr hharmless
  | ram i byte =>
    refine iff_of_true (fun n' h => ?_) trivial
    cases h
    exact (hmachine _).settled hs
  | pusher =>
    refine iff_of_true (fun n' h => ?_) trivial
    obtain ⟨m, -, rfl⟩ := Option.map_eq_some_iff.mp h
    exact (hmachine m).settled hs
  | puller => exact iff_of_true (fun n' h => pullerStep_settled hs h) trivial
  | setRegister register value =>
    refine iff_of_true (fun n' h => ?_) trivial
    obtain ⟨-, rfl⟩ := step_setRegister.mp h
    have haside : Aside n
        { n with pgraph.regs := Function.update n.pgraph.regs register value } :=
      ⟨⟨rfl, rfl, rfl, rfl⟩, rfl⟩
    exact haside.settled hs
  | vblank =>
    refine iff_of_true (fun n' h => ?_) trivial
    cases h
    exact vblank_settled hs
  | destroy =>
    refine iff_of_true (fun n' h => ?_) trivial
    cases h
    have haside : Aside n { n with puller.running := false } := ⟨⟨rfl, rfl, rfl, rfl⟩, rfl⟩
    exact haside.settled hs

/-- From a reset, PMC and the interrupt line agree with the engines throughout a run exactly
when all its writes are harmless. -/
theorem settled_iff_harmless (ram : Nat → Byte) (size clocks : Word) (command : BitVec 16)
    (u : Uninitialised) (ops : List Op) :
    Always step Settled (NV2ADevice.reset ram size clocks command u) ops ↔
      Guarded step Harmless (NV2ADevice.reset ram size clocks command u) ops :=
  always_iff_guarded step_settled_iff (settled_reset ram size clocks command u)

/-- The device over a push buffer that binds object 0 to subchannel 0. -/
def bindingDevice : NV2ADevice :=
  NV2ADevice.reset (leBytes [0x00040000, 0]) 0x4000000 1000000 0 ⟨0, 0, 0, fun _ _ => 0, fun _ => 0, 0⟩

/-- One word of RAMIN is the limit of the DMA object and the context of the graphics object. The
puller asks for a context switch, which the guest acknowledges at PGRAPH. -/
def contextSwitchRun : List Op :=
  [registerWrite 0x700004 0x80010000, registerWrite 0x002504 1, registerWrite 0x003204 0x100,
    registerWrite 0x003200 1, registerWrite 0x003220 1, registerWrite 0x400140 0x1000,
    registerWrite 0x800040 8, .pusher, .pusher, .pusher, registerWrite 0x003250 1,
    .puller, .puller, .puller, registerWrite 0x400100 0x1000]

theorem acknowledged_context_switch_stays : ¬ Always step Settled bindingDevice contextSwitchRun := by
  intro h
  have hrun : ∃ t, exec step bindingDevice contextSwitchRun = some t ∧
      t.pmc.pending = NV_PMC_INTR_0_PGRAPH ∧ t.pgraph.interrupts.raised = false := ⟨_, rfl, rfl, rfl⟩
  obtain ⟨t, ht, hpending, hraised⟩ := hrun
  have hpgraph := (h.exec ht).pgraph
  rw [hpending, hraised] at hpgraph
  exact Bool.false_ne_true (hpgraph.mp (by decide))

end OpenXbox.Nv2a.InterruptTree
