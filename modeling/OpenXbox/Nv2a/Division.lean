import OpenXbox.Nv2a.Puller

/-!
# Divisions in register accesses

The clock of PTIMER is computed with a division by a product with the denominator that
the guest has set, and an increment of the buffer to be read takes a remainder by their
number, a field of the surface register. Both divisors are zero after a reset.
-/

namespace OpenXbox.Nv2a.Division

open OpenXbox.Lib.Run OpenXbox.Lib.BitField OpenXbox.Nv2a.Memory OpenXbox.Nv2a.Pusher
  OpenXbox.Nv2a.Registers OpenXbox.Nv2a.Mmio OpenXbox.Nv2a.Puller
open OpenXbox.Nv2a.Machine hiding Op step

/-! ## The divisions -/

theorem divide_of_ne_zero {w : Nat} {b : BitVec w} (hb : b ≠ 0) (a : BitVec w) :
    divide a b = .ok (a / b) := if_neg hb

theorem remainder_of_ne_zero {w : Nat} {b : BitVec w} (hb : b ≠ 0) (a : BitVec w) :
    remainder a b = .ok (a % b) := if_neg hb

theorem ite_ok_eq_error_iff {α : Type} {c : Prop} [Decidable c] {a : α} {rest : Except Fault α}
    {fault : Fault} : (if c then .ok a else rest) = .error fault ↔ ¬ c ∧ rest = .error fault := by
  by_cases hc : c
  · rw [if_pos hc]
    exact iff_of_false (fun h => by cases h) fun h => h.1 hc
  · rw [if_neg hc, and_iff_right hc]

theorem muldiv64_error_iff (a : BitVec 64) (b c : Word) (fault : Fault) :
    muldiv64 a b c = .error fault ↔ fault = .divideByZero ∧ c = 0 := by
  by_cases hc : c = 0
  · have herror : muldiv64 a b c = .error .divideByZero := by
      unfold muldiv64
      rw [hc]
      rfl
    rw [herror]
    simp [hc, eq_comm]
  · have hwide : c.setWidth 64 ≠ 0 := by
      intro h
      have hval := congrArg (BitVec.setWidth 32) h
      rw [BitVec.setWidth_setWidth_of_le _ (by decide), BitVec.setWidth_eq] at hval
      exact hc hval
    refine iff_of_false (fun h => ?_) fun h => hc h.2
    unfold muldiv64 at h
    simp only [divide_of_ne_zero hwide, remainder_of_ne_zero hwide] at h
    cases h

theorem ptimerGetClock_error_iff (n : NV2ADevice) (nanoseconds : BitVec 64) (fault : Fault) :
    ptimerGetClock n nanoseconds = .error fault ↔
      fault = .divideByZero ∧ n.clocksPerSec * n.ptimer.denominator = 0 := by
  rw [← muldiv64_error_iff nanoseconds
    ((n.pramdac.coreClockFreq * n.ptimer.numerator.setWidth 64).setWidth 32)]
  unfold ptimerGetClock
  cases muldiv64 nanoseconds
    ((n.pramdac.coreClockFreq * n.ptimer.numerator.setWidth 64).setWidth 32)
    (n.clocksPerSec * n.ptimer.denominator) with
  | error f => simp [bind, Except.bind]
  | ok clock => simp [bind, Except.bind, pure, Except.pure]

theorem one_shiftLeft_ne_zero {k : Nat} (hk : k < 32) : (1 : Word) <<< k ≠ 0 := by
  intro h
  have hbit := congrArg (fun x => x.getLsbD k) h
  simp [hk] at hbit

theorem coreClockFreq_ok (value : Word) : ∃ freq, coreClockFreq value = .ok freq := by
  have hp : ((value &&& NV_PRAMDAC_NVPLL_COEFF_PDIV) >>> 16).toNat < 32 := by
    have hle : (value &&& NV_PRAMDAC_NVPLL_COEFF_PDIV).toNat ≤ 0x70000 := by
      rw [BitVec.toNat_and]
      exact Nat.and_le_right
    rw [BitVec.toNat_ushiftRight, Nat.shiftRight_eq_div_pow]
    omega
  unfold coreClockFreq
  dsimp only
  split
  · exact ⟨_, rfl⟩
  · next hm =>
    simp only [divide_of_ne_zero (one_shiftLeft_ne_zero hp), divide_of_ne_zero hm]
    exact ⟨_, rfl⟩

theorem pgraphIncrement_error_iff (g : PGRAPH) (fault : Fault) :
    pgraphIncrement g = .error fault ↔
      fault = .divideByZero ∧ NV_PGRAPH_SURFACE_MODULO_3D.get (g.regs NV_PGRAPH_SURFACE) = 0 := by
  unfold pgraphIncrement remainder
  dsimp only
  split
  · next h => simp [h, bind, Except.bind, eq_comm]
  · next h =>
    refine iff_of_false (fun he => ?_) fun he => h he.2
    cases he

/-! ## Accesses -/

theorem ptimerRead_error_iff (n : NV2ADevice) (nanoseconds : BitVec 64) (addr : Nat) (value : Word)
    (size : AccessSize) :
    ptimerRead n nanoseconds addr value size = .error .divideByZero ↔
      (addr = NV_PTIMER_TIME_0 ∨ addr = NV_PTIMER_TIME_1) ∧ n.clocksPerSec * n.ptimer.denominator = 0 := by
  have hclock (f : Word → Word) :
      (ptimerGetClock n nanoseconds).map (fun clock => (f clock, n)) = .error .divideByZero ↔
        n.clocksPerSec * n.ptimer.denominator = 0 := by
    have herror := ptimerGetClock_error_iff n nanoseconds .divideByZero
    rw [eq_self_iff_true, true_and] at herror
    rw [← herror]
    cases ptimerGetClock n nanoseconds with
    | error fault => simp [Except.map]
    | ok clock => simp [Except.map]
  have hne (register : Nat) (h : register ≠ NV_PTIMER_TIME_0 ∧ register ≠ NV_PTIMER_TIME_1)
      (v : Word) : (.ok (v, n) : ReadResult) = .error .divideByZero ↔
        (register = NV_PTIMER_TIME_0 ∨ register = NV_PTIMER_TIME_1) ∧
          n.clocksPerSec * n.ptimer.denominator = 0 := by
    refine iff_of_false (fun he => ?_) (fun he => ?_)
    · cases he
    · exact he.1.elim h.1 h.2
  unfold ptimerRead
  split
  · next h => exact hne addr (by rw [h]; decide) _
  split
  · next h => exact hne addr (by rw [h]; decide) _
  split
  · next h => exact hne addr (by rw [h]; decide) _
  split
  · next h => exact hne addr (by rw [h]; decide) _
  split
  · next h => rw [hclock, h, eq_self_iff_true, true_or, true_and]
  next h0 =>
  split
  · next h => rw [hclock, h, eq_self_iff_true, or_true, true_and]
  · next h1 => exact hne addr ⟨h0, h1⟩ _

theorem pgraphWrite_error_iff (n : NV2ADevice) (addr : Nat) (value : Word) (size : AccessSize) :
    pgraphWrite n addr value size = .error .divideByZero ↔
      addr = NV_PGRAPH_INCREMENT ∧ value &&& NV_PGRAPH_INCREMENT_READ_3D ≠ 0 ∧
        NV_PGRAPH_SURFACE_MODULO_3D.get (n.pgraph.regs NV_PGRAPH_SURFACE) = 0 := by
  by_cases haddr : addr = NV_PGRAPH_INCREMENT
  · subst haddr
    have hwrite : pgraphWrite n NV_PGRAPH_INCREMENT value size =
        if value &&& NV_PGRAPH_INCREMENT_READ_3D ≠ 0 then
          (pgraphIncrement n.pgraph).map fun g => { n with pgraph := g }
        else .ok n := rfl
    rw [hwrite, eq_self_iff_true, true_and]
    split
    · next hread =>
      have herror := pgraphIncrement_error_iff n.pgraph .divideByZero
      rw [eq_self_iff_true, true_and] at herror
      rw [and_iff_right hread, ← herror]
      cases pgraphIncrement n.pgraph with
      | error fault => simp [Except.map]
      | ok g => simp [Except.map]
    · next hread => exact iff_of_false (fun he => by cases he) fun he => hread he.1
  · refine iff_of_false (fun he => ?_) fun he => haddr he.1
    unfold pgraphWrite at he
    simp only [if_neg haddr, ite_ok_eq_error_iff] at he
    obtain ⟨-, -, -, -, -, -, -, hlast⟩ := he
    split at hlast
    · split at hlast <;> cases hlast
    · cases hlast

theorem blockRead_defined {block : NV2ABlockInfo} (hmem : block ∈ memoryRegions)
    (hne : block ≠ Mmio.ptimer) (n : NV2ADevice) (nanoseconds : BitVec 64) (addr : Nat) (value : Word)
    (size : AccessSize) : block.read n nanoseconds addr value size ≠ .error .divideByZero := by
  intro h
  rcases mem_memoryRegions hmem with ⟨hread, -⟩ | rfl | rfl | rfl | rfl | rfl | rfl | rfl | rfl |
    rfl | rfl | rfl | rfl
  · rw [hread] at h
    cases h
  · simp only [Mmio.pmc, pmcRead] at h
    split_ifs at h
  · simp only [pbus, pbusRead] at h
    split_ifs at h
    cases h
  · cases h
  · simp only [Mmio.pvideo, pvideoRead] at h
    split_ifs at h
  · exact hne rfl
  · simp only [Mmio.pfb, pfbRead] at h
    split_ifs at h
    cases h
  · simp only [Mmio.pgraph, pgraphRead] at h
    split_ifs at h
    cases h
  · simp only [Mmio.pcrtc, pcrtcRead] at h
    split_ifs at h
  · simp only [Mmio.prmcio, prmcioRead] at h
    split_ifs at h
  · simp only [Mmio.pramdac, pramdacRead] at h
    split_ifs at h
  · cases h
  · simp only [user, userRead] at h
    split_ifs at h <;> cases h

theorem onMachine_defined (n : NV2ADevice) (m : Option Machine.State) :
    onMachine n m ≠ .error .divideByZero := by
  intro h
  cases m with
  | none => cases h
  | some s => cases h

theorem blockWrite_defined {block : NV2ABlockInfo} (hmem : block ∈ memoryRegions)
    (hne : block ≠ Mmio.pgraph) (n : NV2ADevice) (addr : Nat) (value : Word) (size : AccessSize) :
    block.write n addr value size ≠ .error .divideByZero := by
  intro h
  rcases mem_memoryRegions hmem with ⟨-, hwrite⟩ | rfl | rfl | rfl | rfl | rfl | rfl | rfl | rfl |
    rfl | rfl | rfl | rfl
  · rw [hwrite] at h
    cases h
  · simp only [Mmio.pmc, pmcWrite] at h
    split_ifs at h
    cases h
  · simp only [pbus, pbusWrite] at h
    split_ifs at h
  · simp only [Mmio.pfifo, Mmio.pfifoWrite] at h
    split_ifs at h
    · cases h
    · exact onMachine_defined n _ h
  · simp only [Mmio.pvideo, pvideoWrite] at h
    split_ifs at h
  · simp only [Mmio.ptimer, ptimerWrite] at h
    split_ifs at h
  · simp only [Mmio.pfb, pfbWrite] at h
    split_ifs at h
    cases h
  · exact hne rfl
  · simp only [Mmio.pcrtc, pcrtcWrite] at h
    split_ifs at h
  · simp only [Mmio.prmcio, prmcioWrite] at h
    split_ifs at h
  · simp only [Mmio.pramdac, pramdacWrite] at h
    obtain ⟨freq, hfreq⟩ := coreClockFreq_ok value
    rw [hfreq] at h
    split_ifs at h
    cases h
  · cases h
  · simp only [user, Mmio.userWrite] at h
    split_ifs at h
    · cases h
    · exact onMachine_defined n _ h

/-- The access reads the time of PTIMER. -/
def ReadsTime (barIndex : Nat) (addr : Word) : Prop :=
  barIndex ≠ 1 ∧
    (addr = Mmio.ptimer.address NV_PTIMER_TIME_0 ∨ addr = Mmio.ptimer.address NV_PTIMER_TIME_1)

/-- The access goes on to the next buffer to be read. -/
def Increments (barIndex : Nat) (addr value : Word) : Prop :=
  barIndex ≠ 1 ∧ addr = Mmio.pgraph.address NV_PGRAPH_INCREMENT ∧
    value &&& NV_PGRAPH_INCREMENT_READ_3D ≠ 0

/-- The access divides, and the divisor computed from a denominator and a surface is not zero. -/
def Defined (clocksPerSec denominator surface : Word) : Access → Prop
  | .read _ barIndex addr _ _ => ReadsTime barIndex addr → clocksPerSec * denominator ≠ 0
  | .write barIndex addr value _ =>
    Increments barIndex addr value → NV_PGRAPH_SURFACE_MODULO_3D.get surface ≠ 0

theorem read_error_iff (n : NV2ADevice) (nanoseconds : BitVec 64) (barIndex : Nat) (addr value : Word)
    (size : AccessSize) :
    pciMMIORead n nanoseconds barIndex addr value size = .error .divideByZero ↔
      ReadsTime barIndex addr ∧ n.clocksPerSec * n.ptimer.denominator = 0 := by
  unfold pciMMIORead ReadsTime
  by_cases hbar : barIndex = 1
  · rw [if_pos hbar]
    exact iff_of_false (fun h => by cases h) fun h => h.1.1 hbar
  rw [if_neg hbar, and_iff_right hbar]
  cases hfind : findBlock addr with
  | none =>
    refine iff_of_false (fun h => by cases h) fun h => ?_
    rcases h.1 with haddr | haddr
    · rw [haddr] at hfind
      cases hfind
    · rw [haddr] at hfind
      cases hfind
  | some block =>
    dsimp only
    by_cases hblock : block = Mmio.ptimer
    · subst hblock
      have h0 := offset_eq_iff hfind (show Mmio.ptimer.offset + NV_PTIMER_TIME_0 < 2 ^ 32 by decide)
      have h1 := offset_eq_iff hfind (show Mmio.ptimer.offset + NV_PTIMER_TIME_1 < 2 ^ 32 by decide)
      have hread : Mmio.ptimer.read = ptimerRead := rfl
      rw [← h0, ← h1, hread, ptimerRead_error_iff]
    · refine iff_of_false (blockRead_defined (findBlock_mem hfind) hblock n nanoseconds _ value size)
        fun h => hblock ?_
      rcases h.1 with haddr | haddr
      · rw [haddr] at hfind
        exact (Option.some.inj hfind).symm
      · rw [haddr] at hfind
        exact (Option.some.inj hfind).symm

theorem write_error_iff (n : NV2ADevice) (barIndex : Nat) (addr value : Word) (size : AccessSize) :
    pciMMIOWrite n barIndex addr value size = .error .divideByZero ↔
      Increments barIndex addr value ∧
        NV_PGRAPH_SURFACE_MODULO_3D.get (n.pgraph.regs NV_PGRAPH_SURFACE) = 0 := by
  unfold pciMMIOWrite Increments
  by_cases hbar : barIndex = 1
  · rw [if_pos hbar]
    exact iff_of_false (fun h => by cases h) fun h => h.1.1 hbar
  rw [if_neg hbar, and_iff_right hbar, and_assoc]
  cases hfind : findBlock addr with
  | none =>
    refine iff_of_false (fun h => by cases h) fun h => ?_
    rw [h.1] at hfind
    cases hfind
  | some block =>
    dsimp only
    by_cases hblock : block = Mmio.pgraph
    · subst hblock
      have haddr := offset_eq_iff hfind
        (show Mmio.pgraph.offset + NV_PGRAPH_INCREMENT < 2 ^ 32 by decide)
      have hwrite : Mmio.pgraph.write = pgraphWrite := rfl
      rw [← haddr, hwrite, pgraphWrite_error_iff]
    · refine iff_of_false (blockWrite_defined (findBlock_mem hfind) hblock n _ value size)
        fun h => hblock ?_
      rw [h.1] at hfind
      exact (Option.some.inj hfind).symm

theorem access_defined_iff (n : NV2ADevice) (a : Access) :
    access n a ≠ .error .divideByZero ↔
      Defined n.clocksPerSec n.ptimer.denominator (n.pgraph.regs NV_PGRAPH_SURFACE) a := by
  cases a with
  | read nanoseconds barIndex addr value size =>
    have hread : access n (.read nanoseconds barIndex addr value size) = .error .divideByZero ↔
        pciMMIORead n nanoseconds barIndex addr value size = .error .divideByZero := by
      have hmap : access n (.read nanoseconds barIndex addr value size) =
        (pciMMIORead n nanoseconds barIndex addr value size).map Prod.snd := rfl
      rw [hmap]
      cases pciMMIORead n nanoseconds barIndex addr value size with
      | error fault => simp [Except.map]
      | ok result => simp [Except.map]
    rw [Ne, hread, read_error_iff, not_and]
    exact Iff.rfl
  | write barIndex addr value size =>
    have hwrite : access n (.write barIndex addr value size) =
      pciMMIOWrite n barIndex addr value size := rfl
    rw [hwrite, Ne, write_error_iff, not_and]
    exact Iff.rfl

/-! ## Where the divisors come from -/

/-- The word written to a register by a step, or what was written before. -/
def written (register word : Word) : Op → Word
  | .access (.write barIndex addr value _) =>
    if barIndex ≠ 1 ∧ addr = register then value else word
  | _ => word

/-- The last word written to a register; zero before the first. -/
def lastWritten (register : Word) (ops : List Op) : Word := ops.foldl (written register) 0

/-- What the divisors are computed from is as it was. -/
structure SameDivisors (n n' : NV2ADevice) : Prop where
  clocks : n'.clocksPerSec = n.clocksPerSec
  denominator : n'.ptimer.denominator = n.ptimer.denominator
  modulo : NV_PGRAPH_SURFACE_MODULO_3D.get (n'.pgraph.regs NV_PGRAPH_SURFACE) =
    NV_PGRAPH_SURFACE_MODULO_3D.get (n.pgraph.regs NV_PGRAPH_SURFACE)

theorem ptimerWrite_denominator {n n' : NV2ADevice} {addr : Nat} {value : Word} {size : AccessSize}
    (h : ptimerWrite n addr value size = .ok n') :
    n'.clocksPerSec = n.clocksPerSec ∧ n'.pgraph = n.pgraph ∧
      n'.ptimer.denominator = if addr = NV_PTIMER_DENOMINATOR then value else n.ptimer.denominator := by
  have hother (hne : addr ≠ NV_PTIMER_DENOMINATOR) (m : NV2ADevice)
      (hm : (.ok m : WriteResult) = .ok n')
      (hsame : m.clocksPerSec = n.clocksPerSec ∧ m.pgraph = n.pgraph ∧
        m.ptimer.denominator = n.ptimer.denominator) :
      n'.clocksPerSec = n.clocksPerSec ∧ n'.pgraph = n.pgraph ∧
        n'.ptimer.denominator =
          if addr = NV_PTIMER_DENOMINATOR then value else n.ptimer.denominator := by
    cases hm
    rw [if_neg hne]
    exact hsame
  unfold ptimerWrite at h
  split at h
  · next haddr => exact hother (by rw [haddr]; decide) _ h ⟨rfl, rfl, rfl⟩
  split at h
  · next haddr => exact hother (by rw [haddr]; decide) _ h ⟨rfl, rfl, rfl⟩
  split at h
  · next haddr =>
    cases h
    exact ⟨rfl, rfl, (if_pos haddr).symm⟩
  next hne =>
  split at h
  · exact hother hne _ h ⟨rfl, rfl, rfl⟩
  split at h
  · exact hother hne _ h ⟨rfl, rfl, rfl⟩
  · exact hother hne _ h ⟨rfl, rfl, rfl⟩

/-- Writes to the other blocks leave the divisors alone. -/
theorem blockWrite_divisors {n n' : NV2ADevice} {block : NV2ABlockInfo} {addr : Nat} {value : Word}
    {size : AccessSize} (hmem : block ∈ memoryRegions) (hptimer : block ≠ Mmio.ptimer)
    (hpgraph : block ≠ Mmio.pgraph) (h : block.write n addr value size = .ok n') :
    SameDivisors n n' := by
  cases blockWrite_cases hmem hpgraph h with
  | timer hblock t => exact absurd hblock hptimer
  | _ => exact ⟨rfl, rfl, rfl⟩

/-- How an access goes along with what was written. -/
structure Follows (n n' : NV2ADevice) (op : Op) : Prop where
  clocks : n'.clocksPerSec = n.clocksPerSec
  denominator : n'.ptimer.denominator =
    written (Mmio.ptimer.address NV_PTIMER_DENOMINATOR) n.ptimer.denominator op
  modulo : NV_PGRAPH_SURFACE_MODULO_3D.get (n'.pgraph.regs NV_PGRAPH_SURFACE) =
    NV_PGRAPH_SURFACE_MODULO_3D.get
      (written (Mmio.pgraph.address NV_PGRAPH_SURFACE) (n.pgraph.regs NV_PGRAPH_SURFACE) op)

theorem SameDivisors.follows {n n' : NV2ADevice} {op : Op} (h : SameDivisors n n')
    (hdenominator : ∀ word, written (Mmio.ptimer.address NV_PTIMER_DENOMINATOR) word op = word)
    (hsurface : ∀ word, written (Mmio.pgraph.address NV_PGRAPH_SURFACE) word op = word) :
    Follows n n' op :=
  ⟨h.clocks, h.denominator.trans (hdenominator _).symm,
    h.modulo.trans (congrArg NV_PGRAPH_SURFACE_MODULO_3D.get (hsurface _)).symm⟩

theorem write_follows {n n' : NV2ADevice} {barIndex : Nat} {addr value : Word} {size : AccessSize}
    (h : pciMMIOWrite n barIndex addr value size = .ok n') :
    Follows n n' (.access (.write barIndex addr value size)) := by
  have hnot {register : Word} (hne : barIndex = 1 ∨ addr ≠ register) (word : Word) :
      written register word (.access (.write barIndex addr value size)) = word :=
    if_neg fun hw => hne.elim hw.1 fun hr => hr hw.2
  unfold pciMMIOWrite at h
  by_cases hbar : barIndex = 1
  · rw [if_pos hbar] at h
    cases h
    have hsame (m : Machine.State) : SameDivisors n { n with machine := m } := ⟨rfl, rfl, rfl⟩
    exact (hsame _).follows (hnot (.inl hbar)) (hnot (.inl hbar))
  rw [if_neg hbar] at h
  have hptimer (hne : findBlock addr ≠ some Mmio.ptimer) :
      addr ≠ Mmio.ptimer.address NV_PTIMER_DENOMINATOR := by
    intro haddr
    rw [haddr] at hne
    exact hne rfl
  have hpgraph (hne : findBlock addr ≠ some Mmio.pgraph) :
      addr ≠ Mmio.pgraph.address NV_PGRAPH_SURFACE := by
    intro haddr
    rw [haddr] at hne
    exact hne rfl
  have hapart : Mmio.ptimer ≠ Mmio.pgraph := fun he =>
    absurd (congrArg NV2ABlockInfo.offset he) (by decide)
  cases hfind : findBlock addr with
  | none =>
    rw [hfind] at h hptimer hpgraph
    cases h
    have hsame : SameDivisors n n := ⟨rfl, rfl, rfl⟩
    exact hsame.follows (hnot (.inr (hptimer (by simp)))) (hnot (.inr (hpgraph (by simp))))
  | some block =>
    rw [hfind] at h hptimer hpgraph
    dsimp only at h
    by_cases hblock : block = Mmio.ptimer
    · subst hblock
      have hwrite : Mmio.ptimer.write = ptimerWrite := rfl
      have haddr := offset_eq_iff hfind
        (show Mmio.ptimer.offset + NV_PTIMER_DENOMINATOR < 2 ^ 32 by decide)
      rw [hwrite] at h
      obtain ⟨hclocks, hsame, hdenominator⟩ := ptimerWrite_denominator h
      have hsurface := hnot (.inr (hpgraph fun he => hapart (Option.some.inj he)))
      refine ⟨hclocks, ?_, ?_⟩
      · rw [hdenominator]
        simp only [haddr, written, ne_eq, hbar, not_false_eq_true, true_and]
      · rw [hsame, hsurface]
    by_cases hblock' : block = Mmio.pgraph
    · subst hblock'
      have hwrite : Mmio.pgraph.write = pgraphWrite := rfl
      have haddr := offset_eq_iff hfind
        (show Mmio.pgraph.offset + NV_PGRAPH_SURFACE < 2 ^ 32 by decide)
      rw [hwrite] at h
      obtain ⟨valid, g, rfl, -, hmodulo⟩ := pgraphWrite_cases h
      have hdenominator := hnot (.inr (hptimer fun he => hapart (Option.some.inj he).symm))
      refine ⟨rfl, (hdenominator _).symm, ?_⟩
      dsimp only
      rw [hmodulo, surfaceModulo]
      simp only [haddr, written, ne_eq, hbar, not_false_eq_true, true_and]
    · have hsame := blockWrite_divisors (findBlock_mem hfind) hblock hblock' h
      exact hsame.follows (hnot (.inr (hptimer fun he => hblock (Option.some.inj he))))
        (hnot (.inr (hpgraph fun he => hblock' (Option.some.inj he))))

theorem read_follows {n n' : NV2ADevice} {nanoseconds : BitVec 64} {barIndex : Nat}
    {addr value : Word} {size : AccessSize}
    (h : access n (.read nanoseconds barIndex addr value size) = .ok n') :
    Follows n n' (.access (.read nanoseconds barIndex addr value size)) := by
  obtain ⟨st01, rfl⟩ := access_read h
  exact ⟨rfl, rfl, rfl⟩

theorem dispatch_divisors {n n' : NV2ADevice} {command : CacheEntry}
    (h : dispatch n command = some n') : SameDivisors n n' := by
  rcases dispatch_cases h with ⟨phase, rfl⟩ | ⟨channelId, interrupts, phase, rfl⟩
  · exact ⟨rfl, rfl, rfl⟩
  · exact ⟨rfl, rfl, rfl⟩

theorem pullerStep_divisors {n n' : NV2ADevice} (h : pullerStep n = some n') : SameDivisors n n' := by
  have hsame (m : NV2ADevice) (hm : some m = some n') (hq : SameDivisors n m) : SameDivisors n n' := by
    cases hm
    exact hq
  unfold pullerStep at h
  split at h
  · exact hsame _ h ⟨rfl, rfl, rfl⟩
  · split_ifs at h <;> exact hsame _ h ⟨rfl, rfl, rfl⟩
  · split at h
    · exact hsame _ h ⟨rfl, rfl, rfl⟩
    · obtain ⟨hclocks, hdenominator, hmodulo⟩ := dispatch_divisors h
      exact ⟨hclocks, hdenominator, hmodulo⟩
  · split_ifs at h
    exact hsame _ h ⟨rfl, rfl, rfl⟩
  · split_ifs at h
    exact hsame _ h ⟨rfl, rfl, rfl⟩
  · obtain ⟨m, -, hm⟩ := Option.map_eq_some_iff.mp h
    exact hsame _ (congrArg some hm) ⟨rfl, rfl, rfl⟩
  · exact hsame _ h ⟨rfl, rfl, rfl⟩
  · cases h

theorem step_follows {n n' : NV2ADevice} {op : Op} (h : step n op = some n') : Follows n n' op := by
  cases op with
  | access a =>
    obtain ⟨-, haccess⟩ := step_access.mp h
    cases a with
    | read nanoseconds barIndex addr value size => exact read_follows haccess
    | write barIndex addr value size => exact write_follows haccess
  | ram i byte =>
    cases h
    exact ⟨rfl, rfl, rfl⟩
  | pusher =>
    obtain ⟨m, -, rfl⟩ := Option.map_eq_some_iff.mp h
    exact ⟨rfl, rfl, rfl⟩
  | puller => exact (pullerStep_divisors h).follows (fun _ => rfl) fun _ => rfl
  | setRegister register value =>
    obtain ⟨hne, rfl⟩ := step_setRegister.mp h
    exact ⟨rfl, rfl, congrArg NV_PGRAPH_SURFACE_MODULO_3D.get (Function.update_of_ne hne.symm _ _)⟩
  | vblank =>
    cases h
    unfold vblank
    split
    · exact ⟨rfl, rfl, rfl⟩
    · exact ⟨rfl, rfl, rfl⟩
  | destroy =>
    cases h
    exact ⟨rfl, rfl, rfl⟩

/-- After a run the divisors are those of the last words written. -/
theorem divisors_of_exec {n t : NV2ADevice} {ops : List Op} (hdenominator : n.ptimer.denominator = 0)
    (hsurface : n.pgraph.regs NV_PGRAPH_SURFACE = 0) (h : exec step n ops = some t) :
    t.clocksPerSec = n.clocksPerSec ∧
      t.ptimer.denominator = lastWritten (Mmio.ptimer.address NV_PTIMER_DENOMINATOR) ops ∧
      NV_PGRAPH_SURFACE_MODULO_3D.get (t.pgraph.regs NV_PGRAPH_SURFACE) =
        NV_PGRAPH_SURFACE_MODULO_3D.get
          (lastWritten (Mmio.pgraph.address NV_PGRAPH_SURFACE) ops) := by
  refine ⟨?_, ?_, ?_⟩
  · exact exec_invariant (I := fun m => m.clocksPerSec = n.clocksPerSec)
      (fun m op m' hm hstep => (step_follows hstep).clocks.trans hm) rfl h
  · exact exec_foldl (R := fun m word => m.ptimer.denominator = word)
      (fun m op m' word hm hstep => hm ▸ (step_follows hstep).denominator) hdenominator h
  · have hmodulo (m : NV2ADevice) (op : Op) (m' : NV2ADevice) (word : Word)
        (hm : NV_PGRAPH_SURFACE_MODULO_3D.get (m.pgraph.regs NV_PGRAPH_SURFACE) =
          NV_PGRAPH_SURFACE_MODULO_3D.get word) (hstep : step m op = some m') :
        NV_PGRAPH_SURFACE_MODULO_3D.get (m'.pgraph.regs NV_PGRAPH_SURFACE) =
          NV_PGRAPH_SURFACE_MODULO_3D.get
            (written (Mmio.pgraph.address NV_PGRAPH_SURFACE) word op) := by
      rw [(step_follows hstep).modulo]
      generalize Mmio.pgraph.address NV_PGRAPH_SURFACE = address
      -- the step writes the register, or keeps what is there
      unfold written
      split
      · split
        · rfl
        · exact hm
      · exact hm
    have hstart : NV_PGRAPH_SURFACE_MODULO_3D.get (n.pgraph.regs NV_PGRAPH_SURFACE) =
        NV_PGRAPH_SURFACE_MODULO_3D.get 0 := congrArg NV_PGRAPH_SURFACE_MODULO_3D.get hsurface
    exact exec_foldl hmodulo hstart h

/-- An access that can be made does not divide by zero. -/
def NoDivisionByZero (n : NV2ADevice) : Op → Prop
  | .access a => n.machine.call = none → access n a ≠ .error .divideByZero
  | _ => True

/-- From a reset no access divides by zero exactly when each read of the time comes after a write
of the denominator that does not make the product zero, and each increment after a write of the
surface with a number of buffers. -/
theorem no_division_by_zero_iff (ram : Nat → Byte) (size clocks : Word) (command : BitVec 16)
    (u : Uninitialised) (ops : List Op) :
    Guarded step NoDivisionByZero (NV2ADevice.reset ram size clocks command u) ops ↔
      ∀ pre a post t, ops = pre ++ .access a :: post →
        exec step (NV2ADevice.reset ram size clocks command u) pre = some t →
        t.machine.call = none →
        Defined clocks (lastWritten (Mmio.ptimer.address NV_PTIMER_DENOMINATOR) pre)
          (lastWritten (Mmio.pgraph.address NV_PGRAPH_SURFACE) pre) a := by
  have hdefined (pre : List Op) (a : Access) (t : NV2ADevice)
      (ht : exec step (NV2ADevice.reset ram size clocks command u) pre = some t) :
      access t a ≠ .error .divideByZero ↔
        Defined clocks (lastWritten (Mmio.ptimer.address NV_PTIMER_DENOMINATOR) pre)
          (lastWritten (Mmio.pgraph.address NV_PGRAPH_SURFACE) pre) a := by
    obtain ⟨hclocks, hdenominator, hmodulo⟩ := divisors_of_exec rfl rfl ht
    rw [access_defined_iff, hclocks, hdenominator]
    cases a with
    | read nanoseconds barIndex addr value size => exact Iff.rfl
    | write barIndex addr value size =>
      unfold Defined
      dsimp only
      rw [hmodulo]
  rw [guarded_iff_exec]
  constructor
  · intro h pre a post t hops ht hcall
    exact (hdefined pre a t ht).mp (h pre (.access a) post hops t ht hcall)
  · intro h pre op post hops t ht
    cases op with
    | access a => exact fun hcall => (hdefined pre a t ht).mpr (h pre a post t hops ht hcall)
    | _ => trivial

/-- The device after a reset, over empty RAM. -/
def resetDevice : NV2ADevice :=
  NV2ADevice.reset (fun _ => 0) 0x4000000 1000000 0 ⟨0, 0, 0, fun _ _ => 0, fun _ => 0, 0⟩

/-- Right after a reset the time is read, or the buffer to be read is incremented. -/
theorem reset_divides_by_zero :
    ¬ Guarded step NoDivisionByZero resetDevice [.access (.read 0 0 0x9400 0 .four)] ∧
      ¬ Guarded step NoDivisionByZero resetDevice [.access (.write 0 0x40071C 2 .four)] :=
  ⟨fun h => h.1 rfl rfl, fun h => h.1 rfl rfl⟩

end OpenXbox.Nv2a.Division
