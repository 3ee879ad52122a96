import OpenXbox.Nv2a.StaleReads

/-!
# Registers without a function

Five blocks keep a register for each offset, whatever is written there. Their reads and their writes
are two switches, and a register that has no case in either is only kept.
-/

namespace OpenXbox.Nv2a.RegisterFiles

open OpenXbox.Lib.Run OpenXbox.Nv2a.Memory OpenXbox.Nv2a.Pusher OpenXbox.Nv2a.Registers
  OpenXbox.Nv2a.Mmio OpenXbox.Nv2a.Puller OpenXbox.Nv2a.StaleReads
open OpenXbox.Nv2a.Machine hiding Op step pfifoWrite
open OpenXbox.Nv2a.Division (resetDevice)

inductive RegisterFile where
  | pfifo
  | pvideo
  | pfb
  | pgraph
  | pcrtc
deriving DecidableEq

namespace RegisterFile

def block : RegisterFile → NV2ABlockInfo
  | .pfifo => Mmio.pfifo
  | .pvideo => Mmio.pvideo
  | .pfb => Mmio.pfb
  | .pgraph => Mmio.pgraph
  | .pcrtc => Mmio.pcrtc

/-- The registers with a case of their own in a read or in a write, and that of the surface, in which
a write to another register advances a field. -/
def special : RegisterFile → List Nat
  | .pfifo => [NV_PFIFO_RAMHT, NV_PFIFO_RAMFC, NV_PFIFO_INTR_0, NV_PFIFO_INTR_EN_0,
      NV_PFIFO_RUNOUT_STATUS, NV_PFIFO_CACHE1_PUSH0, NV_PFIFO_CACHE1_PUSH1, NV_PFIFO_CACHE1_STATUS,
      NV_PFIFO_CACHE1_DMA_PUSH, NV_PFIFO_CACHE1_DMA_STATE, NV_PFIFO_CACHE1_DMA_INSTANCE,
      NV_PFIFO_CACHE1_DMA_PUT, NV_PFIFO_CACHE1_DMA_GET, NV_PFIFO_CACHE1_DMA_SUBROUTINE,
      NV_PFIFO_CACHE1_PULL0, NV_PFIFO_CACHE1_ENGINE, NV_PFIFO_CACHE1_DMA_DCOUNT,
      NV_PFIFO_CACHE1_DMA_GET_JMP_SHADOW, NV_PFIFO_CACHE1_DMA_RSVD_SHADOW,
      NV_PFIFO_CACHE1_DMA_DATA_SHADOW]
  | .pvideo => [NV_PVIDEO_BUFFER, NV_PVIDEO_STOP]
  | .pfb => [NV_PFB_CFG0, NV_PFB_CSTATUS, NV_PFB_WBC]
  | .pgraph => [NV_PGRAPH_INTR, NV_PGRAPH_INTR_EN, NV_PGRAPH_NSOURCE, NV_PGRAPH_CTX_CONTROL,
      NV_PGRAPH_CTX_USER, NV_PGRAPH_TRAPPED_ADDR, NV_PGRAPH_TRAPPED_DATA_LOW, NV_PGRAPH_SURFACE,
      NV_PGRAPH_INCREMENT, NV_PGRAPH_FIFO, NV_PGRAPH_CHANNEL_CTX_TABLE,
      NV_PGRAPH_CHANNEL_CTX_POINTER, NV_PGRAPH_CHANNEL_CTX_TRIGGER]
  | .pcrtc => [NV_PCRTC_INTR_0, NV_PCRTC_INTR_EN_0, NV_PCRTC_START]

/-- The array of the block. -/
def held (n : NV2ADevice) : RegisterFile → Nat → Word
  | .pfifo => n.machine.device.pfifoRegs
  | .pvideo => n.pvideo
  | .pfb => n.pfb
  | .pgraph => n.pgraph.regs
  | .pcrtc => n.pcrtc.regs

/-- What a write puts into the array: in PVIDEO it is the offset. -/
def kept (file : RegisterFile) (register : Nat) (value : Word) : Word :=
  match file with
  | .pvideo => BitVec.ofNat 32 register
  | _ => value

/-- What a read gives for what the array holds: in PCRTC it is zero. -/
def shown (file : RegisterFile) (value : Word) : Word :=
  match file with
  | .pcrtc => 0
  | _ => value

end RegisterFile

/-- The address of a register that is only kept. -/
structure Plain (file : RegisterFile) (addr : Word) : Prop where
  inBlock : findBlock addr = some file.block
  plain : addr.toNat - file.block.offset ∉ file.special

/-- A 32-bit access to one of the five blocks, or a turn of another thread that does not set a
register of PGRAPH. -/
def OnFiles : Op → Prop
  | .access (.read _ barIndex addr _ size) =>
    barIndex = 0 ∧ size = .four ∧ ∃ file : RegisterFile, findBlock addr = some file.block
  | .access (.write barIndex addr _ size) =>
    barIndex = 0 ∧ size = .four ∧ ∃ file : RegisterFile, findBlock addr = some file.block
  | .setRegister _ _ => False
  | _ => True

def noteWrite (last : Word → Option Word) : Op → Word → Option Word
  | .access (.write _ addr value _) => Function.update last addr (some value)
  | _ => last

/-- The values last written to the addresses. -/
def lastWritten (ops : List Op) : Word → Option Word := ops.foldl noteWrite fun _ => none

/-- Registers that are only kept read as last written, and as zero before. -/
def ReadsBack (n : NV2ADevice) (last : Word → Option Word) : Prop :=
  ∀ file addr, Plain file addr → ∀ nanoseconds value,
    stored n nanoseconds 0 addr value = .ok ((last addr).getD 0)

/-- A write to such a register changes what is read from no other register. -/
def WritesApart (n : NV2ADevice) : Prop :=
  ∀ file addr, Plain file addr → ∀ value n', step n (registerWrite addr value) = some n' →
    ∀ (other : RegisterFile) addr', findBlock addr' = some other.block → addr' ≠ addr →
      ∀ nanoseconds old, stored n' nanoseconds 0 addr' old = stored n nanoseconds 0 addr' old

/-! ## Reads and writes of one register -/

section Register

variable {n n' : NV2ADevice} {file : RegisterFile} {register : Nat} {v : Word}

/-- What a read of 32 bits stores over an old value. -/
def value (n : NV2ADevice) (file : RegisterFile) (register : Nat) (old : Word) : Word :=
  match file with
  | .pfifo => pfifoRegister n register old
  | .pvideo => if register = NV_PVIDEO_STOP then 0 else n.pvideo register
  | .pfb =>
    if register = NV_PFB_CFG0 then 3
    else if register = NV_PFB_CSTATUS then n.systemRAMSize
    else if register = NV_PFB_WBC then 0
    else n.pfb register
  | .pgraph => pgraphRegister n.pgraph register old
  | .pcrtc =>
    if register = NV_PCRTC_INTR_0 then n.pcrtc.interrupts.pending
    else if register = NV_PCRTC_INTR_EN_0 then n.pcrtc.interrupts.enabled
    else if register = NV_PCRTC_START then n.pcrtc.start
    else 0

theorem block_read (n : NV2ADevice) (file : RegisterFile) (register : Nat) (nanoseconds : BitVec 64)
    (old : Word) : (file.block.read n nanoseconds register old .four).map Prod.fst =
      .ok (value n file register old) := by
  cases file with
  | pfifo => rfl
  | pvideo =>
    show (pvideoRead n nanoseconds register old .four).map Prod.fst = _
    rw [pvideoRead, value]
    split <;> rfl
  | pfb =>
    show (pfbRead n nanoseconds register old .four).map Prod.fst = _
    rw [pfbRead, if_neg (by decide), value]
    repeat' split
    all_goals rfl
  | pgraph => rfl
  | pcrtc =>
    show (pcrtcRead n nanoseconds register old .four).map Prod.fst = _
    rw [pcrtcRead, value]
    repeat' split
    all_goals rfl

theorem value_plain (h : register ∉ file.special) (old : Word) :
    value n file register old = file.shown (file.held n register) := by
  cases file with
  | pfifo | pvideo | pfb | pgraph | pcrtc =>
    simp only [RegisterFile.special, List.mem_cons, List.not_mem_nil, or_false, not_or] at h
    simp only [value, pfifoRegister, pgraphRegister, h, if_false]
    rfl

/-- The device with another array in a block. -/
def withHeld (n : NV2ADevice) (file : RegisterFile) (regs : Nat → Word) : NV2ADevice :=
  match file with
  | .pfifo => { n with machine.device.pfifoRegs := regs }
  | .pvideo => { n with pvideo := regs }
  | .pfb => { n with pfb := regs }
  | .pgraph => { n with pgraph.regs := regs }
  | .pcrtc => { n with pcrtc.regs := regs }

theorem held_withHeld (n : NV2ADevice) (file other : RegisterFile) (regs : Nat → Word) :
    other.held (withHeld n file regs) = if other = file then regs else other.held n := by
  cases file <;> cases other <;> rfl

/-- What a write to a register that is only kept makes of the device. -/
def put (n : NV2ADevice) (file : RegisterFile) (register : Nat) (value : Word) : NV2ADevice :=
  withHeld n file (Function.update (file.held n) register (file.kept register value))

theorem held_put (n : NV2ADevice) (file other : RegisterFile) (register r : Nat) (v : Word) :
    other.held (put n file register v) r =
      if other = file ∧ r = register then file.kept register v else other.held n r := by
  rw [put, held_withHeld]
  by_cases hsame : other = file
  · subst hsame
    simp [Function.update_apply]
  · simp [hsame]

/-- Another register is read as before. -/
theorem value_put {other : RegisterFile} {r : Nat} (hne : ¬ (other = file ∧ r = register))
    (v old : Word) : value (put n file register v) other r old = value n other r old := by
  by_cases hsame : other = file
  · subst hsame
    have hr : r ≠ register := fun heq => hne ⟨rfl, heq⟩
    have hregs (f : Nat → Word) (w : Word) : Function.update f register w r = f r :=
      Function.update_of_ne hr w f
    cases other with
    | pfifo | pvideo | pfb | pcrtc =>
      simp only [value, put, withHeld, RegisterFile.held, pfifoRegister, hregs]
    | pgraph =>
      simp only [value, put, withHeld, RegisterFile.held, pgraphRegister, hregs]
      rfl
  · cases file <;> cases other <;> first | rfl | exact absurd rfl hsame

theorem pfifoWrite_plain (h : register ∉ RegisterFile.pfifo.special) :
    Machine.pfifoWrite n.machine register v = some (put n .pfifo register v).machine := by
  have hother : register ∉ otherRegisters :=
    fun hmem => h ((by decide : ∀ r ∈ otherRegisters, r ∈ RegisterFile.pfifo.special) register hmem)
  simp only [RegisterFile.special, List.mem_cons, List.not_mem_nil, or_false, not_or] at h
  have hregister : pusherRegister n.machine.device.cache1 register v = none := by
    simp only [pusherRegister, h, if_false]
  simp only [Machine.pfifoWrite, h, if_false, hother, hregister]
  rfl

theorem block_write_plain (h : register ∉ file.special) :
    file.block.write n register v .four = .ok (put n file register v) := by
  cases file with
  | pfifo =>
    have hmachine := pfifoWrite_plain (n := n) (v := v) h
    simp only [RegisterFile.special, List.mem_cons, List.not_mem_nil, or_false, not_or] at h
    show Mmio.pfifoWrite n register v .four = _
    simp only [Mmio.pfifoWrite, h, hmachine, ne_eq, not_true_eq_false, if_false]
    rfl
  | pvideo =>
    simp only [RegisterFile.special, List.mem_cons, List.not_mem_nil, or_false, not_or] at h
    show pvideoWrite n register v .four = _
    rw [pvideoWrite, if_neg h.1, if_neg h.2]
    rfl
  | pfb => rfl
  | pgraph =>
    simp only [RegisterFile.special, List.mem_cons, List.not_mem_nil, or_false, not_or] at h
    show pgraphWrite n register v .four = _
    simp only [pgraphWrite, h, if_false]
    rfl
  | pcrtc =>
    simp only [RegisterFile.special, List.mem_cons, List.not_mem_nil, or_false, not_or] at h
    show pcrtcWrite n register v .four = _
    rw [pcrtcWrite, if_neg h.1, if_neg h.2.1, if_neg h.2.2]
    rfl

/-- The arrays are the same, but for registers with a function. -/
def Keeps (n n' : NV2ADevice) : Prop :=
  ∀ (file : RegisterFile) (r : Nat), r ∉ file.special → file.held n' r = file.held n r

theorem callPusher_regs {m m' : Machine.State} {suspend : Option Bool}
    (h : m.callPusher suspend = some m') : m'.device.pfifoRegs = m.device.pfifoRegs := by
  unfold State.callPusher at h
  split at h
  · cases h
    unfold State.afterPusher
    split <;> rfl
  · cases h
  · cases h
    rfl

theorem pusherTurn_regs {m m' : Machine.State} {c : PusherCall} (h : m.pusherTurn c = some m') :
    m'.device.pfifoRegs = m.device.pfifoRegs := by
  unfold State.pusherTurn at h
  split at h
  · cases h
    rfl
  · next p _ =>
    unfold Device.leave at h
    split at h
    · cases h
    · next hleave =>
      split at hleave
      · cases hleave
      cases hleave
      cases h
      unfold State.afterPusher
      split <;> rfl

theorem pfifoWrite_special {m : Machine.State} (hmem : register ∈ RegisterFile.pfifo.special)
    (h : Machine.pfifoWrite n.machine register v = some m) {r : Nat}
    (hr : r ∉ RegisterFile.pfifo.special) :
    m.device.pfifoRegs r = n.machine.device.pfifoRegs r := by
  have hne : r ≠ register := fun heq => hr (heq ▸ hmem)
  unfold Machine.pfifoWrite at h
  dsimp only at h
  split at h
  · unfold dmaPush at h
    dsimp only at h
    split at h
    · rw [callPusher_regs h]
      rfl
    · cases h
      rfl
  split at h
  · cases h
    rfl
  split at h
  · cases h
    rfl
  split at h
  · cases h
    rfl
  split at h
  · cases h
    rfl
  · cases h
    exact Function.update_of_ne hne _ _

theorem keeps_same (h : ∀ other : RegisterFile, other.held n' = other.held n) : Keeps n n' :=
  fun other r _ => congrFun (h other) r

/-- One array is changed, at a register with a function. -/
theorem keeps_withHeld {i : Nat} (hi : i ∈ file.special) (v : Word) :
    Keeps n (withHeld n file (Function.update (file.held n) i v)) := by
  intro other r hr
  rw [held_withHeld]
  split
  · next hsame =>
    subst hsame
    have hne : r ≠ i := by
      rintro rfl
      exact hr hi
    exact Function.update_of_ne hne _ _
  · rfl

/-- A write that comes back keeps the other registers. -/
def WriteKeeps (n : NV2ADevice) (r : WriteResult) : Prop := ∀ n', r = .ok n' → Keeps n n'

theorem writeKeeps_ok (h : Keeps n n') : WriteKeeps n (.ok n') := by
  intro m hm
  cases hm
  exact h

theorem writeKeeps_same (h : ∀ other : RegisterFile, other.held n' = other.held n) :
    WriteKeeps n (.ok n') := writeKeeps_ok (keeps_same h)

theorem WriteKeeps.ite {c : Prop} [Decidable c] {a b : WriteResult} (ha : WriteKeeps n a)
    (hb : WriteKeeps n b) : WriteKeeps n (if c then a else b) := by
  split
  · exact ha
  · exact hb

theorem writeKeeps_onMachine {m : Option Machine.State}
    (h : ∀ s, m = some s → ∀ r, r ∉ RegisterFile.pfifo.special →
      s.device.pfifoRegs r = n.machine.device.pfifoRegs r) : WriteKeeps n (onMachine n m) := by
  intro n' hn
  obtain ⟨s, hs, rfl⟩ := onMachine_ok hn
  intro other r hr
  cases other with
  | pfifo => exact h s hs r hr
  | pvideo | pfb | pgraph | pcrtc => rfl

theorem writeKeeps_increment :
    WriteKeeps n ((pgraphIncrement n.pgraph).map fun g => { n with pgraph := g }) := by
  unfold pgraphIncrement
  dsimp only
  cases remainder (NV_PGRAPH_SURFACE_READ_3D.get (n.pgraph.regs NV_PGRAPH_SURFACE) + 1)
      (NV_PGRAPH_SURFACE_MODULO_3D.get (n.pgraph.regs NV_PGRAPH_SURFACE)) with
  | error fault =>
    intro n' hn
    cases hn
  | ok next =>
    have hsurface : NV_PGRAPH_SURFACE ∈ RegisterFile.pgraph.special := by decide
    exact writeKeeps_ok (keeps_withHeld hsurface _)

theorem block_write_special (hmem : register ∈ file.special) :
    WriteKeeps n (file.block.write n register v .four) := by
  cases file with
  | pfifo =>
    show WriteKeeps n (Mmio.pfifoWrite n register v .four)
    unfold Mmio.pfifoWrite
    refine .ite (fun _ h => (by cases h)) ?_
    iterate 4 refine .ite (writeKeeps_same fun other => (by cases other <;> rfl)) ?_
    exact writeKeeps_onMachine fun s hs r hr => pfifoWrite_special hmem hs hr
  | pvideo =>
    have hbuffer : NV_PVIDEO_BUFFER ∈ RegisterFile.pvideo.special := by decide
    show WriteKeeps n (pvideoWrite n register v .four)
    unfold pvideoWrite
    exact .ite (writeKeeps_ok (keeps_withHeld hmem v))
      (.ite (writeKeeps_ok (keeps_withHeld hbuffer 0)) (writeKeeps_ok (keeps_withHeld hmem _)))
  | pfb => exact writeKeeps_ok (keeps_withHeld hmem v)
  | pgraph =>
    show WriteKeeps n (pgraphWrite n register v .four)
    unfold pgraphWrite
    iterate 4 refine .ite (writeKeeps_same fun other => (by cases other <;> rfl)) ?_
    refine .ite (.ite writeKeeps_increment (writeKeeps_same fun _ => rfl)) ?_
    iterate 3 refine .ite (writeKeeps_same fun other => (by cases other <;> rfl)) ?_
    refine .ite (.ite (writeKeeps_same fun other => (by cases other <;> rfl))
      (writeKeeps_same fun _ => rfl)) ?_
    exact writeKeeps_ok (keeps_withHeld hmem v)
  | pcrtc =>
    show WriteKeeps n (pcrtcWrite n register v .four)
    unfold pcrtcWrite
    iterate 3 refine .ite (writeKeeps_same fun other => (by cases other <;> rfl)) ?_
    exact writeKeeps_ok (keeps_withHeld hmem v)

/-- The puller does not touch the arrays. -/
theorem pullerStep_held (h : pullerStep n = some n') (other : RegisterFile) :
    other.held n' = other.held n := by
  unfold pullerStep at h
  cases hphase : n.puller.phase with
  | outer | done command entry =>
    rw [hphase] at h
    cases h
    cases other <;> rfl
  | waiting =>
    rw [hphase] at h
    dsimp only at h
    split_ifs at h <;> cases h <;> cases other <;> rfl
  | inner =>
    rw [hphase] at h
    dsimp only at h
    cases hworking : n.puller.workingCache with
    | nil =>
      rw [hworking] at h
      cases h
      cases other <;> rfl
    | cons command rest =>
      rw [hworking] at h
      rcases dispatch_cases h with ⟨phase, rfl⟩ | ⟨channelId, interrupts, phase, rfl⟩
      · cases other <;> rfl
      · cases other <;> rfl
  | switching command entry | access command entry parameter =>
    rw [hphase] at h
    dsimp only at h
    split at h <;> cases h
    cases other <;> rfl
  | method command entry parameter =>
    rw [hphase] at h
    obtain ⟨m, hm, hn⟩ := Option.map_eq_some_iff.mp h
    cases hn
    unfold methodStep at hm
    split at hm <;> cases hm <;> cases other <;> rfl
  | ended =>
    rw [hphase] at h
    cases h

theorem vblank_held (n : NV2ADevice) (other : RegisterFile) :
    other.held (vblank n) = other.held n := by
  unfold vblank
  split
  · cases other <;> rfl
  · rfl

end Register

/-! ## Addresses -/

section Address

variable {n n' : NV2ADevice} {file other : RegisterFile} {addr addr' : Word}

theorem file_of_block (h : other.block = file.block) : other = file := by
  have hoffset : other.block.offset = file.block.offset := congrArg NV2ABlockInfo.offset h
  cases other <;> cases file <;> first | rfl | exact absurd hoffset (by decide)

/-- An address is in one block, at one register. -/
theorem register_eq_iff (h : findBlock addr = some file.block)
    (h' : findBlock addr' = some other.block) :
    (other = file ∧ addr'.toNat - other.block.offset = addr.toNat - file.block.offset) ↔
      addr' = addr := by
  constructor
  · rintro ⟨rfl, hregister⟩
    have hle := (findBlock_bounds h).1
    have hle' := (findBlock_bounds h').1
    exact BitVec.eq_of_toNat_eq (by omega)
  · rintro rfl
    have hblock : other.block = file.block := Option.some.inj (h'.symm.trans h)
    obtain rfl := file_of_block hblock
    exact ⟨rfl, rfl⟩

theorem stored_block (h : findBlock addr = some file.block) (nanoseconds : BitVec 64) (old : Word) :
    stored n nanoseconds 0 addr old = .ok (value n file (addr.toNat - file.block.offset) old) := by
  unfold stored pciMMIORead
  rw [if_neg (by decide), h]
  exact block_read n file _ nanoseconds old

theorem write_block {v : Word} (h : findBlock addr = some file.block) :
    access n (.write 0 addr v .four) = file.block.write n (addr.toNat - file.block.offset) v .four := by
  show pciMMIOWrite n 0 addr v .four = _
  unfold pciMMIOWrite
  rw [if_neg (by decide), h]

theorem writesApart (n : NV2ADevice) : WritesApart n := by
  intro file addr hplain v n' hstep other addr' hother hne nanoseconds old
  obtain ⟨-, hwrite⟩ := step_access.mp hstep
  rw [write_block hplain.inBlock, block_write_plain hplain.plain] at hwrite
  cases hwrite
  rw [stored_block hother, stored_block hother]
  exact congrArg Except.ok (value_put (mt (register_eq_iff hplain.inBlock hother).mp hne) v old)

end Address

/-! ## Runs -/

section Runs

variable {n n' : NV2ADevice} {initial : RegisterFile → Nat → Word} {last : Word → Option Word}

/-- What the array has at the register of an address. -/
def expected (initial : RegisterFile → Nat → Word) (last : Word → Option Word) (file : RegisterFile)
    (addr : Word) : Word :=
  (last addr).elim (initial file (addr.toNat - file.block.offset))
    (file.kept (addr.toNat - file.block.offset))

/-- The arrays have what the writes say. -/
def Follows (initial : RegisterFile → Nat → Word) (n : NV2ADevice) (last : Word → Option Word) :
    Prop :=
  ∀ file addr, Plain file addr →
    file.held n (addr.toNat - file.block.offset) = expected initial last file addr

/-- The values read back are those written. -/
theorem Follows.keeps (h : Follows initial n last) (hkeeps : Keeps n n') : Follows initial n' last :=
  fun file addr hplain => (hkeeps file _ hplain.plain).trans (h file addr hplain)

theorem Follows.write {file : RegisterFile} {addr v : Word} (h : Follows initial n last)
    (hblock : findBlock addr = some file.block) (hwrite : access n (.write 0 addr v .four) = .ok n') :
    Follows initial n' (Function.update last addr (some v)) := by
  rw [write_block hblock] at hwrite
  by_cases hmem : addr.toNat - file.block.offset ∈ file.special
  · -- no register that is only kept is at this address
    have hkept := h.keeps (block_write_special hmem n' hwrite)
    intro other addr' hplain
    have hne : addr' ≠ addr := by
      rintro rfl
      obtain ⟨rfl, -⟩ := (register_eq_iff hblock hplain.inBlock).mpr rfl
      exact hplain.plain hmem
    have hlast : Function.update last addr (some v) addr' = last addr' :=
      Function.update_of_ne hne _ _
    rw [hkept other addr' hplain, expected, expected, hlast]
  · rw [block_write_plain hmem] at hwrite
    cases hwrite
    intro other addr' hplain
    rw [held_put]
    by_cases hsame : addr' = addr
    · have hregister := (register_eq_iff hblock hplain.inBlock).mpr hsame
      obtain ⟨rfl, -⟩ := hregister
      subst hsame
      rw [if_pos ⟨rfl, rfl⟩, expected, Function.update_self]
      rfl
    · have hlast : Function.update last addr (some v) addr' = last addr' :=
        Function.update_of_ne hsame _ _
      rw [if_neg (mt (register_eq_iff hblock hplain.inBlock).mp hsame), h other addr' hplain, expected,
        expected, hlast]

theorem Follows.next {op : Op} (h : Follows initial n last) (hop : OnFiles op)
    (hstep : Puller.step n op = some n') : Follows initial n' (noteWrite last op) := by
  cases op with
  | access a =>
    obtain ⟨-, haccess⟩ := step_access.mp hstep
    cases a with
    | read nanoseconds barIndex addr v size =>
      obtain ⟨st01, rfl⟩ := access_read haccess
      exact h.keeps (keeps_same fun other => (by cases other <;> rfl))
    | write barIndex addr v size =>
      obtain ⟨rfl, rfl, file, hblock⟩ := hop
      exact h.write hblock haccess
  | ram i byte =>
    cases hstep
    exact h.keeps (keeps_same fun other => (by cases other <;> rfl))
  | pusher =>
    obtain ⟨m, hm, rfl⟩ := Option.map_eq_some_iff.mp hstep
    obtain ⟨c, -, hturn⟩ := Option.bind_eq_some_iff.mp hm
    refine h.keeps (keeps_same fun other => ?_)
    cases other with
    | pfifo => exact pusherTurn_regs hturn
    | pvideo | pfb | pgraph | pcrtc => rfl
  | puller => exact h.keeps (keeps_same (pullerStep_held hstep))
  | setRegister register v => exact hop.elim
  | vblank =>
    cases hstep
    exact h.keeps (keeps_same (vblank_held n))
  | destroy =>
    cases hstep
    exact h.keeps (keeps_same fun other => (by cases other <;> rfl))

theorem Follows.run {ops : List Op} (h : Follows initial n last) (hops : ∀ op ∈ ops, OnFiles op)
    (hexec : exec step n ops = some n') : Follows initial n' (ops.foldl noteWrite last) := by
  induction ops generalizing n last with
  | nil =>
    cases hexec
    exact h
  | cons op ops ih =>
    obtain ⟨m, hm, hrest⟩ := Option.bind_eq_some_iff.mp hexec
    exact ih (h.next (hops op List.mem_cons_self) hm) (fun o ho => hops o (List.mem_cons_of_mem op ho))
      hrest

/-- The registers read as the arrays say. -/
theorem Follows.readsBack_iff (h : Follows initial n last) : ReadsBack n last ↔
    ∀ file addr, Plain file addr →
      file.shown (expected initial last file addr) = (last addr).getD 0 := by
  have hread (file : RegisterFile) (addr : Word) (hplain : Plain file addr) (nanoseconds : BitVec 64)
      (old : Word) : stored n nanoseconds 0 addr old = .ok ((last addr).getD 0) ↔
        file.shown (expected initial last file addr) = (last addr).getD 0 := by
    rw [stored_block hplain.inBlock, value_plain hplain.plain, h file addr hplain, Except.ok.injEq]
  constructor
  · intro hback file addr hplain
    exact (hread file addr hplain 0 0).mp (hback file addr hplain 0 0)
  · intro hshown file addr hplain nanoseconds old
    exact (hread file addr hplain nanoseconds old).mpr (hshown file addr hplain)

end Runs

/-- What the arrays hold after a reset. -/
def resetArray (u : Uninitialised) : RegisterFile → Nat → Word
  | .pvideo => u.pvideo
  | _ => fun _ => 0

theorem follows_reset (ram : Nat → Byte) (size clocks : Word) (command : BitVec 16)
    (u : Uninitialised) :
    Follows (resetArray u) (NV2ADevice.reset ram size clocks command u) fun _ => none := by
  intro file addr _
  cases file <;> rfl

/-- The writes for which the default cases do no harm. -/
structure Unharmed (u : Uninitialised) (last : Word → Option Word) : Prop where
  /-- A register of PVIDEO was last written with its offset, or was zero from the start. -/
  pvideo : ∀ addr, Plain .pvideo addr →
    (last addr).elim (u.pvideo (addr.toNat - Mmio.pvideo.offset) = 0)
      (· = BitVec.ofNat 32 (addr.toNat - Mmio.pvideo.offset))
  /-- A register of PCRTC was last written with zero. -/
  pcrtc : ∀ addr, Plain .pcrtc addr → (last addr).getD 0 = 0

theorem shown_iff (u : Uninitialised) (last : Word → Option Word) :
    (∀ file addr, Plain file addr →
      file.shown (expected (resetArray u) last file addr) = (last addr).getD 0) ↔ Unharmed u last := by
  constructor
  · intro h
    refine ⟨fun addr hplain => ?_, fun addr hplain => (h .pcrtc addr hplain).symm⟩
    have hshown := h .pvideo addr hplain
    cases hlast : last addr with
    | none =>
      rw [expected, hlast] at hshown
      exact hshown
    | some v =>
      rw [expected, hlast] at hshown
      exact hshown.symm
  · intro h file addr hplain
    cases file with
    | pfifo | pfb | pgraph =>
      rw [expected]
      cases last addr <;> rfl
    | pvideo =>
      have hpvideo := h.pvideo addr hplain
      rw [expected]
      cases hlast : last addr with
      | none =>
        rw [hlast] at hpvideo
        exact hpvideo
      | some v =>
        rw [hlast] at hpvideo
        exact hpvideo.symm
    | pcrtc => exact (h.pcrtc addr hplain).symm

/-- Over any run, the registers that are only kept read as last written, and apart from each other,
exactly when those of PVIDEO were written with their offsets and those of PCRTC with zero. -/
theorem register_files_read_back_iff {ram : Nat → Byte} {size clocks : Word} {command : BitVec 16}
    {u : Uninitialised} {ops : List Op} {n : NV2ADevice} (hops : ∀ op ∈ ops, OnFiles op)
    (hexec : exec step (NV2ADevice.reset ram size clocks command u) ops = some n) :
    (ReadsBack n (lastWritten ops) ∧ WritesApart n) ↔ Unharmed u (lastWritten ops) := by
  have hfollows : Follows (resetArray u) n (lastWritten ops) :=
    Follows.run (follows_reset ram size clocks command u) hops hexec
  rw [and_iff_left (writesApart n), hfollows.readsBack_iff]
  exact shown_iff u (lastWritten ops)

theorem onFiles_write {addr v : Word} {file : RegisterFile} (h : findBlock addr = some file.block) :
    ∀ op ∈ [registerWrite addr v], OnFiles op := by
  intro op hop
  obtain rfl := List.mem_singleton.mp hop
  exact ⟨rfl, rfl, file, h⟩

/-- A value written to a register of PFB is read back. -/
theorem pfb_register_reads_back :
    ReadsBack (put resetDevice .pfb 0x300 7) (lastWritten [registerWrite 0x100300 7]) ∧
      WritesApart (put resetDevice .pfb 0x300 7) := by
  have hblock : findBlock 0x100300 = some RegisterFile.pfb.block := rfl
  have hexec : exec step resetDevice [registerWrite 0x100300 7] =
      some (put resetDevice .pfb 0x300 7) := rfl
  refine (register_files_read_back_iff (onFiles_write hblock) hexec).mpr ?_
  have hunwritten (file : RegisterFile) (hfile : file ≠ .pfb) (addr : Word) (hplain : Plain file addr) :
      lastWritten [registerWrite 0x100300 7] addr = none := by
    have hne : addr ≠ 0x100300 := fun heq =>
      hfile ((register_eq_iff hblock hplain.inBlock).mpr heq).1
    show Function.update (fun _ => none) 0x100300 (some 7) addr = none
    exact Function.update_of_ne hne _ _
  refine ⟨fun addr hplain => ?_, fun addr hplain => ?_⟩
  · rw [hunwritten .pvideo (by decide) addr hplain]
    rfl
  · rw [hunwritten .pcrtc (by decide) addr hplain]
    rfl

/-- Five written to a register of PVIDEO is read as the offset of the register. -/
theorem pvideo_register_keeps_offset :
    ¬ ∀ (ops : List Op) (n : NV2ADevice), (∀ op ∈ ops, OnFiles op) →
      exec step resetDevice ops = some n → ReadsBack n (lastWritten ops) ∧ WritesApart n := by
  intro h
  have hblock : findBlock 0x8900 = some RegisterFile.pvideo.block := rfl
  have hplain : Plain .pvideo 0x8900 := ⟨hblock, by decide⟩
  obtain ⟨hback, -⟩ := h [registerWrite 0x8900 5] (put resetDevice .pvideo 0x900 5)
    (onFiles_write hblock) rfl
  have hread : (.ok 0x900 : Except Fault Word) = .ok 5 := hback .pvideo 0x8900 hplain 0 0
  cases hread

end OpenXbox.Nv2a.RegisterFiles
