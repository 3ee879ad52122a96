import OpenXbox.Nv2a.PullerFifo

/-!
# Saving and restoring the pusher

A context switch reads the registers of the pusher and later writes the values back. The
masks of the registers are narrower than some of the fields behind them.
-/

namespace OpenXbox.Nv2a.SaveRestore

open OpenXbox.Lib.Run OpenXbox.Lib.Bits OpenXbox.Lib.BitField OpenXbox.Nv2a.Memory
  OpenXbox.Nv2a.Pusher OpenXbox.Nv2a.Registers OpenXbox.Nv2a.Mmio OpenXbox.Nv2a.Puller
  OpenXbox.Nv2a.PullerFifo
open OpenXbox.Nv2a.Machine hiding Op step

/-! ## The registers -/

def savedRegisters : List Nat :=
  [NV_PFIFO_CACHE1_DMA_STATE, NV_PFIFO_CACHE1_DMA_SUBROUTINE, NV_PFIFO_CACHE1_DMA_DCOUNT,
    NV_PFIFO_CACHE1_DMA_GET, NV_PFIFO_CACHE1_DMA_PUT, NV_PFIFO_CACHE1_DMA_INSTANCE,
    NV_PFIFO_CACHE1_DMA_GET_JMP_SHADOW, NV_PFIFO_CACHE1_DMA_RSVD_SHADOW,
    NV_PFIFO_CACHE1_DMA_DATA_SHADOW]

/-- The registers with what is read from them, each over some contents of the variable. -/
def save (n : NV2ADevice) (stale : Nat → Word) : List (Nat × Word) :=
  savedRegisters.map fun register => (register, pfifoRegister n register (stale register))

def restore (n : NV2ADevice) (saved : List (Nat × Word)) : WriteResult :=
  saved.foldlM (fun n write => Mmio.pfifoWrite n write.1 write.2 .four) n

def saveRestore (n : NV2ADevice) (stale : Nat → Word) : WriteResult :=
  restore n (save n stale)

/-- What comes back of the state of the pusher. -/
def restored (state : Cache1State) : Cache1State :=
  { state with
    method := state.method &&& 0x1FFC
    methodCount := state.methodCount &&& 0x7FF
    error := state.error &&& 7
    dmaInstance := ((state.dmaInstance >>> 4) &&& 0xFFFF) <<< 4
    subroutineReturn := (state.subroutineReturn ||| flag state.subroutineActive) &&& 0x1FFFFFFC
    subroutineActive := (state.subroutineReturn ||| flag state.subroutineActive) &&& 1 ≠ 0
    dcount := state.dcount &&& 0x1FFC
    getJmpShadow := state.getJmpShadow &&& 0x1FFFFFFC }

/-- The fields of `NV_PFIFO_CACHE1_DMA_STATE`, as a write takes them out of what was read. -/
theorem dmaState_fields (state : Cache1State) (value : Word) :
    let read := dmaStateRegister state value
    decide (read &&& 1 ≠ 0) = state.methodNonincreasing ∧
      (read &&& 0x1FFC).setWidth 14 = state.method &&& 0x1FFC ∧
      ((read &&& 0xE000) >>> 13).setWidth 3 = state.subchannel ∧
      ((read &&& 0x1FFC0000) >>> 18).setWidth 24 = state.methodCount &&& 0x7FF ∧
      (read &&& 0xE0000000) >>> 29 = state.error &&& 7 := by
  refine ⟨?_, ?_, ?_, ?_, ?_⟩
  · have hread : dmaStateRegister state value &&& 1 = flag state.methodNonincreasing &&& 1 := by
      unfold dmaStateRegister
      rw [set_and_of_apart (by decide), set_and_of_apart (by decide), set_and_of_apart (by decide),
        set_and_of_apart (by decide)]
      exact (set_and_mask NV_PFIFO_CACHE1_DMA_STATE_METHOD_TYPE _ _).trans
        (congrArg (fun x : Word => x &&& 1) (BitVec.shiftLeft_zero _))
    rw [hread]
    cases state.methodNonincreasing <;> rfl
  · have hread : dmaStateRegister state value &&& 0x1FFC = state.method.setWidth 32 &&& 0x1FFC := by
      unfold dmaStateRegister
      rw [set_and_of_apart (by decide), set_and_of_apart (by decide), set_and_of_apart (by decide)]
      exact set_ushiftRight_and_mask NV_PFIFO_CACHE1_DMA_STATE_METHOD _ _
    rw [hread, BitVec.setWidth_and, BitVec.setWidth_setWidth_of_le _ (by decide), BitVec.setWidth_eq]
    rfl
  · have hread : NV_PFIFO_CACHE1_DMA_STATE_SUBCHANNEL.get (dmaStateRegister state value) =
        state.subchannel.setWidth 32 &&& 7 := by
      unfold dmaStateRegister
      rw [get_set_of_apart (by decide), get_set_of_apart (by decide), get_set]
      rfl
    refine (congrArg (BitVec.setWidth 3) hread).trans ?_
    rw [BitVec.setWidth_and, BitVec.setWidth_setWidth_of_le _ (by decide), BitVec.setWidth_eq]
    exact BitVec.and_allOnes
  · have hread : NV_PFIFO_CACHE1_DMA_STATE_METHOD_COUNT.get (dmaStateRegister state value) =
        state.methodCount.setWidth 32 &&& 0x7FF := by
      unfold dmaStateRegister
      rw [get_set_of_apart (by decide), get_set]
      rfl
    refine (congrArg (BitVec.setWidth 24) hread).trans ?_
    rw [BitVec.setWidth_and, BitVec.setWidth_setWidth_of_le _ (by decide), BitVec.setWidth_eq]
    rfl
  · exact get_set NV_PFIFO_CACHE1_DMA_STATE_ERROR _ _

theorem dmaInstance_field (state : Cache1State) (value : Word) :
    (dmaInstanceRegister state value &&& 0xFFFF) <<< 4 = ((state.dmaInstance >>> 4) &&& 0xFFFF) <<< 4 := by
  have hread : dmaInstanceRegister state value &&& (0xFFFF : Word) = (state.dmaInstance >>> 4) &&& 0xFFFF :=
    (set_and_mask NV_PFIFO_CACHE1_DMA_INSTANCE_ADDRESS _ _).trans
      (congrArg (fun x : Word => x &&& 0xFFFF) (BitVec.shiftLeft_zero _))
  rw [hread]

/-- A write of a register that only the pusher's part of the state is behind. -/
theorem pfifoWrite_cache1 (n : NV2ADevice) (register : Nat) (value : Word) {state : Cache1State}
    (hregister : register ∈ [NV_PFIFO_CACHE1_DMA_STATE, NV_PFIFO_CACHE1_DMA_SUBROUTINE,
      NV_PFIFO_CACHE1_DMA_DCOUNT, NV_PFIFO_CACHE1_DMA_INSTANCE, NV_PFIFO_CACHE1_DMA_GET_JMP_SHADOW,
      NV_PFIFO_CACHE1_DMA_RSVD_SHADOW, NV_PFIFO_CACHE1_DMA_DATA_SHADOW])
    (hstate : pusherRegister n.machine.device.cache1 register value = some state) :
    Mmio.pfifoWrite n register value .four = .ok { n with machine := n.machine.setCache1 state } := by
  have hwrite : Machine.pfifoWrite n.machine register value = some (n.machine.setCache1 state) := by
    unfold Machine.pfifoWrite
    rw [hstate]
    simp only [List.mem_cons, List.not_mem_nil, or_false] at hregister
    rcases hregister with rfl | rfl | rfl | rfl | rfl | rfl | rfl <;> rfl
  have hmachine : Mmio.pfifoWrite n register value .four =
      onMachine n (Machine.pfifoWrite n.machine register value) := by
    simp only [List.mem_cons, List.not_mem_nil, or_false] at hregister
    rcases hregister with rfl | rfl | rfl | rfl | rfl | rfl | rfl <;> rfl
  rw [hmachine, hwrite]
  rfl

theorem restore_cons (n : NV2ADevice) (register : Nat) (value : Word) (saved : List (Nat × Word)) :
    restore n ((register, value) :: saved) =
      Mmio.pfifoWrite n register value .four >>= fun n => restore n saved := by
  unfold restore
  rw [List.foldlM_cons]

/-- Nothing else changes: GET and PUT and the other shadows come back whole. -/
theorem saveRestore_eq (n : NV2ADevice) (stale : Nat → Word) :
    saveRestore n stale =
      .ok { n with machine := n.machine.setCache1 (restored n.machine.device.cache1) } := by
  have hok (n : NV2ADevice) (f : NV2ADevice → WriteResult) : (.ok n >>= f) = f n := rfl
  have hnil (n : NV2ADevice) : restore n [] = .ok n := rfl
  have hstate (n : NV2ADevice) (value : Word) :=
    pfifoWrite_cache1 n NV_PFIFO_CACHE1_DMA_STATE value (by simp) rfl
  have hsubroutine (n : NV2ADevice) (value : Word) :=
    pfifoWrite_cache1 n NV_PFIFO_CACHE1_DMA_SUBROUTINE value (by simp) rfl
  have hdcount (n : NV2ADevice) (value : Word) :=
    pfifoWrite_cache1 n NV_PFIFO_CACHE1_DMA_DCOUNT value (by simp) rfl
  have hget (n : NV2ADevice) (value : Word) :
      Mmio.pfifoWrite n NV_PFIFO_CACHE1_DMA_GET value .four = .ok { n with
        machine := n.machine.setControl n.machine.device.cache1.channelId
          { n.machine.device.channelControl n.machine.device.cache1.channelId with dmaGet := value } } :=
    rfl
  have hput (n : NV2ADevice) (value : Word) :
      Mmio.pfifoWrite n NV_PFIFO_CACHE1_DMA_PUT value .four = .ok { n with
        machine := n.machine.setControl n.machine.device.cache1.channelId
          { n.machine.device.channelControl n.machine.device.cache1.channelId with dmaPut := value } } :=
    rfl
  have hinstance (n : NV2ADevice) (value : Word) :=
    pfifoWrite_cache1 n NV_PFIFO_CACHE1_DMA_INSTANCE value (by simp) rfl
  have hjump (n : NV2ADevice) (value : Word) :=
    pfifoWrite_cache1 n NV_PFIFO_CACHE1_DMA_GET_JMP_SHADOW value (by simp) rfl
  have hrsvd (n : NV2ADevice) (value : Word) :=
    pfifoWrite_cache1 n NV_PFIFO_CACHE1_DMA_RSVD_SHADOW value (by simp) rfl
  have hdata (n : NV2ADevice) (value : Word) :=
    pfifoWrite_cache1 n NV_PFIFO_CACHE1_DMA_DATA_SHADOW value (by simp) rfl
  have hsaved : save n stale =
      let state := n.machine.device.cache1
      let control := n.machine.device.channelControl state.channelId
      [(NV_PFIFO_CACHE1_DMA_STATE, dmaStateRegister state (stale NV_PFIFO_CACHE1_DMA_STATE)),
        (NV_PFIFO_CACHE1_DMA_SUBROUTINE, state.subroutineReturn ||| flag state.subroutineActive),
        (NV_PFIFO_CACHE1_DMA_DCOUNT, state.dcount), (NV_PFIFO_CACHE1_DMA_GET, control.dmaGet),
        (NV_PFIFO_CACHE1_DMA_PUT, control.dmaPut),
        (NV_PFIFO_CACHE1_DMA_INSTANCE,
          dmaInstanceRegister state (stale NV_PFIFO_CACHE1_DMA_INSTANCE)),
        (NV_PFIFO_CACHE1_DMA_GET_JMP_SHADOW, state.getJmpShadow),
        (NV_PFIFO_CACHE1_DMA_RSVD_SHADOW, state.rsvdShadow),
        (NV_PFIFO_CACHE1_DMA_DATA_SHADOW, state.dataShadow)] := rfl
  obtain ⟨h1, h2, h3, h4, h5⟩ :=
    dmaState_fields n.machine.device.cache1 (stale NV_PFIFO_CACHE1_DMA_STATE)
  have h6 := dmaInstance_field n.machine.device.cache1 (stale NV_PFIFO_CACHE1_DMA_INSTANCE)
  have hkeep (channel : Nat) :
      Function.update n.machine.device.channelControl channel
        { dmaPut := (n.machine.device.channelControl channel).dmaPut
          dmaGet := (n.machine.device.channelControl channel).dmaGet
          ref := (n.machine.device.channelControl channel).ref } = n.machine.device.channelControl :=
    Function.update_eq_self _ _
  unfold saveRestore
  rw [hsaved]
  simp only [restore_cons, hnil, hok, hstate, hsubroutine, hdcount, hget, hput, hinstance, hjump, hrsvd,
    hdata, State.setCache1, State.setControl, hkeep, h1, h2, h3, h4, h5, h6]
  rfl

/-! ## What comes back whole -/

/-- Each field goes into its register. -/
structure Whole (state : Cache1State) : Prop where
  method : state.method.toNat < 0x2000 ∧ 4 ∣ state.method.toNat
  methodCount : state.methodCount.toNat < 0x800
  error : state.error.toNat < 8
  dmaInstance : state.dmaInstance.toNat < 0x100000 ∧ 16 ∣ state.dmaInstance.toNat
  subroutineReturn : state.subroutineReturn.toNat < 0x20000000 ∧ 4 ∣ state.subroutineReturn.toNat
  dcount : state.dcount.toNat < 0x2000 ∧ 4 ∣ state.dcount.toNat
  getJmpShadow : state.getJmpShadow.toNat < 0x20000000 ∧ 4 ∣ state.getJmpShadow.toNat

theorem and_1FFC_eq_iff (x : Word) : x &&& 0x1FFC = x ↔ x.toNat < 0x2000 ∧ 4 ∣ x.toNat :=
  and_midMask_eq_self_iff 2 13 (by decide)

theorem and_offset_eq_iff (x : Word) : x &&& 0x1FFFFFFC = x ↔ x.toNat < 0x20000000 ∧ 4 ∣ x.toNat :=
  and_midMask_eq_self_iff 2 29 (by decide)

theorem instance_eq_iff (x : Word) :
    ((x >>> 4) &&& 0xFFFF) <<< 4 = x ↔ x.toNat < 0x100000 ∧ 16 ∣ x.toNat := by
  have hlow : ((x >>> 4) &&& 0xFFFF).toNat = x.toNat / 16 % 65536 := by
    rw [← Nat.shiftRight_eq_div_pow x.toNat 4, ← BitVec.toNat_ushiftRight]
    exact toNat_and_lowMask (x >>> 4) (k := 16) (by decide)
  rw [← BitVec.toNat_inj, BitVec.toNat_shiftLeft, hlow, Nat.shiftLeft_eq]
  have hlt := x.isLt
  omega

/-- The offset a subroutine returns to shares its register with the flag of the call. -/
theorem subroutine_eq_iff (offset : Word) (active : Bool) :
    (offset ||| flag active) &&& 0x1FFFFFFC = offset ↔ offset.toNat < 0x20000000 ∧ 4 ∣ offset.toNat := by
  have hflag : flag active &&& 0x1FFFFFFC = 0#32 := by cases active <;> decide
  rw [or_and_of_apart hflag, and_offset_eq_iff]

theorem method_eq_iff (x : BitVec 14) : x &&& 0x1FFC = x ↔ x.toNat < 0x2000 ∧ 4 ∣ x.toNat :=
  and_midMask_eq_self_iff 2 13 (by decide)

/-- A mask of the low bits bounds the value. -/
theorem low_eq_iff {w k : Nat} (x : BitVec w) : x &&& midMask w 0 k = x ↔ x.toNat < 2 ^ k := by
  rw [and_midMask_eq_self_iff 0 k (Nat.zero_le k), Nat.pow_zero]
  exact and_iff_left (Nat.one_dvd _)

theorem restored_eq_iff (state : Cache1State) : restored state = state ↔ Whole state := by
  constructor
  · intro h
    exact
      { method := (method_eq_iff _).mp (congrArg Cache1State.method h)
        methodCount := (low_eq_iff (k := 11) _).mp (congrArg Cache1State.methodCount h)
        error := (low_eq_iff (k := 3) _).mp (congrArg Cache1State.error h)
        dmaInstance := (instance_eq_iff _).mp (congrArg Cache1State.dmaInstance h)
        subroutineReturn := (subroutine_eq_iff _ _).mp (congrArg Cache1State.subroutineReturn h)
        dcount := (and_1FFC_eq_iff _).mp (congrArg Cache1State.dcount h)
        getJmpShadow := (and_offset_eq_iff _).mp (congrArg Cache1State.getJmpShadow h) }
  · intro h
    have hactive : decide ((state.subroutineReturn ||| flag state.subroutineActive) &&& 1 ≠ 0) =
        state.subroutineActive := by
      have hlow : state.subroutineReturn &&& 1 = 0#32 := by
        rw [← (and_offset_eq_iff _).mpr h.subroutineReturn, BitVec.and_assoc]
        exact BitVec.and_zero
      rw [BitVec.or_comm, or_and_of_apart hlow]
      cases state.subroutineActive <;> rfl
    have hcount : state.methodCount &&& 0x7FF = state.methodCount :=
      (low_eq_iff (k := 11) _).mpr h.methodCount
    have herror : state.error &&& 7 = state.error := (low_eq_iff (k := 3) _).mpr h.error
    unfold restored
    rw [(method_eq_iff _).mpr h.method, hcount, herror, (instance_eq_iff _).mpr h.dmaInstance, hactive,
      (subroutine_eq_iff _ _).mpr h.subroutineReturn, (and_1FFC_eq_iff _).mpr h.dcount,
      (and_offset_eq_iff _).mpr h.getJmpShadow]

theorem saveRestore_eq_self_iff (n : NV2ADevice) (stale : Nat → Word) :
    saveRestore n stale = .ok n ↔ Whole n.machine.device.cache1 := by
  rw [saveRestore_eq, ← restored_eq_iff]
  constructor
  · intro h
    exact congrArg (fun n : NV2ADevice => n.machine.device.cache1) (Except.ok.inj h)
  · intro h
    rw [h]
    rfl

/-! ## Runs with saves and restores -/

/-- A step of the device, or a save with its restore, over what the variables of the reads held. -/
inductive SavingOp where
  | op (o : Op)
  | saveRestore (stale : Nat → Word)

/-- The CPU saves and restores outside the register write in which the pusher runs. -/
def savingStep (n : NV2ADevice) : SavingOp → Option NV2ADevice
  | .op o => step n o
  | .saveRestore stale => if n.machine.call.isSome then none else (saveRestore n stale).toOption

/-- The run without its saves and restores. -/
def SavingOp.toOp : SavingOp → Option Op
  | .op o => some o
  | .saveRestore _ => none

/-- A save and restore leaves the device as it was. -/
def Unchanged (n : NV2ADevice) : SavingOp → Prop
  | .op _ => True
  | .saveRestore stale => saveRestore n stale = .ok n

/-- It is made where every field goes into its register. -/
def WholeAt (n : NV2ADevice) : SavingOp → Prop
  | .op _ => True
  | .saveRestore _ => Whole n.machine.device.cache1

theorem unchanged_iff (n : NV2ADevice) (o : SavingOp) : Unchanged n o ↔ WholeAt n o := by
  cases o with
  | op o => exact Iff.rfl
  | saveRestore stale => exact saveRestore_eq_self_iff n stale

/-- In every run, whatever the reads are over, the saves and restores leave the pusher as it was
exactly when the fields go into their registers there; then the run goes on as the run without
them. -/
theorem save_restore_iff (n : NV2ADevice) (ops : List SavingOp) :
    (Guarded savingStep Unchanged n ops ↔ Guarded savingStep WholeAt n ops) ∧
      (Guarded savingStep WholeAt n ops → ∀ t, exec savingStep n ops = some t →
        exec step n (ops.filterMap SavingOp.toOp) = some t) := by
  refine ⟨⟨fun h => h.mono fun n o => (unchanged_iff n o).mp, fun h => h.mono fun n o =>
    (unchanged_iff n o).mpr⟩, fun h t ht => exec_filterMap ?_ ?_ h ht⟩
  · intro n o i n' hi hstep
    cases o with
    | op o =>
      cases hi
      exact hstep
    | saveRestore stale => cases hi
  · intro n o n' ho hwhole hstep
    cases o with
    | op o => cases ho
    | saveRestore stale =>
      have hsame := (saveRestore_eq_self_iff n stale).mpr hwhole
      simp only [savingStep, hsame] at hstep
      split_ifs at hstep
      exact (Option.some.inj hstep).symm

/-- The device over a push buffer of one command with a data word. -/
def oneWord : NV2ADevice :=
  NV2ADevice.reset (Lib.Bits.leBytes [0x00040004, 0xAAAA]) 0x4000000 1000000 0
    ⟨0, 0, 0, fun _ _ => 0, fun _ => 0, 0⟩

/-- The pusher is set up on an object of 64 bytes and run to its end. -/
def oneWordRun : List Op :=
  [registerWrite 0x700004 64, registerWrite 0x002504 1, registerWrite 0x003204 0x100,
    registerWrite 0x003200 1, registerWrite 0x003220 1, registerWrite 0x800040 8,
    .pusher, .puller, .pusher, .pusher]

/-- The pusher is run over a command with one data word, and then saved and restored. -/
theorem one_word_not_restored :
    ¬ ∀ t, exec step oneWord oneWordRun = some t → ∀ stale, saveRestore t stale = .ok t := by
  intro h
  have hrun : ∃ t, exec step oneWord oneWordRun = some t ∧ t.machine.device.cache1.dcount = 1 :=
    ⟨_, rfl, rfl⟩
  obtain ⟨t, ht, hdcount⟩ := hrun
  have hwhole := (saveRestore_eq_self_iff t fun _ => 0).mp (h t ht _)
  have hfits := hwhole.dcount
  rw [hdcount] at hfits
  revert hfits
  decide

end OpenXbox.Nv2a.SaveRestore
