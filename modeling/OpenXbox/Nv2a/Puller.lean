import OpenXbox.Nv2a.Mmio

/-!
# The threads of the NV2A

The puller takes the commands out of the cache in batches and passes them on to PGRAPH.
Its steps end where it lets go of a mutex or waits. The CPU reads and writes registers,
the pusher runs inside such a write, and another thread raises the vertical blank.
-/

namespace OpenXbox.Nv2a.Puller

open OpenXbox.Lib.BitField OpenXbox.Nv2a.Memory OpenXbox.Nv2a.Pusher OpenXbox.Nv2a.Machine
  OpenXbox.Nv2a.Registers OpenXbox.Nv2a.Mmio

/-! ## Objects by their handles -/

def NV_PFIFO_RAMHT_BASE_ADDRESS : Field 32 := { mask := 0x1F0, shift := 4 }
def NV_PFIFO_RAMHT_SIZE : Field 32 := { mask := 0x30000, shift := 16 }
def NV_RAMHT_INSTANCE : Word := 0xFFFF
def NV_RAMHT_ENGINE : Word := 0x30000
def NV_RAMHT_CHID : Word := 0x1F000000
def NV_RAMHT_STATUS : Word := 0x80000000

/-- The parts of a handle of `bits` bits each; there are at least 11, so that three turns do. -/
def foldHandle (bits : Nat) : Nat → Word → Word → Word
  | 0, _, hash => hash
  | turns + 1, handle, hash =>
    if handle = 0 then hash
    else foldHandle bits turns (handle >>> bits) (hash ^^^ (handle &&& (((1 : Word) <<< bits) - 1)))

def ramhtHash (n : NV2ADevice) (handle : Word) : Word :=
  let size := NV_PFIFO_RAMHT_SIZE.get (n.machine.device.pfifoRegs NV_PFIFO_RAMHT)
  -- `ffs` of the size is the number of its bit and one more
  let bits := size.toNat + 12 + 1 - 2
  foldHandle bits 3 handle 0 ^^^ (BitVec.ofNat 32 n.machine.device.cache1.channelId <<< (bits - 4))

/-- `none` when the assertion on the hash fails. -/
def ramhtLookup (n : NV2ADevice) (handle : Word) : Option RAMHTEntry :=
  let register := n.machine.device.pfifoRegs NV_PFIFO_RAMHT
  let size := (1 : Word) <<< ((NV_PFIFO_RAMHT_SIZE.get register).toNat + 12)
  let hash := ramhtHash n handle
  if hash * 8 < size then
    let address := NV_PFIFO_RAMHT_BASE_ADDRESS.get register <<< 12
    let entry := address.toNat + (hash * 8).toNat
    let context := ldlLeP n.machine.device.ramin (entry + 4)
    some
      { handle := ldlLeP n.machine.device.ramin entry
        objectInstance := (context &&& NV_RAMHT_INSTANCE) <<< 4
        engine := ((context &&& NV_RAMHT_ENGINE) >>> 16).setWidth 2
        channelId := (context &&& NV_RAMHT_CHID) >>> 24
        valid := context &&& NV_RAMHT_STATUS ≠ 0 }
  else none

/-- The lookup with the assertions on its result. -/
def lookupObject (n : NV2ADevice) (handle : Word) : Option RAMHTEntry :=
  (ramhtLookup n handle).filter fun entry =>
    entry.valid ∧ entry.channelId = BitVec.ofNat 32 n.machine.device.cache1.channelId

/-! ## The puller -/

def setPhase (n : NV2ADevice) (phase : PullerPhase) : NV2ADevice :=
  { n with puller.phase := phase }

/-- The commands in the cache. -/
def cache (n : NV2ADevice) : List CacheEntry := n.machine.device.cache1.cache

/-- The whole cache is moved to the working cache. -/
def takeBatch (n : NV2ADevice) : NV2ADevice :=
  { n with
    puller.workingCache := n.puller.workingCache ++ cache n
    puller.phase := .inner
    machine.device.cache1.cache := [] }

/-- `pgraph_context_switch`, up to its wait. -/
def contextSwitch (n : NV2ADevice) (command : CacheEntry) (entry : RAMHTEntry) : NV2ADevice :=
  if n.machine.pgraph.channelValid ∧ n.pgraph.channelId = entry.channelId then
    setPhase n (.access command (some entry) entry.objectInstance)
  else
    setPhase { n with
      pgraph.trappedChannelId := entry.channelId
      pgraph.interrupts := n.pgraph.interrupts.raise NV_PGRAPH_INTR_CONTEXT_SWITCH }.updateIRQ
      (.switching command entry)

/-- A command taken out of the working cache; `none` when an assertion fails. -/
def dispatch (n : NV2ADevice) (command : CacheEntry) : Option NV2ADevice :=
  if command.method = 0 then
    (lookupObject n command.parameter).bind fun entry =>
      if entry.engine = ENGINE_GRAPHICS then some (contextSwitch n command entry) else none
  else if command.method ≥ 0x100 then
    let parameter :=
      if command.method ≥ 0x180 ∧ command.method < 0x200 then
        (lookupObject n command.parameter).map RAMHTEntry.objectInstance
      else some command.parameter
    parameter.bind fun parameter =>
      if n.puller.boundEngines command.subchannel = ENGINE_GRAPHICS then
        some (setPhase n (.access command none parameter))
      else none
  else some (setPhase n .inner)

/-- What follows a method: the engine is bound to the subchannel of an object. -/
def finish (p : Registers.Puller) (command : CacheEntry) : Option RAMHTEntry → Registers.Puller
  | some entry =>
    { p with
      boundEngines := Function.update p.boundEngines command.subchannel entry.engine
      lastEngine := entry.engine
      phase := .inner }
  | none =>
    { p with
      lastEngine := p.boundEngines command.subchannel
      phase := .inner }

/-- A step of the puller; `none` while it has to wait, and when an assertion fails. -/
def pullerStep (n : NV2ADevice) : Option NV2ADevice :=
  match n.puller.phase with
  | .outer => some (setPhase n (if n.puller.running then .waiting else .ended))
  | .waiting =>
    if (cache n).isEmpty ∨ !n.puller.pullEnabled then
      -- woken up by the destructor, it takes what there is
      if n.puller.running then none else some (takeBatch n)
    else some (takeBatch n)
  | .inner =>
    match n.puller.workingCache with
    | [] => some (setPhase n .outer)
    | command :: rest => dispatch { n with puller.workingCache := rest } command
  | .switching command entry =>
    if n.pgraph.interrupts.pending &&& NV_PGRAPH_INTR_CONTEXT_SWITCH ≠ 0 then none
    else some (setPhase n (.access command (some entry) entry.objectInstance))
  | .access command entry parameter =>
    if n.pgraph.fifoAccess then some (setPhase n (.method command entry parameter)) else none
  | .method command entry parameter =>
    (methodStep n.machine command.subchannel (command.method.setWidth 32) parameter).map fun m =>
      setPhase { n with machine := m } (.done command entry)
  | .done command entry => some { n with puller := finish n.puller command entry }
  | .ended => none

/-! ## The device and its threads -/

/-- An access of the CPU to a memory BAR, at a time of the host. -/
inductive Access where
  | read (nanoseconds : BitVec 64) (barIndex : Nat) (addr value : Word) (size : AccessSize)
  | write (barIndex : Nat) (addr value : Word) (size : AccessSize)

def access (n : NV2ADevice) : Access → WriteResult
  | .read nanoseconds barIndex addr value size =>
    (pciMMIORead n nanoseconds barIndex addr value size).map Prod.snd
  | .write barIndex addr value size => pciMMIOWrite n barIndex addr value size

/-- A turn of `VBlankThread`. -/
def vblank (n : NV2ADevice) : NV2ADevice :=
  if n.pcrtc.interrupts.enabled &&& NV_PCRTC_INTR_0_VBLANK ≠ 0 then
    { n with pcrtc.interrupts := n.pcrtc.interrupts.raise NV_PCRTC_INTR_0_VBLANK }.updateIRQ
  else n

/-- What can happen next. -/
inductive Op where
  | access (a : Access)
  /-- A byte of RAM changes from outside the device. -/
  | ram (i : Nat) (byte : Byte)
  /-- A turn of the pusher, inside a register write. -/
  | pusher
  | puller
  /-- A method of the 3D object sets a register of PGRAPH, which is not that of the surface. -/
  | setRegister (register : Nat) (value : Word)
  | vblank
  /-- The destructor stops the threads. -/
  | destroy

/-- `none` for a step that cannot be taken, or that ends in a fault. -/
def step (n : NV2ADevice) : Op → Option NV2ADevice
  | .access a => if n.machine.call.isSome then none else (access n a).toOption
  | .ram i byte =>
    some { n with machine.device.vram := Function.update n.machine.device.vram i byte }
  | .pusher => (n.machine.call.bind n.machine.pusherTurn).map fun m => { n with machine := m }
  | .puller => pullerStep n
  | .setRegister register value =>
    if register = NV_PGRAPH_SURFACE then none
    else some { n with pgraph.regs := Function.update n.pgraph.regs register value }
  | .vblank => some (vblank n)
  | .destroy => some { n with puller.running := false }

/-- A write of 32 bits to BAR 0. -/
def registerWrite (addr value : Word) : Op := .access (.write 0 addr value .four)

theorem step_setRegister {n n' : NV2ADevice} {register : Nat} {value : Word} :
    step n (.setRegister register value) = some n' ↔ register ≠ NV_PGRAPH_SURFACE ∧
      { n with pgraph.regs := Function.update n.pgraph.regs register value } = n' := by
  have hstep : step n (.setRegister register value) = if register = NV_PGRAPH_SURFACE then none
    else some { n with pgraph.regs := Function.update n.pgraph.regs register value } := rfl
  rw [hstep]
  split
  · next h => simp [h]
  · next h => simp [h]

/-- An access is only made outside the pusher. -/
theorem step_access {n n' : NV2ADevice} {a : Access} :
    step n (.access a) = some n' ↔ n.machine.call = none ∧ access n a = .ok n' := by
  have hstep : step n (.access a) = if n.machine.call.isSome then none else (access n a).toOption := rfl
  rw [hstep]
  cases n.machine.call with
  | some c => simp
  | none =>
    cases access n a with
    | error fault => simp [Except.toOption]
    | ok m => simp [Except.toOption]

/-- A read changes nothing but the retrace bit. -/
theorem access_read {n n' : NV2ADevice} {nanoseconds : BitVec 64} {barIndex : Nat} {addr value : Word}
    {size : AccessSize} (h : access n (.read nanoseconds barIndex addr value size) = .ok n') :
    ∃ st01, n' = { n with st01 := st01 } := by
  unfold access at h
  dsimp only at h
  cases hread : pciMMIORead n nanoseconds barIndex addr value size with
  | error fault =>
    rw [hread] at h
    cases h
  | ok result =>
    rw [hread] at h
    cases h
    exact pciMMIORead_device hread

/-- A command taken changes where the puller is; for a switch of the context it also interrupts. -/
theorem dispatch_cases {n n' : NV2ADevice} {command : CacheEntry} (h : dispatch n command = some n') :
    (∃ phase, n' = setPhase n phase) ∨
      ∃ channelId interrupts phase,
        n' = setPhase { n with
          pgraph.trappedChannelId := channelId
          pgraph.interrupts := interrupts }.updateIRQ phase := by
  unfold dispatch at h
  split at h
  · obtain ⟨entry, -, hentry⟩ := Option.bind_eq_some_iff.mp h
    split at hentry
    · cases hentry
      unfold contextSwitch
      split
      · exact .inl ⟨_, rfl⟩
      · exact .inr ⟨_, _, _, rfl⟩
    · cases hentry
  split at h
  · obtain ⟨parameter, -, hparameter⟩ := Option.bind_eq_some_iff.mp h
    split at hparameter
    · cases hparameter
      exact .inl ⟨_, rfl⟩
    · cases hparameter
  · cases h
    exact .inl ⟨_, rfl⟩

end OpenXbox.Nv2a.Puller
