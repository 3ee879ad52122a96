import OpenXbox.Lib.Run
import OpenXbox.Nv2a.Pusher
import OpenXbox.Nv2a.Pgraph

/-!
# The NV2A as a machine

The accesses of the guest that program the pusher and the 2D objects, the window
of BAR 1, and the turns of the pusher. The CPU is inside its register write while
the pusher runs; RAM and the methods of the puller thread go on changing.
-/

namespace OpenXbox.Nv2a.Machine

open OpenXbox.Lib.Run OpenXbox.Lib.Loop OpenXbox.Nv2a.Memory OpenXbox.Nv2a.Pusher OpenXbox.Nv2a.Pgraph

def NV_PFIFO_CACHE1_PUSH0 : Nat := 0x1200
def NV_PFIFO_CACHE1_PUSH1 : Nat := 0x1204
def NV_PFIFO_CACHE1_DMA_PUSH : Nat := 0x1220
def NV_PFIFO_CACHE1_DMA_STATE : Nat := 0x1228
def NV_PFIFO_CACHE1_DMA_INSTANCE : Nat := 0x122C
def NV_PFIFO_CACHE1_DMA_PUT : Nat := 0x1240
def NV_PFIFO_CACHE1_DMA_GET : Nat := 0x1244
def NV_PFIFO_CACHE1_DMA_SUBROUTINE : Nat := 0x124C
def NV_PFIFO_CACHE1_DMA_DCOUNT : Nat := 0x12A0
def NV_PFIFO_CACHE1_DMA_GET_JMP_SHADOW : Nat := 0x12A4
def NV_PFIFO_CACHE1_DMA_RSVD_SHADOW : Nat := 0x12A8
def NV_PFIFO_CACHE1_DMA_DATA_SHADOW : Nat := 0x12AC

/-- Registers of interrupts and of the puller, whose writes touch nothing that is modelled here. -/
def otherRegisters : List Nat := [0x100, 0x140, 0x1250, 0x1280]

def NV_USER_DMA_PUT : Nat := 0x40
def NV_USER_DMA_GET : Nat := 0x44
def NV_USER_REF : Nat := 0x48

def NV2A_NUM_CHANNELS : Nat := 32

inductive AccessSize where
  | one
  | two
  | four

def AccessSize.bytes : AccessSize → Nat
  | .one => 1
  | .two => 2
  | .four => 4

/-- A little-endian store of the low bytes of a value. -/
def storeBytes (mem : Nat → Byte) (i : Nat) (value : Word) (size : AccessSize) (j : Nat) : Byte :=
  if i ≤ j ∧ j < i + size.bytes then (value >>> (8 * (j - i))).setWidth 8 else mem j

/-- A call of the pusher that has got to its loop over the object mapped at `dma`. The
register write that made the call sets the suspended flag when it is back, if `suspend`. -/
structure PusherCall where
  dma : Nat
  dmaLen : Word
  suspend : Option Bool

structure State where
  device : Device
  pgraph : PgraphState
  call : Option PusherCall

def State.setCache1 (s : State) (cache1 : Cache1State) : State :=
  { s with device := { s.device with cache1 := cache1 } }

def State.setControl (s : State) (channel : Nat) (control : ChannelControl) : State :=
  { s with device := { s.device with
      channelControl := Function.update s.device.channelControl channel control } }

/-- The register write that called the pusher goes on. -/
def State.afterPusher (s : State) (suspend : Option Bool) : State :=
  match suspend with
  | none => { s with call := none }
  | some b => { s.setCache1 { s.device.cache1 with dmaPushSuspended := b } with call := none }

/-- A call of `pfifo_run_pusher`, up to its loop. -/
def State.callPusher (s : State) (suspend : Option Bool) : Option State :=
  match s.device.enter with
  | .returned => some (s.afterPusher suspend)
  | .aborted => none
  | .looping dma dmaLen => some { s with call := some ⟨dma, dmaLen, suspend⟩ }

/-- One turn of the loop of the pusher. -/
def State.pusherTurn (s : State) (c : PusherCall) : Option State :=
  match pusherBody s.device.vram c.dma c.dmaLen s.device.pusher with
  | .next p => some { s with device := s.device.store p }
  | .exit p =>
    match s.device.leave p with
    | .aborted => none
    | .returned d => some ({ s with device := d }.afterPusher c.suspend)

/-- `NV_PFIFO_CACHE1_DMA_PUSH`: clearing the status of a suspended pusher runs it. -/
def dmaPush (s : State) (value : Word) : Option State :=
  let status : Bool := value &&& 0x1000 ≠ 0
  let state := { s.device.cache1 with dmaPushEnabled := value &&& 1 ≠ 0 }
  if state.dmaPushSuspended && !status then
    (s.setCache1 { state with dmaPushSuspended := false }).callPusher (some false)
  else some (s.setCache1 { state with dmaPushSuspended := status })

/-- The other registers of the pusher that a write changes. -/
def pusherRegister (state : Cache1State) (addr : Nat) (value : Word) : Option Cache1State :=
  if addr = NV_PFIFO_CACHE1_PUSH0 then some { state with pushEnabled := value &&& 1 ≠ 0 }
  else if addr = NV_PFIFO_CACHE1_PUSH1 then
    some { state with
      channelId := (value &&& 0x1F).toNat
      mode := if value &&& 0x100 ≠ 0 then .dma else .pio }
  else if addr = NV_PFIFO_CACHE1_DMA_STATE then
    some { state with
      methodNonincreasing := value &&& 1 ≠ 0
      method := (value &&& 0x1FFC).setWidth 14
      subchannel := ((value &&& 0xE000) >>> 13).setWidth 3
      methodCount := ((value &&& 0x1FFC0000) >>> 18).setWidth 24
      error := (value &&& 0xE0000000) >>> 29 }
  else if addr = NV_PFIFO_CACHE1_DMA_INSTANCE then
    some { state with dmaInstance := (value &&& 0xFFFF) <<< 4 }
  else if addr = NV_PFIFO_CACHE1_DMA_SUBROUTINE then
    some { state with
      subroutineReturn := value &&& 0x1FFFFFFC
      subroutineActive := value &&& 1 ≠ 0 }
  else if addr = NV_PFIFO_CACHE1_DMA_DCOUNT then some { state with dcount := value &&& 0x1FFC }
  else if addr = NV_PFIFO_CACHE1_DMA_GET_JMP_SHADOW then
    some { state with getJmpShadow := value &&& 0x1FFFFFFC }
  else if addr = NV_PFIFO_CACHE1_DMA_RSVD_SHADOW then some { state with rsvdShadow := value }
  else if addr = NV_PFIFO_CACHE1_DMA_DATA_SHADOW then some { state with dataShadow := value }
  else none

/-- `PFIFOWrite` of 32 bits. -/
def pfifoWrite (s : State) (addr : Nat) (value : Word) : Option State :=
  let channel := s.device.cache1.channelId
  let control := s.device.channelControl channel
  if addr = NV_PFIFO_CACHE1_DMA_PUSH then dmaPush s value
  else if addr = NV_PFIFO_CACHE1_DMA_PUT then
    some (s.setControl channel { control with dmaPut := value })
  else if addr = NV_PFIFO_CACHE1_DMA_GET then
    some (s.setControl channel { control with dmaGet := value })
  else if addr ∈ otherRegisters then some s
  else
    match pusherRegister s.device.cache1 addr value with
    | some state => some (s.setCache1 state)
    | none =>
      some { s with device := { s.device with
        pfifoRegs := Function.update s.device.pfifoRegs addr value } }

/-- `USERWrite` of 32 bits at an offset into the block. -/
def userWrite (s : State) (addr : Nat) (value : Word) : Option State :=
  let channel := addr / 0x10000
  let control := s.device.channelControl channel
  if channel ≥ NV2A_NUM_CHANNELS then none
  else if s.device.pfifoRegs NV_PFIFO_MODE &&& (1 <<< channel) = 0 then none
  else if addr % 0x10000 = NV_USER_DMA_PUT then
    let s := s.setControl channel { control with dmaPut := value }
    if s.device.cache1.pushEnabled then s.callPusher none else some s
  else if addr % 0x10000 = NV_USER_DMA_GET then
    some (s.setControl channel { control with dmaGet := value })
  else if addr % 0x10000 = NV_USER_REF then
    some (s.setControl channel { control with ref := value })
  else some s

/-- An access of the CPU that reaches the device. -/
inductive CpuAccess where
  | bar1Read (addr : BitVec 27) (size : AccessSize)
  | bar1Write (addr : BitVec 27) (value : Word) (size : AccessSize)
  | pramin (addr : BitVec 20) (value : Word) (size : AccessSize)
  | pfifo (addr : BitVec 13) (value : Word)
  | user (addr : BitVec 23) (value : Word)
  /-- `NV_PGRAPH_CTX_CONTROL`. -/
  | ctxControl (value : Word)

def cpuAccess (s : State) : CpuAccess → Option State
  | .bar1Read _ _ => some s
  | .bar1Write addr value size =>
    some { s with device := { s.device with
      vram := storeBytes s.device.vram addr.toNat value size } }
  | .pramin addr value size =>
    some { s with device := { s.device with
      ramin := storeBytes s.device.ramin addr.toNat value size } }
  | .pfifo addr value => pfifoWrite s addr.toNat value
  | .user addr value => userWrite s addr.toNat value
  | .ctxControl value =>
    some { s with pgraph := { s.pgraph with channelValid := value &&& 0x10000 ≠ 0 } }

/-- What can happen next. -/
inductive Op where
  | cpu (a : CpuAccess)
  /-- A byte of RAM changes from outside the device. -/
  | ram (i : Nat) (byte : Byte)
  | pusher
  /-- The puller passes a method on. -/
  | method (subchannel : BitVec 3) (method parameter : Word)

def methodStep (s : State) (subchannel : BitVec 3) (method parameter : Word) : Option State :=
  match pgraphMethod s.device.ramin s.pgraph subchannel method parameter with
  | .aborted => none
  | .returned g => some { s with pgraph := g }
  | .blit g b => some { s with
      pgraph := g
      device := { s.device with vram := b.run s.device.vram } }

/-- `none` also for an access while the CPU is in the pusher, and for a turn outside it. -/
def step (s : State) : Op → Option State
  | .cpu a => if s.call.isSome then none else cpuAccess s a
  | .ram i byte =>
    some { s with device := { s.device with vram := Function.update s.device.vram i byte } }
  | .pusher => s.call.bind s.pusherTurn
  | .method subchannel method parameter => methodStep s subchannel method parameter

/-! ## The turns of a call make up the loop -/

theorem startCommand_keeps (word : Word) (p : PusherState) :
    (startCommand word p).result.state.channelId = p.state.channelId ∧
      (startCommand word p).result.fetched = p.fetched := by
  unfold startCommand
  dsimp only
  split
  · exact ⟨rfl, rfl⟩
  split
  · exact ⟨rfl, rfl⟩
  split
  · split
    · exact ⟨rfl, rfl⟩
    · exact ⟨rfl, rfl⟩
  split
  · split
    · exact ⟨rfl, rfl⟩
    · exact ⟨rfl, rfl⟩
  split
  · exact ⟨rfl, rfl⟩
  split
  · exact ⟨rfl, rfl⟩
  · exact ⟨rfl, rfl⟩

/-- The offsets a turn fetches a word from. -/
def turnFetches (dma : Nat) (dmaLen : Word) (p : PusherState) : List Nat :=
  if p.control.dmaGet = p.control.dmaPut ∨ p.control.dmaGet ≥ dmaLen then []
  else [dma + p.control.dmaGet.toNat]

theorem pusherBody_keeps (vram : Nat → Byte) (dma : Nat) (dmaLen : Word) (p : PusherState) :
    (pusherBody vram dma dmaLen p).result.state.channelId = p.state.channelId ∧
      (pusherBody vram dma dmaLen p).result.fetched =
        p.fetched ++ turnFetches dma dmaLen p := by
  unfold pusherBody turnFetches
  split
  · next hput => exact ⟨rfl, by rw [if_pos (.inl hput), List.append_nil]; rfl⟩
  · next hput =>
    split
    · next hlen => exact ⟨rfl, by rw [if_pos (.inr hlen), List.append_nil]; rfl⟩
    · next hlen =>
      rw [if_neg (not_or.mpr ⟨hput, hlen⟩)]
      dsimp only
      split
      · exact ⟨rfl, rfl⟩
      · exact startCommand_keeps _ _

theorem pusher_store {d : Device} {p : PusherState}
    (h : p.state.channelId = d.cache1.channelId) : (d.store p).pusher = p := by
  rw [Device.pusher, Device.store]
  dsimp only
  rw [if_pos h]

theorem store_store {d : Device} {p q : PusherState}
    (h : p.state.channelId = d.cache1.channelId) : (d.store p).store q = d.store q := by
  unfold Device.store
  refine congrArg (Device.mk d.vram d.ramin d.pfifoRegs q.state · q.fetched) ?_
  funext i
  dsimp only
  rw [h]
  split
  · rfl
  · rfl

/-- When the loop of a call ends without an error, its turns lead to the state in
which the register write goes on. -/
theorem exec_turns {fuel : Nat} {s : State} {c : PusherCall} {t : PusherState}
    (hc : s.call = some c)
    (hl : loop (pusherBody s.device.vram c.dma c.dmaLen) fuel s.device.pusher = some t)
    (he : t.state.error = ERROR_NONE) :
    ∃ n, exec step s (List.replicate n .pusher) =
      some ({ s with device := s.device.store t }.afterPusher c.suspend) := by
  have hleave (d : Device) : d.leave t = .returned (d.store t) := if_neg (not_not.mpr he)
  induction fuel generalizing s with
  | zero => cases hl
  | succ fuel ih =>
    have hstep : step s .pusher = s.pusherTurn c := by
      rw [step, hc]
      rfl
    cases hb : pusherBody s.device.vram c.dma c.dmaLen s.device.pusher with
    | next p =>
      have hid : p.state.channelId = s.device.cache1.channelId := by
        have hkeep := (pusherBody_keeps s.device.vram c.dma c.dmaLen s.device.pusher).1
        rw [hb] at hkeep
        exact hkeep
      rw [loop_next hb] at hl
      obtain ⟨n, hn⟩ := ih (s := { s with device := s.device.store p }) hc (by
        rw [pusher_store hid]
        exact hl)
      refine ⟨n + 1, ?_⟩
      have hturn : s.pusherTurn c = some { s with device := s.device.store p } := by
        rw [State.pusherTurn, hb]
      rw [List.replicate_succ, exec_cons, hstep, hturn, Option.bind_some, hn]
      dsimp only
      rw [store_store hid]
    | exit p =>
      rw [loop_exit hb] at hl
      cases hl
      refine ⟨1, ?_⟩
      have hturn : s.pusherTurn c =
          some ({ s with device := s.device.store t }.afterPusher c.suspend) := by
        rw [State.pusherTurn, hb]
        dsimp only
        rw [hleave]
      rw [List.replicate_one, exec_cons, hstep, hturn]
      rfl

end OpenXbox.Nv2a.Machine
