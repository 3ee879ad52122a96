import OpenXbox.Lib.Loop
import OpenXbox.Nv2a.Memory

/-!
# The DMA pusher

`pfifo_run_pusher` reads words of the push buffer between GET and PUT. A word is
data of the command in progress, or it starts a new command, jumps, calls or
returns. The words fetched are recorded by their offset in VRAM.
-/

namespace OpenXbox.Nv2a.Pusher

open OpenXbox.Lib.Loop OpenXbox.Nv2a.Memory

def NV_PFIFO_MODE : Nat := 0x504

def ERROR_NONE : Word := 0
def ERROR_CALL : Word := 1
def ERROR_RETURN : Word := 3
def ERROR_RESERVED_CMD : Word := 4
def ERROR_PROTECTION : Word := 6

inductive FifoMode where
  | pio
  | dma
deriving DecidableEq

structure CacheEntry where
  method : BitVec 14
  subchannel : BitVec 3
  nonincreasing : Bool
  parameter : Word
deriving DecidableEq

/-- The pusher's part of `Cache1State`, with the commands queued in the cache. -/
structure Cache1State where
  channelId : Nat
  mode : FifoMode
  pushEnabled : Bool
  dmaPushEnabled : Bool
  dmaPushSuspended : Bool
  dmaInstance : Word
  methodNonincreasing : Bool
  method : BitVec 14
  subchannel : BitVec 3
  methodCount : BitVec 24
  dcount : Word
  subroutineActive : Bool
  subroutineReturn : Word
  getJmpShadow : Word
  rsvdShadow : Word
  dataShadow : Word
  error : Word
  cache : List CacheEntry

structure ChannelControl where
  dmaPut : Word
  dmaGet : Word
  ref : Word

/-- What the loop of the pusher changes. -/
structure PusherState where
  state : Cache1State
  control : ChannelControl
  fetched : List Nat

structure Device where
  vram : Nat → Byte
  ramin : Nat → Byte
  /-- `m_PFIFO.regs`, by offset. -/
  pfifoRegs : Nat → Word
  cache1 : Cache1State
  channelControl : Nat → ChannelControl
  fetched : List Nat

/-- A data word of the command in progress. -/
def pushData (word : Word) (p : PusherState) : PusherState :=
  let state := p.state
  let command : CacheEntry :=
    ⟨state.method, state.subchannel, state.methodNonincreasing, word⟩
  { p with state := { state with
      dataShadow := word
      cache := state.cache ++ [command]
      method := if state.methodNonincreasing then state.method else state.method + 4
      methodCount := state.methodCount - 1
      dcount := state.dcount + 1 } }

/-- A methods command starts: its fields and the number of data words. -/
def startMethods (word : Word) (nonincreasing : Bool) (p : PusherState) : PusherState :=
  { p with state := { p.state with
      method := (word &&& 0x1fff).setWidth 14
      subchannel := ((word >>> 13) &&& 7).setWidth 3
      methodCount := ((word >>> 18) &&& 0x7ff).setWidth 24
      methodNonincreasing := nonincreasing
      dcount := 0 } }

def PusherState.fail (p : PusherState) (error : Word) : PusherState := { p with state.error := error }

/-- The first word of a new command, matched against all forms in order. -/
def startCommand (word : Word) (p : PusherState) : Turn PusherState :=
  let p := { p with state.rsvdShadow := word }
  if word &&& 0xe0000003 = 0x20000000 then
    -- old jump
    .next { p with
      state.getJmpShadow := p.control.dmaGet
      control.dmaGet := word &&& 0x1fffffff }
  else if word &&& 3 = 1 then
    -- jump
    .next { p with
      state.getJmpShadow := p.control.dmaGet
      control.dmaGet := word &&& 0xfffffffc }
  else if word &&& 3 = 2 then
    -- call
    if p.state.subroutineActive then .exit (p.fail ERROR_CALL)
    else
      .next { p with
        state.subroutineReturn := p.control.dmaGet
        state.subroutineActive := true
        control.dmaGet := word &&& 0xfffffffc }
  else if word = 0x00020000 then
    -- return
    if !p.state.subroutineActive then .exit (p.fail ERROR_RETURN)
    else
      .next { p with
        control.dmaGet := p.state.subroutineReturn
        state.subroutineActive := false }
  else if word &&& 0xe0030003 = 0 then .next (startMethods word false p)
  else if word &&& 0xe0030003 = 0x40000000 then .next (startMethods word true p)
  else .exit (p.fail ERROR_RESERVED_CMD)

/-- One turn of the loop, over the VRAM from `dma` on. -/
def pusherBody (vram : Nat → Byte) (dma : Nat) (dmaLen : Word) (p : PusherState) : Turn PusherState :=
  if p.control.dmaGet = p.control.dmaPut then .exit p
  else if p.control.dmaGet ≥ dmaLen then .exit (p.fail ERROR_PROTECTION)
  else
    let i := dma + p.control.dmaGet.toNat
    let word := ldlLeP vram i
    let p := { p with control.dmaGet := p.control.dmaGet + 4, fetched := p.fetched ++ [i] }
    if p.state.methodCount ≠ 0 then .next (pushData word p) else startCommand word p

/-- How a call comes back. -/
inductive Outcome (σ : Type*) where
  | returned (s : σ)
  | aborted

/-- The device with the result of the loop stored. -/
def Device.store (d : Device) (p : PusherState) : Device :=
  { d with
    cache1 := p.state
    channelControl := fun i =>
      if i = d.cache1.channelId then p.control else d.channelControl i
    fetched := p.fetched }

/-- The state the loop starts in. -/
def Device.pusher (d : Device) : PusherState :=
  ⟨d.cache1, d.channelControl d.cache1.channelId, d.fetched⟩

/-- How `pfifo_run_pusher` gets to its loop. -/
inductive Entry where
  | returned
  | aborted
  | looping (dma : Nat) (dmaLen : Word)

/-- The checks before the loop of `pfifo_run_pusher`, and the mapping of its object. -/
def Device.enter (d : Device) : Entry :=
  if !d.cache1.pushEnabled then .returned
  else if d.pfifoRegs NV_PFIFO_MODE &&& (1 <<< d.cache1.channelId) = 0 then .aborted
  else if d.cache1.mode ≠ .dma then .aborted
  else if !d.cache1.dmaPushEnabled then .returned
  else if d.cache1.dmaPushSuspended then .returned
  else if d.cache1.error ≠ ERROR_NONE then .aborted
  else
    match nvDmaMap d.ramin d.cache1.dmaInstance with
    | none => .aborted
    | some (dma, dmaLen) => .looping dma dmaLen

/-- What follows the loop: the assertion fails when there is an error. -/
def Device.leave (d : Device) (p : PusherState) : Outcome Device :=
  if p.state.error ≠ ERROR_NONE then .aborted else .returned (d.store p)

/-- `pfifo_run_pusher` with a bound on the turns of its loop; `none` when the loop
has not ended by then. -/
def pfifoRunPusher (fuel : Nat) (d : Device) : Option (Outcome Device) :=
  match d.enter with
  | .returned => some (.returned d)
  | .aborted => some .aborted
  | .looping dma dmaLen => (loop (pusherBody d.vram dma dmaLen) fuel d.pusher).map d.leave

end OpenXbox.Nv2a.Pusher
