import OpenXbox.Nv2a.Division
import OpenXbox.Nv2a.InterruptTree
import OpenXbox.Nv2a.Kickoff

/-!
# Errors of the pusher

An error ends the loop of the pusher. The assertion after the loop then stops a build that checks
its assertions; a build without them suspends the pusher and raises its interrupt. The checks before
the loop keep a suspended pusher from running, and assert that there is no error.
-/

namespace OpenXbox.Nv2a.PusherErrors

open OpenXbox.Lib.Bits (leBytes or_and_cancel)
open OpenXbox.Nv2a.Division (resetDevice)
open OpenXbox.Lib.Loop OpenXbox.Nv2a.Memory OpenXbox.Nv2a.Pusher OpenXbox.Nv2a.Machine
  OpenXbox.Nv2a.Registers OpenXbox.Nv2a.Mmio OpenXbox.Nv2a.InterruptTree OpenXbox.Nv2a.PushBuffer
  OpenXbox.Nv2a.Kickoff

def NV_PFIFO_INTR_0_DMA_PUSHER : Word := 1 <<< 12

/-! ## The pusher in a build with or without its assertions -/

/-- The checks before the loop. A DMA object outside RAMIN is a fault in any build. -/
def enter (asserts : Bool) (d : Device) : Entry :=
  if !d.cache1.pushEnabled then .returned
  else if asserts ∧ d.pfifoRegs NV_PFIFO_MODE &&& (1 <<< d.cache1.channelId) = 0 then .aborted
  else if asserts ∧ d.cache1.mode ≠ .dma then .aborted
  else if !d.cache1.dmaPushEnabled then .returned
  else if d.cache1.dmaPushSuspended then .returned
  else if asserts ∧ d.cache1.error ≠ ERROR_NONE then .aborted
  else
    match nvDmaMap d.ramin d.cache1.dmaInstance with
    | none => .aborted
    | some (dma, dmaLen) => .looping dma dmaLen

/-- What the pusher does about an error, once it is past the assertion. -/
def suspend (n : NV2ADevice) : NV2ADevice :=
  NV2ADevice.updateIRQ
    { n with
      machine.device.cache1.dmaPushSuspended := true
      pfifo := n.pfifo.raise NV_PFIFO_INTR_0_DMA_PUSHER }

def stored (n : NV2ADevice) (p : PusherState) : NV2ADevice :=
  { n with machine.device := n.machine.device.store p }

def leave (asserts : Bool) (n : NV2ADevice) (p : PusherState) : Outcome NV2ADevice :=
  if p.state.error = ERROR_NONE then .returned (stored n p)
  else if asserts then .aborted
  else .returned (suspend (stored n p))

def runPusher (asserts : Bool) (fuel : Nat) (n : NV2ADevice) : Option (Outcome NV2ADevice) :=
  match enter asserts n.machine.device with
  | .returned => some (.returned n)
  | .aborted => some .aborted
  | .looping dma dmaLen =>
    (loop (pusherBody n.machine.device.vram dma dmaLen) fuel n.machine.device.pusher).map
      (leave asserts n)

def onDevice (n : NV2ADevice) : Outcome Device → Outcome NV2ADevice
  | .returned d => .returned { n with machine.device := d }
  | .aborted => .aborted

theorem enter_true (d : Device) : enter true d = d.enter := by
  cases hmap : nvDmaMap d.ramin d.cache1.dmaInstance with
  | none => simp only [enter, Device.enter, true_and, hmap]
  | some mapped => simp only [enter, Device.enter, true_and, hmap]

/-- With its assertions the pusher is `pfifoRunPusher`. -/
theorem runPusher_true (fuel : Nat) (n : NV2ADevice) :
    runPusher true fuel n = (pfifoRunPusher fuel n.machine.device).map (onDevice n) := by
  rw [runPusher, pfifoRunPusher, enter_true]
  cases n.machine.device.enter with
  | returned | aborted => rfl
  | looping dma dmaLen =>
    dsimp only
    rw [Option.map_map]
    congr 1
    funext p
    by_cases herror : p.state.error = ERROR_NONE
    · simp [leave, Device.leave, onDevice, stored, herror]
    · simp [leave, Device.leave, onDevice, herror]

/-! ## The register writes that run it -/

inductive KickOff where
  /-- `NV_USER_DMA_PUT` of a channel. -/
  | put (channel : Nat) (value : Word)
  /-- `NV_PFIFO_CACHE1_DMA_PUSH`. -/
  | push (value : Word)

def setPut (n : NV2ADevice) (channel : Nat) (value : Word) : NV2ADevice :=
  let control := n.machine.device.channelControl channel
  { n with machine := n.machine.setControl channel { control with dmaPut := value } }

def setCache1 (n : NV2ADevice) (state : Cache1State) : NV2ADevice :=
  { n with machine := n.machine.setCache1 state }

def setSuspended (b : Bool) : Outcome NV2ADevice → Outcome NV2ADevice
  | .returned n => .returned (setCache1 n { n.machine.device.cache1 with dmaPushSuspended := b })
  | .aborted => .aborted

/-- The 32-bit write. A channel that does not exist is a fault in any build. -/
def write (asserts : Bool) (fuel : Nat) (n : NV2ADevice) : KickOff → Option (Outcome NV2ADevice)
  | .put channel value =>
    if channel ≥ NV2A_NUM_CHANNELS then some .aborted
    else if n.machine.device.pfifoRegs NV_PFIFO_MODE &&& (1 <<< channel) = 0 then
      some (if asserts then .aborted else .returned n)
    else if n.machine.device.cache1.pushEnabled then runPusher asserts fuel (setPut n channel value)
    else some (.returned (setPut n channel value))
  | .push value =>
    let status : Bool := value &&& 0x1000 ≠ 0
    let state := { n.machine.device.cache1 with dmaPushEnabled := value &&& 1 ≠ 0 }
    if state.dmaPushSuspended && !status then
      (runPusher asserts fuel (setCache1 n { state with dmaPushSuspended := false })).map
        (setSuspended status)
    else some (.returned (setCache1 n { state with dmaPushSuspended := status }))

/-- The device on which the write calls the pusher, if it does. -/
def starts (n : NV2ADevice) : KickOff → Option NV2ADevice
  | .put channel value =>
    if channel < NV2A_NUM_CHANNELS ∧ n.machine.device.pfifoRegs NV_PFIFO_MODE &&& (1 <<< channel) ≠ 0 ∧
        n.machine.device.cache1.pushEnabled then some (setPut n channel value)
    else none
  | .push value =>
    if n.machine.device.cache1.dmaPushSuspended ∧ value &&& 0x1000 = 0 then
      some (setCache1 n
        { n.machine.device.cache1 with
          dmaPushEnabled := value &&& 1 ≠ 0
          dmaPushSuspended := false })
    else none

/-- What the write does with the pusher's outcome. -/
def KickOff.after : KickOff → Outcome NV2ADevice → Outcome NV2ADevice
  | .put _ _ => id
  | .push _ => setSuspended false

/-! ## What is asked of errors -/

/-- The first word of a command that is none of those there are. -/
structure Reserved (word : Word) : Prop where
  notJump : word &&& 0xe0000003 ≠ 0x20000000 ∧ word &&& 3 ≠ 1
  notCall : word &&& 3 ≠ 2
  notReturn : word ≠ 0x00020000
  notMethods : word &&& 0xe0030003 ≠ 0 ∧ word &&& 0xe0030003 ≠ 0x40000000

section Errors

variable (vram : Nat → Byte) (dma : Nat) (dmaLen : Word)

/-- The pusher is about to fetch the first word of a command. -/
structure Fetches (p : PusherState) (word : Word) : Prop where
  notDone : p.control.dmaGet ≠ p.control.dmaPut
  within : p.control.dmaGet < dmaLen
  first : p.state.methodCount = 0
  word_eq : ldlLeP vram (dma + p.control.dmaGet.toNat) = word

/-- The errors, with their codes. -/
inductive ErrorAt (p : PusherState) : Word → Prop where
  | beyond (notDone : p.control.dmaGet ≠ p.control.dmaPut) (limit : p.control.dmaGet ≥ dmaLen) :
    ErrorAt p ERROR_PROTECTION
  | nestedCall {word : Word} (fetched : Fetches vram dma dmaLen p word) (call : word &&& 3 = 2)
    (active : p.state.subroutineActive = true) : ErrorAt p ERROR_CALL
  | returnWithoutCall (fetched : Fetches vram dma dmaLen p 0x00020000)
    (inactive : p.state.subroutineActive = false) : ErrorAt p ERROR_RETURN
  | reserved {word : Word} (fetched : Fetches vram dma dmaLen p word) (reserved : Reserved word) :
    ErrorAt p ERROR_RESERVED_CMD

end Errors

/-- The pusher, called on this device, meets an error. -/
def Meets (asserts : Bool) (n : NV2ADevice) (error : Word) : Prop :=
  ∃ dma dmaLen p, enter asserts n.machine.device = .looping dma dmaLen ∧
    Steps (pusherBody n.machine.device.vram dma dmaLen) n.machine.device.pusher p ∧
    ErrorAt n.machine.device.vram dma dmaLen p error

/-- The pusher is stopped by an error. -/
structure Halted (error : Word) (n : NV2ADevice) : Prop where
  recorded : n.machine.device.cache1.error = error
  suspended : n.machine.device.cache1.dmaPushSuspended = true
  pending : n.pfifo.pending &&& NV_PFIFO_INTR_0_DMA_PUSHER ≠ 0
  settled : Settled n

/-- The pusher is not to push until the guest clears it. -/
def Stopped (n : NV2ADevice) : Prop :=
  n.machine.device.cache1.dmaPushSuspended = true ∨ n.machine.device.cache1.error ≠ ERROR_NONE

/-- The write that runs into an error comes back with the pusher halted, and a stopped pusher comes
back as it was. -/
structure ErrorsHandled (asserts : Bool) (n : NV2ADevice) (k : KickOff) : Prop where
  completes : ∀ called, starts n k = some called → ∀ error, Meets asserts called error →
    ∃ fuel n', write asserts fuel n k = some (.returned n') ∧ Halted error n'
  still : ∀ called, starts n k = some called → Stopped called →
    ∃ fuel, runPusher asserts fuel called = some (.returned called)

/-! ## One turn -/

section Turn

variable {vram : Nat → Byte} {dma : Nat} {dmaLen : Word} {p q : PusherState}

theorem pusherBody_fetches {word : Word} (h : Fetches vram dma dmaLen p word) :
    pusherBody vram dma dmaLen p = startCommand word (fetch dma p) := by
  have hcount : ¬ (fetch dma p).state.methodCount ≠ 0 := not_not.mpr h.first
  obtain ⟨hdone, hlen, -, rfl⟩ := h
  exact (if_neg hdone).trans ((if_neg (BitVec.not_le.mpr hlen)).trans (if_neg hcount))

/-- A call is no jump of the old form. -/
theorem notOldJump_of_call {word : Word} (h : word &&& 3 = 2) : word &&& 0xe0000003 ≠ 0x20000000 := by
  intro hjump
  have hlow : word &&& 3 = (word &&& 0xe0000003) &&& 3 := by
    rw [BitVec.and_assoc]
    rfl
  rw [h, hjump] at hlow
  cases hlow

/-- An error leaves the loop, with its code recorded. -/
theorem pusherBody_of_error {error : Word} (h : ErrorAt vram dma dmaLen p error) :
    ∃ q, pusherBody vram dma dmaLen p = .exit q ∧ q.state.error = error := by
  cases h with
  | beyond hdone hlimit => exact ⟨p.fail ERROR_PROTECTION, (if_neg hdone).trans (if_pos hlimit), rfl⟩
  | @nestedCall word hfetch hcall hactive =>
    have hjump : ¬ word &&& 3 = 1 := by
      rw [hcall]
      decide
    have hturn : pusherBody vram dma dmaLen p =
        .exit (PusherState.fail { fetch dma p with state.rsvdShadow := word } ERROR_CALL) := by
      rw [pusherBody_fetches hfetch, startCommand, if_neg (notOldJump_of_call hcall), if_neg hjump,
        if_pos hcall]
      exact if_pos hactive
    exact ⟨_, hturn, rfl⟩
  | returnWithoutCall hfetch hinactive =>
    have hoff : (!p.state.subroutineActive) = true := by
      rw [hinactive]
      rfl
    have hturn : pusherBody vram dma dmaLen p =
        .exit (PusherState.fail { fetch dma p with state.rsvdShadow := 0x00020000 } ERROR_RETURN) := by
      rw [pusherBody_fetches hfetch, startCommand, if_neg (by decide), if_neg (by decide),
        if_neg (by decide), if_pos rfl]
      exact if_pos hoff
    exact ⟨_, hturn, rfl⟩
  | @reserved word hfetch hreserved =>
    have hturn : pusherBody vram dma dmaLen p =
        .exit (PusherState.fail { fetch dma p with state.rsvdShadow := word } ERROR_RESERVED_CMD) := by
      rw [pusherBody_fetches hfetch, startCommand, if_neg hreserved.notJump.1,
        if_neg hreserved.notJump.2, if_neg hreserved.notCall, if_neg hreserved.notReturn,
        if_neg hreserved.notMethods.1, if_neg hreserved.notMethods.2]
    exact ⟨_, hturn, rfl⟩

/-- A command that leaves the loop is an error. -/
theorem startCommand_exit {word : Word} (hfetch : Fetches vram dma dmaLen p word)
    (h : startCommand word (fetch dma p) = .exit q) : ErrorAt vram dma dmaLen p q.state.error := by
  unfold startCommand at h
  dsimp only at h
  split at h
  · cases h
  next hold =>
  split at h
  · cases h
  next hjump =>
  split at h
  · next hcall =>
    split at h
    · next hactive =>
      cases h
      exact .nestedCall hfetch hcall hactive
    · cases h
  next hcall =>
  split at h
  · next hreturn =>
    split at h
    · next hinactive =>
      cases h
      subst hreturn
      have hinactive : (!p.state.subroutineActive) = true := hinactive
      exact .returnWithoutCall hfetch (by simpa using hinactive)
    · cases h
  next hreturn =>
  split at h
  · cases h
  next hmethods =>
  split at h
  · cases h
  next hmethods' =>
  cases h
  exact .reserved hfetch ⟨⟨hold, hjump⟩, hcall, hreturn, hmethods, hmethods'⟩

/-- The loop is left at PUT, or with an error. -/
theorem pusherBody_exit (h : pusherBody vram dma dmaLen p = .exit q) :
    p.control.dmaGet = p.control.dmaPut ∧ q = p ∨ ErrorAt vram dma dmaLen p q.state.error := by
  by_cases hdone : p.control.dmaGet = p.control.dmaPut
  · rw [pusherBody, if_pos hdone] at h
    cases h
    exact .inl ⟨hdone, rfl⟩
  right
  by_cases hlimit : p.control.dmaGet ≥ dmaLen
  · rw [pusherBody, if_neg hdone, if_pos hlimit] at h
    cases h
    exact .beyond hdone hlimit
  by_cases hcount : p.state.methodCount = 0
  · have hfetch : Fetches vram dma dmaLen p (ldlLeP vram (dma + p.control.dmaGet.toNat)) :=
      ⟨hdone, BitVec.not_le.mp hlimit, hcount, rfl⟩
    exact startCommand_exit hfetch ((pusherBody_fetches hfetch).symm.trans h)
  · have hdata : pusherBody vram dma dmaLen p = .next _ :=
      (if_neg hdone).trans ((if_neg hlimit).trans (if_pos hcount))
    rw [hdata] at h
    cases h

theorem ErrorAt.ne_none {error : Word} (h : ErrorAt vram dma dmaLen p error) : error ≠ ERROR_NONE := by
  cases h <;> decide

/-- The loop started with an error is left with one. -/
theorem error_of_exit (hsteps : Steps (pusherBody vram dma dmaLen) p q) {t : PusherState}
    (hexit : pusherBody vram dma dmaLen q = .exit t) (herror : p.state.error ≠ ERROR_NONE) :
    t.state.error ≠ ERROR_NONE := by
  have hkept : q.state.error = p.state.error := congrArg Setup.error (setup_of_steps hsteps).1
  obtain ⟨-, rfl⟩ | hmet := pusherBody_exit hexit
  · rwa [hkept]
  · exact hmet.ne_none

end Turn

/-! ## A call of the pusher -/

section Call

variable {asserts : Bool} {n called : NV2ADevice} {k : KickOff} {dma : Nat} {dmaLen : Word}
  {p q : PusherState}

theorem runPusher_looping (henter : enter asserts n.machine.device = .looping dma dmaLen) (fuel : Nat) :
    runPusher asserts fuel n =
      (loop (pusherBody n.machine.device.vram dma dmaLen) fuel n.machine.device.pusher).map
        (leave asserts n) := by
  rw [runPusher, henter]

/-- A call whose loop is left has one outcome. -/
theorem runPusher_of_exit (henter : enter asserts n.machine.device = .looping dma dmaLen)
    (hsteps : Steps (pusherBody n.machine.device.vram dma dmaLen) n.machine.device.pusher p)
    (hexit : pusherBody n.machine.device.vram dma dmaLen p = .exit q) :
    (∃ fuel, runPusher asserts fuel n = some (leave asserts n q)) ∧
      ∀ fuel r, runPusher asserts fuel n = some r → r = leave asserts n q := by
  have hends : Ends (pusherBody n.machine.device.vram dma dmaLen) n.machine.device.pusher q :=
    .of_steps hsteps (.of_exit hexit)
  constructor
  · obtain ⟨fuel, hloop⟩ := hends
    refine ⟨fuel, ?_⟩
    rw [runPusher_looping henter, hloop, Option.map_some]
  · intro fuel r hr
    rw [runPusher_looping henter] at hr
    obtain ⟨t, hloop, rfl⟩ := Option.map_eq_some_iff.mp hr
    rw [Ends.unique ⟨fuel, hloop⟩ hends]

theorem write_of_starts (h : starts n k = some called) (fuel : Nat) :
    write asserts fuel n k = (runPusher asserts fuel called).map k.after := by
  cases k with
  | put channel value =>
    rw [starts] at h
    split at h
    · next hstarts =>
      cases h
      obtain ⟨hchannel, hmode, hpush⟩ := hstarts
      rw [write, if_neg (Nat.not_le.mpr hchannel), if_neg hmode, if_pos hpush]
      exact Option.map_id'.symm ▸ rfl
    · cases h
  | push value =>
    rw [starts] at h
    split at h
    · next hstarts =>
      cases h
      obtain ⟨hsuspended, hstatus⟩ := hstarts
      have hcleared : decide (value &&& 0x1000 ≠ 0) = false := decide_eq_false (not_not.mpr hstatus)
      rw [write]
      dsimp only
      rw [hcleared, hsuspended]
      rfl
    · cases h

theorem after_aborted (k : KickOff) : k.after .aborted = .aborted := by
  cases k <;> rfl

theorem halted_suspend {error : Word} (h : n.machine.device.cache1.error = error) :
    Halted error (suspend n) where
  recorded := h
  suspended := rfl
  pending := by
    have hbit : (n.pfifo.pending ||| NV_PFIFO_INTR_0_DMA_PUSHER) &&& NV_PFIFO_INTR_0_DMA_PUSHER =
        NV_PFIFO_INTR_0_DMA_PUSHER := or_and_cancel _ _
    show (n.pfifo.pending ||| NV_PFIFO_INTR_0_DMA_PUSHER) &&& NV_PFIFO_INTR_0_DMA_PUSHER ≠ 0
    rw [hbit]
    decide
  settled := settled_updateIRQ _

/-- The write halts the pusher on an error only past the assertion, and if it does not store the
suspended flag after the call. -/
theorem completes_iff (hstarts : starts n k = some called) {error : Word}
    (hmeets : Meets asserts called error) :
    (∃ fuel n', write asserts fuel n k = some (.returned n') ∧ Halted error n') ↔
      asserts = false ∧ ∃ channel value, k = .put channel value := by
  obtain ⟨dma, dmaLen, p, henter, hsteps, herror⟩ := hmeets
  obtain ⟨q, hexit, hcode⟩ := pusherBody_of_error herror
  obtain ⟨⟨fuel, hrun⟩, hunique⟩ := runPusher_of_exit henter hsteps hexit
  have hleave : leave asserts called q =
      if asserts then .aborted else .returned (suspend (stored called q)) := by
    rw [leave, if_neg (hcode ▸ herror.ne_none)]
  constructor
  · rintro ⟨fuel', n', hwrite, hhalted⟩
    rw [write_of_starts hstarts] at hwrite
    obtain ⟨r, hr, hafter⟩ := Option.map_eq_some_iff.mp hwrite
    rw [hunique fuel' r hr, hleave] at hafter
    cases asserts with
    | true =>
      rw [if_pos rfl, after_aborted] at hafter
      cases hafter
    | false =>
      refine ⟨rfl, ?_⟩
      cases k with
      | put channel value => exact ⟨channel, value, rfl⟩
      | push value =>
        cases hafter
        cases hhalted.suspended
  · rintro ⟨rfl, channel, value, rfl⟩
    refine ⟨fuel, suspend (stored called q), ?_, halted_suspend hcode⟩
    rw [write_of_starts hstarts, hrun, hleave]
    rfl

/-- The checks of the pusher send it back without an assertion that fails. -/
def Quiet (asserts : Bool) (d : Device) : Prop :=
  d.cache1.pushEnabled = false ∨
    (asserts = true → d.pfifoRegs NV_PFIFO_MODE &&& (1 <<< d.cache1.channelId) ≠ 0 ∧
      d.cache1.mode = .dma) ∧
    (d.cache1.dmaPushEnabled = false ∨ d.cache1.dmaPushSuspended = true)

theorem enter_returned_iff (d : Device) : enter asserts d = .returned ↔ Quiet asserts d := by
  unfold enter Quiet
  cases d.cache1.pushEnabled with
  | false => exact iff_of_true rfl (.inl rfl)
  | true =>
    rw [if_neg (by decide), or_iff_right (by decide)]
    by_cases hmodes : asserts = true ∧ d.pfifoRegs NV_PFIFO_MODE &&& (1 <<< d.cache1.channelId) = 0
    · rw [if_pos hmodes]
      exact iff_of_false (fun h => (by cases h)) fun h => (h.1 hmodes.1).1 hmodes.2
    rw [if_neg hmodes]
    by_cases hmode : asserts = true ∧ d.cache1.mode ≠ .dma
    · rw [if_pos hmode]
      exact iff_of_false (fun h => (by cases h)) fun h => hmode.2 (h.1 hmode.1).2
    have hchecks (hasserts : asserts = true) :
        d.pfifoRegs NV_PFIFO_MODE &&& (1 <<< d.cache1.channelId) ≠ 0 ∧ d.cache1.mode = .dma :=
      ⟨fun h => hmodes ⟨hasserts, h⟩, not_not.mp fun h => hmode ⟨hasserts, h⟩⟩
    rw [if_neg hmode, and_iff_right hchecks]
    cases d.cache1.dmaPushEnabled with
    | false => exact iff_of_true rfl (.inl rfl)
    | true =>
      cases d.cache1.dmaPushSuspended with
      | true => exact iff_of_true rfl (.inr rfl)
      | false =>
        refine iff_of_false (fun h => ?_) (by decide)
        rw [if_neg (by decide), if_neg (by decide)] at h
        split at h
        · cases h
        split at h
        · cases h
        · cases h

theorem enter_looping {d : Device} (h : enter asserts d = .looping dma dmaLen) :
    d.cache1.dmaPushSuspended = false ∧ (asserts = true → d.cache1.error = ERROR_NONE) := by
  unfold enter at h
  split at h
  · cases h
  split at h
  · cases h
  split at h
  · cases h
  split at h
  · cases h
  split at h
  · cases h
  next hsuspended =>
  split at h
  · cases h
  next herror =>
  exact ⟨Bool.eq_false_iff.mpr hsuspended, fun hasserts => not_not.mp fun hne => herror ⟨hasserts, hne⟩⟩

/-- A stopped pusher is left as it was by the checks before the loop alone. -/
theorem still_iff (hstopped : Stopped called) :
    (∃ fuel, runPusher asserts fuel called = some (.returned called)) ↔
      Quiet asserts called.machine.device := by
  rw [← enter_returned_iff]
  constructor
  · rintro ⟨fuel, hrun⟩
    cases henter : enter asserts called.machine.device with
    | returned => rfl
    | aborted =>
      rw [runPusher, henter] at hrun
      cases hrun
    | looping dma dmaLen =>
      obtain ⟨hsuspended, hnone⟩ := enter_looping henter
      have herror : called.machine.device.cache1.error ≠ ERROR_NONE :=
        hstopped.resolve_left (by rw [hsuspended]; exact Bool.false_ne_true)
      rw [runPusher_looping henter] at hrun
      obtain ⟨t, hloop, hleave⟩ := Option.map_eq_some_iff.mp hrun
      obtain ⟨u, hsteps, hexit⟩ := Ends.last_turn ⟨fuel, hloop⟩
      rw [leave, if_neg (error_of_exit hsteps hexit herror)] at hleave
      cases asserts with
      | true => exact absurd (hnone rfl) herror
      | false =>
        -- The pusher comes back suspended.
        have hsame : suspend (stored called t) = called := Outcome.returned.inj hleave
        have hset := congrArg (fun n => n.machine.device.cache1.dmaPushSuspended) hsame
        rw [hsuspended] at hset
        cases hset
  · intro henter
    exact ⟨0, by rw [runPusher, henter]⟩

end Call

/-- The write runs into no error, or only where the error is seen to; and a stopped pusher is sent
back by its checks. -/
structure Clean (asserts : Bool) (n : NV2ADevice) (k : KickOff) : Prop where
  noError : ∀ called, starts n k = some called → ∀ error, Meets asserts called error →
    asserts = false ∧ ∃ channel value, k = .put channel value
  quiet : ∀ called, starts n k = some called → Stopped called → Quiet asserts called.machine.device

/-- In a build with or without its assertions, errors are handled exactly when a register write that
runs the pusher is clean. -/
theorem pusher_errors_handled_iff (asserts : Bool) (n : NV2ADevice) (k : KickOff) :
    ErrorsHandled asserts n k ↔ Clean asserts n k := by
  constructor
  · intro h
    exact
      ⟨fun called hstarts error hmeets =>
        (completes_iff hstarts hmeets).mp (h.completes called hstarts error hmeets),
      fun called hstarts hstopped => (still_iff hstopped).mp (h.still called hstarts hstopped)⟩
  · intro h
    exact
      ⟨fun called hstarts error hmeets =>
        (completes_iff hstarts hmeets).mpr (h.noError called hstarts error hmeets),
      fun called hstarts hstopped => (still_iff hstopped).mpr (h.quiet called hstarts hstopped)⟩

/-- A pusher whose buffer starts with a return. -/
def returnDevice (suspended : Bool) : NV2ADevice :=
  { resetDevice with
    machine.device :=
      { sampleDevice with
        vram := leBytes [0x00020000]
        cache1.dmaPushSuspended := suspended } }

/-- With its assertions, a return without a call stops the build, and without them a write to
DMA_PUSH leaves the pusher running. -/
theorem return_without_call_mishandled :
    ¬ (∀ n k, ErrorsHandled true n k) ∧ ¬ ∀ n k, ErrorsHandled false n k := by
  constructor
  · intro h
    obtain ⟨called, hstarts⟩ : ∃ called, starts (returnDevice false) (.put 0 28) = some called :=
      ⟨_, rfl⟩
    have hmeets : Meets true called ERROR_RETURN := by
      cases hstarts
      exact ⟨0, 64, _, rfl, .refl, .returnWithoutCall ⟨by decide, by decide, rfl, by decide⟩ rfl⟩
    have hcompletes := (h (returnDevice false) (.put 0 28)).completes called hstarts _ hmeets
    cases ((completes_iff hstarts hmeets).mp hcompletes).1
  · intro h
    obtain ⟨called, hstarts⟩ : ∃ called, starts (returnDevice true) (.push 1) = some called :=
      ⟨_, rfl⟩
    have hmeets : Meets false called ERROR_RETURN := by
      cases hstarts
      exact ⟨0, 64, _, rfl, .refl, .returnWithoutCall ⟨by decide, by decide, rfl, by decide⟩ rfl⟩
    have hcompletes := (h (returnDevice true) (.push 1)).completes called hstarts _ hmeets
    obtain ⟨-, channel, value, hput⟩ := (completes_iff hstarts hmeets).mp hcompletes
    cases hput

end OpenXbox.Nv2a.PusherErrors
