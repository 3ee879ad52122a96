import Mathlib.Data.Finite.Prod
import OpenXbox.Lib.Cycle
import OpenXbox.Nv2a.Machine
import OpenXbox.Nv2a.PushBuffer

/-!
# Kick-offs of the pusher

A write to DMA_PUT runs the pusher up to the new PUT. All that a turn of its loop goes
by is in the state it leaves, so that a run can be cut in two at any GET it comes to;
and it goes by GET, the data words to come and the subroutine alone, so that it is left
unless it comes back to a place where these are as they were.
-/

namespace OpenXbox.Nv2a.Kickoff

open OpenXbox.Lib.Loop OpenXbox.Lib.Cycle OpenXbox.Lib.Bits OpenXbox.Nv2a.Memory OpenXbox.Nv2a.Pusher
  OpenXbox.Nv2a.Machine OpenXbox.Nv2a.PushBuffer

/-! ## One turn -/

/-- What the pusher is set up with; its turns leave it alone. -/
structure Setup where
  channelId : Nat
  mode : FifoMode
  pushEnabled : Bool
  dmaPushEnabled : Bool
  dmaPushSuspended : Bool
  dmaInstance : Word
  error : Word

def PusherState.setup (p : PusherState) : Setup :=
  ⟨p.state.channelId, p.state.mode, p.state.pushEnabled, p.state.dmaPushEnabled,
    p.state.dmaPushSuspended, p.state.dmaInstance, p.state.error⟩

/-- What a turn of the loop goes by. -/
structure Position where
  get : Word
  put : Word
  count : BitVec 24
  active : Bool
  back : Word

def position (p : PusherState) : Position :=
  ⟨p.control.dmaGet, p.control.dmaPut, p.state.methodCount, p.state.subroutineActive,
    p.state.subroutineReturn⟩

/-- The same turn on the way to another PUT. -/
def withPut (put : Word) (p : PusherState) : PusherState := { p with control.dmaPut := put }

/-- The part `f` of the loop goes on from `p` to `q`; it does the same for another PUT, and
it gets to the same position from any state in the position of `p`. -/
structure Continues (f : PusherState → Turn PusherState) (p q : PusherState) : Prop where
  setup : PusherState.setup q = PusherState.setup p
  put : q.control.dmaPut = p.control.dmaPut
  other (put : Word) : f (withPut put p) = .next (withPut put q)
  same (p' : PusherState) (h : position p' = position p) :
    ∃ q', f p' = .next q' ∧ position q' = position q

theorem position_eq_iff {p q : PusherState} : position p = position q ↔
    p.control.dmaGet = q.control.dmaGet ∧ p.control.dmaPut = q.control.dmaPut ∧
      p.state.methodCount = q.state.methodCount ∧
      p.state.subroutineActive = q.state.subroutineActive ∧
      p.state.subroutineReturn = q.state.subroutineReturn := by
  simp [position]

/-- A command that goes on has one effect on all states in one position. -/
theorem Continues.of_effect {f : PusherState → Turn PusherState} {p : PusherState}
    (effect : PusherState → PusherState)
    (hf : ∀ r, r.state.subroutineActive = p.state.subroutineActive → f r = .next (effect r))
    (hsetup : PusherState.setup (effect p) = PusherState.setup p)
    (hput : (effect p).control.dmaPut = p.control.dmaPut)
    (hother : ∀ put, effect (withPut put p) = withPut put (effect p))
    (hsame : ∀ r, position r = position p → position (effect r) = position (effect p)) :
    Continues f p (effect p) :=
  ⟨hsetup, hput, fun put => (hf (withPut put p) rfl).trans (congrArg Turn.next (hother put)),
    fun r hr => ⟨effect r, hf r (position_eq_iff.mp hr).2.2.2.1, hsame r hr⟩⟩

theorem startCommand_continues {word : Word} {p q : PusherState} (h : startCommand word p = .next q) :
    Continues (startCommand word) p q := by
  unfold startCommand at h
  dsimp only at h
  split at h
  · next h1 =>
    cases h
    refine .of_effect (fun r => { r with
        state.rsvdShadow := word
        state.getJmpShadow := r.control.dmaGet
        control.dmaGet := word &&& 0x1fffffff })
      (fun r _ => if_pos h1) rfl rfl (fun _ => rfl) fun r hr => ?_
    obtain ⟨-, hput, hcount, hactive, hback⟩ := position_eq_iff.mp hr
    exact position_eq_iff.mpr ⟨rfl, hput, hcount, hactive, hback⟩
  next h1 =>
  split at h
  · next h2 =>
    cases h
    refine .of_effect (fun r => { r with
        state.rsvdShadow := word
        state.getJmpShadow := r.control.dmaGet
        control.dmaGet := word &&& 0xfffffffc })
      (fun r _ => (if_neg h1).trans (if_pos h2)) rfl rfl (fun _ => rfl) fun r hr => ?_
    obtain ⟨-, hput, hcount, hactive, hback⟩ := position_eq_iff.mp hr
    exact position_eq_iff.mpr ⟨rfl, hput, hcount, hactive, hback⟩
  next h2 =>
  split at h
  · next h3 =>
    split at h
    · cases h
    next hoff =>
    cases h
    refine .of_effect (fun r => { r with
        state.rsvdShadow := word
        state.subroutineReturn := r.control.dmaGet
        state.subroutineActive := true
        control.dmaGet := word &&& 0xfffffffc })
      (fun r ha => ?_) rfl rfl (fun _ => rfl) fun r hr => ?_
    · unfold startCommand
      rw [if_neg h1, if_neg h2, if_pos h3]
      exact if_neg (ha ▸ hoff)
    · obtain ⟨hget, hput, hcount, -, -⟩ := position_eq_iff.mp hr
      exact position_eq_iff.mpr ⟨rfl, hput, hcount, rfl, hget⟩
  next h3 =>
  split at h
  · next h4 =>
    split at h
    · cases h
    next hon =>
    cases h
    refine .of_effect (fun r => { r with
        state.rsvdShadow := word
        state.subroutineActive := false
        control.dmaGet := r.state.subroutineReturn })
      (fun r ha => ?_) rfl rfl (fun _ => rfl) fun r hr => ?_
    · unfold startCommand
      rw [if_neg h1, if_neg h2, if_neg h3, if_pos h4]
      exact if_neg (ha ▸ hon)
    · obtain ⟨-, hput, hcount, -, hback⟩ := position_eq_iff.mp hr
      exact position_eq_iff.mpr ⟨hback, hput, hcount, rfl, hback⟩
  next h4 =>
  have hmethods (nonincreasing : Bool)
      (hword : ∀ r, startCommand word r =
        .next (startMethods word nonincreasing { r with state.rsvdShadow := word })) :
      Continues (startCommand word) p
        (startMethods word nonincreasing { p with state.rsvdShadow := word }) := by
    refine .of_effect (fun r => startMethods word nonincreasing { r with state.rsvdShadow := word })
      (fun r _ => hword r) rfl rfl (fun _ => rfl) fun r hr => ?_
    obtain ⟨hget, hput, -, hactive, hback⟩ := position_eq_iff.mp hr
    exact position_eq_iff.mpr ⟨hget, hput, rfl, hactive, hback⟩
  have hword (r : PusherState) : startCommand word r =
      if word &&& 0xe0030003 = 0 then .next (startMethods word false { r with state.rsvdShadow := word })
      else if word &&& 0xe0030003 = 0x40000000 then
        .next (startMethods word true { r with state.rsvdShadow := word })
      else .exit (PusherState.fail { r with state.rsvdShadow := word } ERROR_RESERVED_CMD) :=
    (if_neg h1).trans ((if_neg h2).trans ((if_neg h3).trans (if_neg h4)))
  split at h
  · next h5 =>
    cases h
    exact hmethods false fun r => (hword r).trans (if_pos h5)
  next h5 =>
  split at h
  · next h6 =>
    cases h
    exact hmethods true fun r => (hword r).trans ((if_neg h5).trans (if_pos h6))
  · cases h

variable {vram : Nat → Byte} {dma : Nat} {dmaLen : Word} {p q : PusherState}

/-- The state in which the fetched word is looked at. -/
def fetch (dma : Nat) (p : PusherState) : PusherState :=
  { p with
    control.dmaGet := p.control.dmaGet + 4
    fetched := p.fetched ++ [dma + p.control.dmaGet.toNat] }

/-- What is done with a fetched word. -/
def execute (word : Word) (p : PusherState) : Turn PusherState :=
  if p.state.methodCount ≠ 0 then .next (pushData word p) else startCommand word p

theorem pusherBody_next (h : pusherBody vram dma dmaLen p = .next q) :
    p.control.dmaGet ≠ p.control.dmaPut ∧ ¬ p.control.dmaGet ≥ dmaLen ∧
      execute (ldlLeP vram (dma + p.control.dmaGet.toNat)) (fetch dma p) = .next q := by
  unfold pusherBody at h
  split at h
  · cases h
  next hput =>
  split at h
  · cases h
  next hlen => exact ⟨hput, hlen, h⟩

theorem pusherBody_of_execute (hput : p.control.dmaGet ≠ p.control.dmaPut)
    (hlen : ¬ p.control.dmaGet ≥ dmaLen)
    (h : execute (ldlLeP vram (dma + p.control.dmaGet.toNat)) (fetch dma p) = .next q) :
    pusherBody vram dma dmaLen p = .next q :=
  (if_neg hput).trans ((if_neg hlen).trans h)

theorem execute_continues {word : Word} (h : execute word p = .next q) :
    Continues (execute word) p q := by
  unfold execute at h
  split at h
  · next hcount =>
    cases h
    refine ⟨rfl, rfl, fun put => if_pos hcount, fun r hr => ?_⟩
    obtain ⟨hget, hput, hsame, hactive, hback⟩ := position_eq_iff.mp hr
    refine ⟨pushData word r, if_pos (hsame ▸ hcount), ?_⟩
    exact position_eq_iff.mpr ⟨hget, hput, congrArg (· - 1) hsame, hactive, hback⟩
  · next hcount =>
    obtain ⟨hsetup, hput, hother, hsame⟩ := startCommand_continues h
    refine ⟨hsetup, hput, fun put => (if_neg hcount).trans (hother put), fun r hr => ?_⟩
    obtain ⟨q', hq, hpos⟩ := hsame r hr
    exact ⟨q', (if_neg ((position_eq_iff.mp hr).2.2.1 ▸ hcount)).trans hq, hpos⟩

/-- A turn that goes on. -/
theorem pusherBody_continues (h : pusherBody vram dma dmaLen p = .next q) :
    PusherState.setup q = PusherState.setup p ∧ q.control.dmaPut = p.control.dmaPut ∧
      (∀ put, p.control.dmaGet ≠ put →
        pusherBody vram dma dmaLen (withPut put p) = .next (withPut put q)) ∧
      ∀ p', position p' = position p →
        ∃ q', pusherBody vram dma dmaLen p' = .next q' ∧ position q' = position q := by
  obtain ⟨hput, hlen, hexec⟩ := pusherBody_next h
  obtain ⟨hsetup, hsameput, hother, hsame⟩ := execute_continues hexec
  refine ⟨hsetup, hsameput, fun put hne => ?_, fun p' hp => ?_⟩
  · exact pusherBody_of_execute hne hlen (hother put)
  · obtain ⟨hget', hput', hcount, hactive, hback⟩ := position_eq_iff.mp hp
    have hfetch : position (fetch dma p') = position (fetch dma p) :=
      position_eq_iff.mpr ⟨congrArg (· + 4) hget', hput', hcount, hactive, hback⟩
    obtain ⟨q', hq, hpos⟩ := hsame _ hfetch
    rw [← hget'] at hq
    exact ⟨q', pusherBody_of_execute (by rw [hget', hput']; exact hput) (by rw [hget']; exact hlen) hq,
      hpos⟩

/-! ## A run cut in two -/

/-- A write to DMA_PUT of the channel of the pusher. -/
def Device.setPut (d : Device) (put : Word) : Device :=
  let control := d.channelControl d.cache1.channelId
  { d with
    channelControl :=
      Function.update d.channelControl d.cache1.channelId { control with dmaPut := put } }

/-- The pusher is run up to a new PUT, and returns. -/
def Kicks (d : Device) (put : Word) (d' : Device) : Prop :=
  ∃ fuel, pfifoRunPusher fuel (Device.setPut d put) = some (.returned d')

/-- The run up to `put` has `get` for its GET at the head of its loop. -/
def Visits (d : Device) (put get : Word) : Prop :=
  ∃ dma dmaLen p, (Device.setPut d put).enter = .looping dma dmaLen ∧
    Steps (pusherBody d.vram dma dmaLen) (Device.setPut d put).pusher p ∧ p.control.dmaGet = get

theorem pusher_setPut (d : Device) (put : Word) :
    (Device.setPut d put).pusher = withPut put d.pusher := by
  unfold Device.pusher Device.setPut withPut
  dsimp only
  rw [Function.update_self]

theorem setup_of_steps (h : Steps (pusherBody vram dma dmaLen) p q) :
    PusherState.setup q = PusherState.setup p ∧ q.control.dmaPut = p.control.dmaPut := by
  induction h with
  | refl => exact ⟨rfl, rfl⟩
  | tail _ hturn ih =>
    obtain ⟨hsetup, hput, -⟩ := pusherBody_continues hturn
    exact ⟨hsetup.trans ih.1, hput.trans ih.2⟩

/-- The loop up to the GET of a turn of a longer loop ends where that turn starts. -/
theorem ends_at_visit (h : Steps (pusherBody vram dma dmaLen) p q) :
    ∃ r, Steps (pusherBody vram dma dmaLen) p r ∧
      Ends (pusherBody vram dma dmaLen) (withPut q.control.dmaGet p)
        (withPut q.control.dmaGet r) := by
  have hexit (r : PusherState) (hr : r.control.dmaGet = q.control.dmaGet) :
      Ends (pusherBody vram dma dmaLen) (withPut q.control.dmaGet r)
        (withPut q.control.dmaGet r) := .of_exit (if_pos hr)
  -- on the turns of the longer loop, up to the first with that GET
  induction h using Relation.ReflTransGen.head_induction_on with
  | refl => exact ⟨q, .refl, hexit q rfl⟩
  | @head p p' hturn _ ih =>
    by_cases hget : p.control.dmaGet = q.control.dmaGet
    · exact ⟨p, .refl, hexit p hget⟩
    · obtain ⟨r, hsteps, hends⟩ := ih
      obtain ⟨-, -, hother, -⟩ := pusherBody_continues hturn
      exact ⟨r, .head hturn hsteps, .of_next (hother _ hget) hends⟩

theorem enter_store {d : Device} (h : PusherState.setup p = PusherState.setup d.pusher) :
    (d.store p).enter = d.enter := by
  simp only [PusherState.setup, Device.pusher, Setup.mk.injEq] at h
  obtain ⟨hid, hmode, hpush, hdma, hsuspended, hinstance, herror⟩ := h
  unfold Device.enter Device.store
  simp only [hid, hmode, hpush, hdma, hsuspended, hinstance, herror]

theorem error_of_looping {d : Device} (h : d.enter = .looping dma dmaLen) :
    d.cache1.error = ERROR_NONE := by
  unfold Device.enter at h
  split at h
  · cases h
  split at h
  · cases h
  split at h
  · cases h
  split at h
  · cases h
  split at h
  · cases h
  split at h
  · cases h
  next herror => exact not_not.mp herror

/-- A kick-off whose pusher gets to its loop returns when the loop ends without an error. -/
theorem kicks_iff {d d' : Device} {put : Word} (hlooping : d.enter = .looping dma dmaLen) :
    Kicks d put d' ↔ ∃ t, Ends (pusherBody d.vram dma dmaLen) (withPut put d.pusher) t ∧
      t.state.error = ERROR_NONE ∧ (Device.setPut d put).store t = d' := by
  have hrun (fuel : Nat) : pfifoRunPusher fuel (Device.setPut d put) =
      (loop (pusherBody d.vram dma dmaLen) fuel (withPut put d.pusher)).map
        (Device.setPut d put).leave := by
    have henter : (Device.setPut d put).enter = .looping dma dmaLen := hlooping
    rw [pfifoRunPusher, henter, ← pusher_setPut]
    rfl
  constructor
  · intro h'
    obtain ⟨fuel, h⟩ := h'
    rw [hrun] at h
    obtain ⟨t, hloop, hleave⟩ := Option.map_eq_some_iff.mp h
    unfold Device.leave at hleave
    split at hleave
    · cases hleave
    next herror => exact ⟨t, ⟨fuel, hloop⟩, not_not.mp herror, Outcome.returned.inj hleave⟩
  · intro h'
    obtain ⟨t, ⟨fuel, hloop⟩, herror, hstore⟩ := h'
    refine ⟨fuel, ?_⟩
    rw [hrun, hloop, Option.map_some, Device.leave, if_neg (not_not.mpr herror), hstore]

theorem store_setPut {d : Device} {put put' : Word} (t : PusherState)
    (hid : p.state.channelId = d.cache1.channelId) :
    (Device.setPut ((Device.setPut d put).store p) put').store t =
      (Device.setPut d put').store t := by
  unfold Device.store Device.setPut
  refine congrArg (Device.mk d.vram d.ramin d.pfifoRegs t.state · t.fetched) ?_
  funext i
  dsimp only
  rw [hid]
  split
  · rfl
  · next hi => simp only [Function.update_of_ne hi, if_neg hi]

/-- A kick-off can be stopped at any GET its loop comes to, and go on from there. -/
theorem kick_offs_compose {d d2 : Device} {p1 p2 : Word} (hkick : Kicks d p2 d2)
    (hvisit : Visits d p2 p1) : ∃ d1, Kicks d p1 d1 ∧ Kicks d1 p2 d2 := by
  obtain ⟨dma, dmaLen, q, henter, hsteps, rfl⟩ := hvisit
  have hlooping : d.enter = .looping dma dmaLen := henter
  obtain ⟨t, hends, herror, rfl⟩ := (kicks_iff hlooping).mp hkick
  rw [pusher_setPut] at hsteps
  obtain ⟨r, hr, hstop⟩ := ends_at_visit hsteps
  obtain ⟨hsetup, hput⟩ := setup_of_steps hr
  have hid : r.state.channelId = d.cache1.channelId := congrArg Setup.channelId hsetup
  have hnone : r.state.error = ERROR_NONE :=
    (congrArg Setup.error hsetup).trans (error_of_looping hlooping)
  refine ⟨(Device.setPut d q.control.dmaGet).store (withPut q.control.dmaGet r), ?_, ?_⟩
  · exact (kicks_iff hlooping).mpr ⟨_, hstop, hnone, rfl⟩
  · have hagain : ((Device.setPut d q.control.dmaGet).store (withPut q.control.dmaGet r)).enter =
        .looping dma dmaLen := by
      rw [enter_store]
      · exact hlooping
      · rw [pusher_setPut]
        exact hsetup
    have hstored : withPut p2
        ((Device.setPut d q.control.dmaGet).store (withPut q.control.dmaGet r)).pusher = r := by
      rw [pusher_store (by exact hid), withPut, withPut, ← show r.control.dmaPut = p2 from hput]
    refine (kicks_iff hagain).mpr ⟨t, ?_, herror, store_setPut t hid⟩
    rw [hstored]
    exact ends_of_steps hr hends

theorem sampleDevice_looping : sampleDevice.enter = .looping 0 64 := enter_of_ready sampleDevice_ready

/-- Cut between the two data words of the first command. -/
theorem sampleDevice_composes :
    ∃ d2, Kicks sampleDevice 12 d2 ∧ ∃ d1, Kicks sampleDevice 8 d1 ∧ Kicks d1 12 d2 := by
  have hends : ∃ t, Ends (pusherBody sampleDevice.vram 0 64) (withPut 12 sampleDevice.pusher) t ∧
      t.state.error = ERROR_NONE := ⟨_, ⟨4, rfl⟩, rfl⟩
  have hvisit : Visits sampleDevice 12 8 :=
    ⟨0, 64, _, sampleDevice_looping, .head rfl (.head rfl .refl), rfl⟩
  obtain ⟨t, ht, herror⟩ := hends
  have hkick := (kicks_iff sampleDevice_looping).mpr ⟨t, ht, herror, rfl⟩
  exact ⟨_, hkick, kick_offs_compose hkick hvisit⟩

/-! ## Runs that end -/

instance : Finite Position := by
  refine Finite.of_injective (fun i => (i.get, i.put, i.count, i.active, i.back)) fun i j h => ?_
  simp only [Prod.mk.injEq] at h
  obtain ⟨hget, hput, hcount, hactive, hback⟩ := h
  cases i
  simp_all

theorem pusherBody_positional (vram : Nat → Byte) (dma : Nat) (dmaLen : Word) :
    Positional (pusherBody vram dma dmaLen) position := by
  intro p p' q hpos hturn
  obtain ⟨-, -, -, hsame⟩ := pusherBody_continues hturn
  obtain ⟨q', hturn', hpos'⟩ := hsame p' hpos.symm
  exact ⟨q', hturn', hpos'.symm⟩

/-- The loop of the pusher comes back with the GET, the data words to come and the subroutine
as they were. -/
def Loops (d : Device) : Prop :=
  ∃ dma dmaLen, d.enter = .looping dma dmaLen ∧
    ComesBack (pusherBody d.vram dma dmaLen) position d.pusher

/-- A pusher that gets to its loop ends when the loop does. -/
theorem ends_iff_of_looping {d : Device} (henter : d.enter = .looping dma dmaLen) :
    (∃ fuel r, pfifoRunPusher fuel d = some r) ↔ ∃ t, Ends (pusherBody d.vram dma dmaLen) d.pusher t := by
  simp only [pfifoRunPusher, henter, Option.map_eq_some_iff, Ends]
  constructor
  · intro h'
    obtain ⟨fuel, _, t, hloop, -⟩ := h'
    exact ⟨t, fuel, hloop⟩
  · intro h'
    obtain ⟨t, fuel, hloop⟩ := h'
    exact ⟨fuel, _, t, hloop, rfl⟩

theorem ends_of_not_looping {d : Device} (h : ∀ dma dmaLen, d.enter ≠ .looping dma dmaLen) :
    ∃ fuel r, pfifoRunPusher fuel d = some r := by
  refine ⟨0, ?_⟩
  rw [pfifoRunPusher]
  cases henter : d.enter with
  | returned => exact ⟨_, rfl⟩
  | aborted => exact ⟨_, rfl⟩
  | looping dma dmaLen => exact absurd henter (h dma dmaLen)

/-- The pusher ends, in a failed assertion or not, unless the push buffer goes round. -/
theorem pusher_ends_iff (d : Device) : (∃ fuel r, pfifoRunPusher fuel d = some r) ↔ ¬ Loops d := by
  by_cases h : ∃ dma dmaLen, d.enter = .looping dma dmaLen
  · obtain ⟨dma, dmaLen, henter⟩ := h
    have hloops : Loops d ↔ ComesBack (pusherBody d.vram dma dmaLen) position d.pusher := by
      simp [Loops, henter]
    rw [ends_iff_of_looping henter, hloops]
    exact ends_iff_not_comesBack (pusherBody_positional d.vram dma dmaLen)
  · have hno (dma : Nat) (dmaLen : Word) : d.enter ≠ .looping dma dmaLen := fun he => h ⟨dma, dmaLen, he⟩
    exact iff_of_true (ends_of_not_looping hno) fun ⟨dma, dmaLen, henter, _⟩ => hno dma dmaLen henter

/-- A push buffer that is one jump to itself. -/
def jumpingDevice : Device := { sampleDevice with vram := leBytes [jumpWord 0] }

theorem jumpingDevice_never_ends : ¬ ∃ fuel r, pfifoRunPusher fuel jumpingDevice = some r := by
  intro h'
  obtain ⟨fuel, r, h⟩ := h'
  have henter : jumpingDevice.enter = .looping 0 64 := sampleDevice_looping
  have hround (p : PusherState)
      (hp : p.control.dmaGet = 0 ∧ p.control.dmaPut = 28 ∧ p.state.methodCount = 0) :
      ∃ q, pusherBody jumpingDevice.vram 0 64 p = .next q ∧
        q.control.dmaGet = 0 ∧ q.control.dmaPut = 28 ∧ q.state.methodCount = 0 := by
    obtain ⟨hget, hput, hcount⟩ := hp
    have hword : ldlLeP jumpingDevice.vram (0 + p.control.dmaGet.toNat) = jumpWord 0 := by
      rw [hget]
      decide
    have hne : p.control.dmaGet ≠ p.control.dmaPut := by
      rw [hget, hput]
      decide
    have hlen : ¬ p.control.dmaGet ≥ 64 := by
      rw [hget]
      decide
    have hjump : execute (jumpWord 0) (fetch 0 p) = startCommand (jumpWord 0) (fetch 0 p) :=
      if_neg (not_not.mpr hcount)
    have hexec := (congrArg (execute · (fetch 0 p)) hword).trans
      (hjump.trans (startCommand_jump 0 (fetch 0 p)))
    exact ⟨_, pusherBody_of_execute hne hlen hexec, rfl, hput, hcount⟩
  have hnone := loop_none_of_invariant hround (s := jumpingDevice.pusher) ⟨rfl, rfl, rfl⟩ fuel
  rw [pfifoRunPusher, henter] at h
  dsimp only at h
  rw [hnone] at h
  cases h

/-! ## How it ends -/

/-- The loop is left without an error where GET has come to PUT. -/
theorem exit_iff {t : PusherState} (hnone : p.state.error = ERROR_NONE)
    (h : pusherBody vram dma dmaLen p = .exit t) :
    t.state.error = ERROR_NONE ↔ p.control.dmaGet = p.control.dmaPut := by
  have hfail (r : PusherState) {error : Word} (herror : error ≠ ERROR_NONE) :
      ¬ (r.fail error).state.error = ERROR_NONE := herror
  unfold pusherBody at h
  split at h
  · next hput =>
    cases h
    exact iff_of_true hnone hput
  next hput =>
  split at h
  · cases h
    exact iff_of_false (hfail _ (by decide)) hput
  refine iff_of_false (fun hok => ?_) hput
  dsimp only at h
  split at h
  · cases h
  unfold startCommand at h
  dsimp only at h
  split_ifs at h
  all_goals
    cases h
    exact hfail _ (by decide) hok

/-- It returns exactly when one of its switches is off, or when GET comes to PUT; where it ends in
another way an assertion has failed. -/
theorem pusher_returns_iff (d : Device) : (∃ fuel d', pfifoRunPusher fuel d = some (.returned d')) ↔
    d.enter = .returned ∨ ∃ dma dmaLen p, d.enter = .looping dma dmaLen ∧
      Steps (pusherBody d.vram dma dmaLen) d.pusher p ∧ p.control.dmaGet = p.control.dmaPut := by
  cases henter : d.enter with
  | returned =>
    refine iff_of_true ⟨0, d, ?_⟩ (.inl rfl)
    rw [pfifoRunPusher, henter]
  | aborted =>
    refine iff_of_false (fun h' => ?_) (by simp)
    obtain ⟨fuel, d', h⟩ := h'
    rw [pfifoRunPusher, henter] at h
    cases h
  | looping dma dmaLen =>
    have hnone {p : PusherState} (hsteps : Steps (pusherBody d.vram dma dmaLen) d.pusher p) :
        p.state.error = ERROR_NONE :=
      (congrArg Setup.error (setup_of_steps hsteps).1).trans (error_of_looping henter)
    constructor
    · rintro ⟨fuel, d', h⟩
      rw [pfifoRunPusher, henter] at h
      obtain ⟨t, hloop, hleave⟩ := Option.map_eq_some_iff.mp h
      obtain ⟨p, hsteps, hexit⟩ := Ends.last_turn ⟨fuel, hloop⟩
      refine .inr ⟨dma, dmaLen, p, rfl, hsteps, (exit_iff (hnone hsteps) hexit).mp ?_⟩
      by_contra herror
      rw [Device.leave, if_pos herror] at hleave
      cases hleave
    · rintro (h | ⟨dma', dmaLen', p, h, hsteps, hput⟩)
      · cases h
      cases h
      obtain ⟨fuel, hloop⟩ := Ends.of_steps hsteps (.of_exit (if_pos hput))
      refine ⟨fuel, d.store p, ?_⟩
      rw [pfifoRunPusher, henter]
      dsimp only
      rw [hloop, Option.map_some, Device.leave, if_neg (not_not.mpr (hnone hsteps))]

/-- A word that sets GET when it is looked at as a command: a jump, a call or a return. -/
def Redirects (word : Word) : Prop :=
  word &&& 0xe0000003 = 0x20000000 ∨ word &&& 3 = 1 ∨ word &&& 3 = 2 ∨ word = 0x00020000

/-- Any other word leads to the next one. -/
theorem get_of_next (h : pusherBody vram dma dmaLen p = .next q)
    (hplain : p.state.methodCount = 0 → ¬ Redirects (ldlLeP vram (dma + p.control.dmaGet.toNat))) :
    q.control.dmaGet = p.control.dmaGet + 4 := by
  obtain ⟨-, -, hexec⟩ := pusherBody_next h
  unfold execute at hexec
  split at hexec
  · cases hexec
    rfl
  · next hcount =>
    have hword := hplain (not_not.mp hcount)
    rw [Redirects, not_or, not_or, not_or] at hword
    obtain ⟨h1, h2, h3, h4⟩ := hword
    unfold startCommand at hexec
    rw [if_neg h1, if_neg h2, if_neg h3, if_neg h4] at hexec
    dsimp only at hexec
    split at hexec
    · cases hexec
      rfl
    split at hexec
    · cases hexec
      rfl
    · cases hexec

/-- A push buffer in which no jump, call or return is come to is run to an end, when its object ends
before the last word of the addresses. -/
theorem straight_buffer_ends {d : Device} (henter : d.enter = .looping dma dmaLen)
    (hlen : dmaLen.toNat + 4 ≤ 2 ^ 32)
    (hplain : ∀ p, Steps (pusherBody d.vram dma dmaLen) d.pusher p → p.state.methodCount = 0 →
      ¬ Redirects (ldlLeP d.vram (dma + p.control.dmaGet.toNat))) :
    ∃ fuel r, pfifoRunPusher fuel d = some r := by
  have hturn (p q : PusherState) (hsteps : Steps (pusherBody d.vram dma dmaLen) d.pusher p)
      (hq : pusherBody d.vram dma dmaLen p = .next q) :
      Steps (pusherBody d.vram dma dmaLen) d.pusher q ∧
        dmaLen.toNat - q.control.dmaGet.toNat < dmaLen.toNat - p.control.dmaGet.toNat := by
    refine ⟨hsteps.tail hq, ?_⟩
    have hlt := BitVec.lt_def.mp (BitVec.not_le.mp (pusherBody_next hq).2.1)
    rw [get_of_next hq (hplain p hsteps), BitVec.toNat_add, show (4 : Word).toNat = 4 from rfl]
    omega
  exact (ends_iff_of_looping henter).mpr (ends_of_measure _ hturn Relation.ReflTransGen.refl)

end OpenXbox.Nv2a.Kickoff
