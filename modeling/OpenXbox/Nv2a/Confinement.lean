import OpenXbox.Nv2a.Machine

/-!
# Confinement of the accesses to VRAM

Every step of the device touches runs of bytes of VRAM, some of them through a DMA
object. They stay inside RAM and inside their object exactly under the bounds that
`Within` puts on the registers and the object in the state before the step.
-/

namespace OpenXbox.Nv2a.Confinement

open OpenXbox.Lib.Run OpenXbox.Lib.Loop OpenXbox.Nv2a.Memory OpenXbox.Nv2a.Pusher
  OpenXbox.Nv2a.Pgraph OpenXbox.Nv2a.Machine

/-- Bytes of VRAM from `start` on, with the mapped address and the limit of the object
they are reached through. -/
structure Access where
  object : Option (Nat × Word)
  start : Nat
  length : Nat

def Access.Touches (a : Access) (i : Nat) : Prop := a.start ≤ i ∧ i < a.start + a.length

def Access.Confined (ramSize : Nat) (a : Access) : Prop :=
  ∀ i, a.Touches i → i < ramSize ∧ ∀ o, a.object = some o → o.1 ≤ i ∧ i ≤ o.1 + o.2.toNat

/-- The window of BAR 1. -/
def barAccesses : CpuAccess → List Access
  | .bar1Read addr size => [⟨none, addr.toNat, size.bytes⟩]
  | .bar1Write addr _ size => [⟨none, addr.toNat, size.bytes⟩]
  | _ => []

/-- The words that a turn of the pusher adds to its record. -/
def turnAccesses (s : State) (c : PusherCall) : List Access :=
  let p := s.device.pusher
  ((pusherBody s.device.vram c.dma c.dmaLen p).result.fetched.drop p.fetched.length).map
    fun i => ⟨some (c.dma, c.dmaLen), i, 4⟩

/-- Both ends of one row of a blit. -/
def rowAccesses (b : Blit) (y : Nat) : List Access :=
  [⟨some (b.source.address, b.source.limit),
      b.source.row b.bytesPerPixel (BitVec.ofNat 32 y), b.rowBytes⟩,
    ⟨some (b.dest.address, b.dest.limit),
      b.dest.row b.bytesPerPixel (BitVec.ofNat 32 y), b.rowBytes⟩]

def blitAccesses (b : Blit) : List Access := (List.range b.height.toNat).flatMap (rowAccesses b)

/-- What a step touches. -/
def accesses (s : State) : Op → List Access
  | .cpu a => if s.call.isSome then [] else barAccesses a
  | .ram _ _ => []
  | .pusher =>
    match s.call with
    | none => []
    | some c => turnAccesses s c
  | .method subchannel method parameter =>
    match pgraphMethod s.device.ramin s.pgraph subchannel method parameter with
    | .blit _ b => blitAccesses b
    | _ => []

def StepConfined (ramSize : Nat) (s : State) (op : Op) : Prop :=
  ∀ a ∈ accesses s op, a.Confined ramSize

/-! ## The bounds -/

/-- The row ends in RAM and at or below the limit of its object. -/
def RowFits (ramSize : Nat) (s : Surface) (bytesPerPixel : Word) (rowBytes y : Nat) : Prop :=
  s.row bytesPerPixel (BitVec.ofNat 32 y) + rowBytes ≤ ramSize ∧
    s.rowOffset bytesPerPixel (BitVec.ofNat 32 y) + rowBytes ≤ s.limit.toNat + 1

/-- No byte is moved, or every row of both surfaces fits. -/
def BlitFits (ramSize : Nat) (b : Blit) : Prop :=
  b.rowBytes = 0 ∨ ∀ y < b.height.toNat,
    RowFits ramSize b.source b.bytesPerPixel b.rowBytes y ∧
      RowFits ramSize b.dest b.bytesPerPixel b.rowBytes y

/-- An access to the window ends in RAM. -/
def BarFits (ramSize : Nat) : CpuAccess → Prop
  | .bar1Read addr size => addr.toNat + size.bytes ≤ ramSize
  | .bar1Write addr _ size => addr.toNat + size.bytes ≤ ramSize
  | _ => True

/-- A pusher that is going to fetch has a whole word left in RAM and in its object. -/
def TurnFits (ramSize : Nat) (s : State) (c : PusherCall) : Prop :=
  let control := s.device.pusher.control
  control.dmaGet ≠ control.dmaPut → control.dmaGet < c.dmaLen →
    c.dma + control.dmaGet.toNat + 4 ≤ ramSize ∧ control.dmaGet.toNat + 3 ≤ c.dmaLen.toNat

def Within (ramSize : Nat) (s : State) : Op → Prop
  | .cpu a => s.call = none → BarFits ramSize a
  | .ram _ _ => True
  | .pusher => ∀ c, s.call = some c → TurnFits ramSize s c
  | .method subchannel method parameter =>
    ∀ g b, pgraphMethod s.device.ramin s.pgraph subchannel method parameter = .blit g b →
      BlitFits ramSize b

/-! ## One step -/

variable {ramSize : Nat}

/-- A run of bytes outside every object is confined when its end is in RAM. -/
theorem confined_plain_iff {start length : Nat} (hl : 0 < length) :
    Access.Confined ramSize ⟨none, start, length⟩ ↔ start + length ≤ ramSize := by
  constructor
  · intro h
    have hlast := (h (start + length - 1) ⟨by dsimp only; omega, by dsimp only; omega⟩).1
    omega
  · intro h i hi
    have hlt : i < start + length := hi.2
    exact ⟨by omega, nofun⟩

theorem confined_object_iff {address offset length : Nat} {limit : Word} (hl : 0 < length) :
    Access.Confined ramSize ⟨some (address, limit), address + offset, length⟩ ↔
      address + offset + length ≤ ramSize ∧ offset + length ≤ limit.toNat + 1 := by
  constructor
  · intro h
    obtain ⟨hram, hobject⟩ := h (address + offset + length - 1)
      ⟨by dsimp only; omega, by dsimp only; omega⟩
    obtain ⟨-, hlimit⟩ := hobject _ rfl
    dsimp only at hlimit
    omega
  · intro h i hi
    have hlo : address + offset ≤ i := hi.1
    have hhi : i < address + offset + length := hi.2
    refine ⟨by omega, fun o ho => ?_⟩
    cases ho
    dsimp only
    omega

theorem confined_empty (object : Option (Nat × Word)) (start : Nat) :
    Access.Confined ramSize ⟨object, start, 0⟩ := by
  intro i hi
  have hlo : start ≤ i := hi.1
  have hhi : i < start + 0 := hi.2
  omega

theorem AccessSize.bytes_pos (size : AccessSize) : 0 < size.bytes := by cases size <;> decide

theorem barAccesses_confined_iff (a : CpuAccess) :
    (∀ x ∈ barAccesses a, x.Confined ramSize) ↔ BarFits ramSize a := by
  cases a with
  | bar1Read addr size =>
    rw [barAccesses, List.forall_mem_singleton]
    exact confined_plain_iff (AccessSize.bytes_pos size)
  | bar1Write addr value size =>
    rw [barAccesses, List.forall_mem_singleton]
    exact confined_plain_iff (AccessSize.bytes_pos size)
  | pramin | pfifo | user | ctxControl => exact iff_of_true nofun trivial

theorem turnAccesses_eq (s : State) (c : PusherCall) :
    turnAccesses s c = (turnFetches c.dma c.dmaLen s.device.pusher).map
      fun i => ⟨some (c.dma, c.dmaLen), i, 4⟩ := by
  rw [turnAccesses, (pusherBody_keeps s.device.vram c.dma c.dmaLen s.device.pusher).2,
    List.drop_left]

theorem turnAccesses_confined_iff (s : State) (c : PusherCall) :
    (∀ x ∈ turnAccesses s c, x.Confined ramSize) ↔ TurnFits ramSize s c := by
  rw [turnAccesses_eq, turnFetches, TurnFits]
  by_cases hstop : s.device.pusher.control.dmaGet = s.device.pusher.control.dmaPut ∨
      s.device.pusher.control.dmaGet ≥ c.dmaLen
  · rw [if_pos hstop]
    refine iff_of_true nofun fun hput hlen => ?_
    obtain heq | hge := hstop
    · exact absurd heq hput
    · exact absurd hlen (BitVec.not_lt.mpr hge)
  · rw [if_neg hstop, List.map_singleton, List.forall_mem_singleton,
      confined_object_iff (by decide)]
    obtain ⟨hput, hlen⟩ := not_or.mp hstop
    constructor
    · intro h _ _
      exact ⟨h.1, by omega⟩
    · intro h
      obtain ⟨hram, hlimit⟩ := h hput (BitVec.not_le.mp hlen)
      exact ⟨hram, by omega⟩

theorem rowAccesses_confined_iff {b : Blit} (hb : 0 < b.rowBytes) (y : Nat) :
    (∀ x ∈ rowAccesses b y, x.Confined ramSize) ↔
      RowFits ramSize b.source b.bytesPerPixel b.rowBytes y ∧
        RowFits ramSize b.dest b.bytesPerPixel b.rowBytes y := by
  rw [rowAccesses, List.forall_mem_cons, List.forall_mem_singleton]
  exact and_congr (confined_object_iff hb) (confined_object_iff hb)

theorem blitAccesses_confined_iff (b : Blit) :
    (∀ x ∈ blitAccesses b, x.Confined ramSize) ↔ BlitFits ramSize b := by
  have hrows : (∀ x ∈ blitAccesses b, x.Confined ramSize) ↔
      ∀ y < b.height.toNat, ∀ x ∈ rowAccesses b y, x.Confined ramSize := by
    simp only [blitAccesses, List.mem_flatMap, List.mem_range]
    exact ⟨fun h y hy x hx => h x ⟨y, hy, hx⟩, fun h x ⟨y, hy, hx⟩ => h y hy x hx⟩
  rw [hrows, BlitFits]
  obtain hz | hpos := Nat.eq_zero_or_pos b.rowBytes
  · refine iff_of_true (fun y _ x hx => ?_) (.inl hz)
    rw [rowAccesses, hz, List.mem_pair] at hx
    obtain rfl | rfl := hx
    · exact confined_empty _ _
    · exact confined_empty _ _
  · rw [or_iff_right hpos.ne']
    exact forall₂_congr fun y _ => rowAccesses_confined_iff hpos y

theorem stepConfined_iff_within (s : State) (op : Op) :
    StepConfined ramSize s op ↔ Within ramSize s op := by
  cases op with
  | cpu a =>
    rw [StepConfined, accesses, Within]
    cases hc : s.call with
    | none => simpa using barAccesses_confined_iff a
    | some c => exact iff_of_true nofun nofun
  | ram i byte => exact iff_of_true nofun trivial
  | pusher =>
    rw [StepConfined, accesses, Within]
    cases hc : s.call with
    | none => exact iff_of_true nofun nofun
    | some c => simpa using turnAccesses_confined_iff s c
  | method subchannel method parameter =>
    rw [StepConfined, accesses, Within]
    cases hm : pgraphMethod s.device.ramin s.pgraph subchannel method parameter with
    | aborted => exact iff_of_true nofun nofun
    | returned g => exact iff_of_true nofun nofun
    | blit g b => simpa using blitAccesses_confined_iff b

/-! ## Only what is touched changes -/

theorem storeBytes_of_not_touched {mem : Nat → Byte} {start i : Nat} {value : Word}
    {size : AccessSize} (h : ¬ Access.Touches ⟨none, start, size.bytes⟩ i) :
    storeBytes mem start value size i = mem i := if_neg h

theorem memmove_of_not_touched {vram : Nat → Byte} {dest source length i : Nat}
    (h : ¬ (dest ≤ i ∧ i < dest + length)) : memmove vram dest source length i = vram i := if_neg h

/-- A byte that no destination row touches is left as it is by all rows. -/
theorem blit_run_of_not_touched {b : Blit} {vram : Nat → Byte} {i : Nat}
    (h : ∀ a ∈ blitAccesses b, ¬ a.Touches i) : b.run vram i = vram i := by
  have hrow : ∀ y ∈ List.range b.height.toNat,
      ¬ (b.dest.row b.bytesPerPixel (BitVec.ofNat 32 y) ≤ i ∧
        i < b.dest.row b.bytesPerPixel (BitVec.ofNat 32 y) + b.rowBytes) := by
    intro y hy
    refine h ⟨some (b.dest.address, b.dest.limit), _, _⟩ (List.mem_flatMap.mpr ⟨y, hy, ?_⟩)
    rw [rowAccesses, List.mem_pair]
    exact .inr rfl
  rw [Blit.run]
  generalize List.range b.height.toNat = rows at hrow
  induction rows generalizing vram with
  | nil => rfl
  | cons y rows ih =>
    rw [List.foldl_cons, ih fun z hz => hrow z (List.mem_cons_of_mem y hz)]
    exact memmove_of_not_touched (hrow y List.mem_cons_self)

theorem afterPusher_vram (s : State) (suspend : Option Bool) :
    (s.afterPusher suspend).device.vram = s.device.vram := by
  cases suspend <;> rfl

theorem callPusher_vram {s t : State} {suspend : Option Bool}
    (h : s.callPusher suspend = some t) : t.device.vram = s.device.vram := by
  rw [State.callPusher] at h
  cases he : s.device.enter with
  | returned =>
    rw [he] at h
    cases h
    exact afterPusher_vram s suspend
  | aborted =>
    rw [he] at h
    cases h
  | looping dma dmaLen =>
    rw [he] at h
    cases h
    rfl

theorem pusherTurn_vram {s t : State} {c : PusherCall} (h : s.pusherTurn c = some t) :
    t.device.vram = s.device.vram := by
  rw [State.pusherTurn] at h
  cases hb : pusherBody s.device.vram c.dma c.dmaLen s.device.pusher with
  | next p =>
    rw [hb] at h
    cases h
    rfl
  | exit p =>
    rw [hb] at h
    dsimp only at h
    rw [Device.leave] at h
    split at h
    · cases h
    · next d hd =>
      split at hd
      · cases hd
      · cases hd
        cases h
        exact afterPusher_vram _ _

theorem pfifoWrite_vram {s t : State} {addr : Nat} {value : Word}
    (h : pfifoWrite s addr value = some t) : t.device.vram = s.device.vram := by
  rw [pfifoWrite] at h
  dsimp only at h
  split at h
  · rw [dmaPush] at h
    dsimp only at h
    split at h
    · exact (callPusher_vram h).trans rfl
    · cases h
      rfl
  split at h
  · cases h
    rfl
  split at h
  · cases h
    rfl
  split at h
  · cases h
    rfl
  split at h
  · cases h
    rfl
  · cases h
    rfl

theorem userWrite_vram {s t : State} {addr : Nat} {value : Word}
    (h : userWrite s addr value = some t) : t.device.vram = s.device.vram := by
  rw [userWrite] at h
  dsimp only at h
  split at h
  · cases h
  split at h
  · cases h
  split at h
  · split at h
    · exact (callPusher_vram h).trans rfl
    · cases h
      rfl
  split at h
  · cases h
    rfl
  split at h
  · cases h
    rfl
  · cases h
    rfl

theorem cpuAccess_vram {s t : State} {a : CpuAccess} {i : Nat} (h : cpuAccess s a = some t)
    (ha : ∀ x ∈ barAccesses a, ¬ x.Touches i) : t.device.vram i = s.device.vram i := by
  cases a with
  | bar1Read addr size =>
    cases h
    rfl
  | bar1Write addr value size =>
    cases h
    exact storeBytes_of_not_touched (ha _ List.mem_cons_self)
  | pramin addr value size =>
    cases h
    rfl
  | pfifo addr value => rw [pfifoWrite_vram h]
  | user addr value => rw [userWrite_vram h]
  | ctxControl value =>
    cases h
    rfl

/-- A byte of VRAM that a step changes was written from outside, or the step touches it. -/
theorem touched_of_changed {s t : State} {op : Op} {i : Nat} (h : step s op = some t)
    (hne : t.device.vram i ≠ s.device.vram i) :
    (∃ byte, op = .ram i byte) ∨ ∃ a ∈ accesses s op, a.Touches i := by
  by_contra hnot
  obtain ⟨hram, htouch⟩ := not_or.mp hnot
  have ha : ∀ a ∈ accesses s op, ¬ a.Touches i := fun a hm ht => htouch ⟨a, hm, ht⟩
  apply hne
  cases op with
  | cpu a =>
    rw [step] at h
    rw [accesses] at ha
    cases hc : s.call.isSome with
    | true =>
      rw [hc] at h
      cases h
    | false =>
      rw [hc] at h ha
      exact cpuAccess_vram h ha
  | ram j byte =>
    cases h
    exact Function.update_of_ne (fun hij => hram ⟨byte, by rw [hij]⟩) _ _
  | pusher =>
    obtain ⟨c, -, hturn⟩ := Option.bind_eq_some_iff.mp h
    rw [pusherTurn_vram hturn]
  | method subchannel method parameter =>
    rw [step, methodStep] at h
    rw [accesses] at ha
    cases hm : pgraphMethod s.device.ramin s.pgraph subchannel method parameter with
    | aborted =>
      rw [hm] at h
      cases h
    | returned g =>
      rw [hm] at h
      cases h
      rfl
    | blit g b =>
      rw [hm] at h ha
      cases h
      exact blit_run_of_not_touched ha

/-! ## Runs -/

/-- Along a run everything the device touches is confined, exactly when every step on
the way is within the bounds. -/
theorem run_confined_iff_within (ramSize : Nat) (s : State) (ops : List Op) :
    Guarded step (StepConfined ramSize) s ops ↔ Guarded step (Within ramSize) s ops := by
  apply guarded_congr (I := fun _ => True)
  · intro s op _
    exact stepConfined_iff_within s op
  · intro s op s' _ _ _
    trivial
  · trivial

/-- The device after a reset, with the RAM it is given. -/
def afterReset (ram : Nat → Byte) : State :=
  { device :=
      { vram := ram
        ramin := fun _ => 0
        pfifoRegs := fun _ => 0
        cache1 :=
          { channelId := 0, mode := .pio, pushEnabled := false, dmaPushEnabled := false
            dmaPushSuspended := false, dmaInstance := 0, methodNonincreasing := false, method := 0
            subchannel := 0, methodCount := 0, dcount := 0, subroutineActive := false
            subroutineReturn := 0, getJmpShadow := 0, rsvdShadow := 0, dataShadow := 0
            error := ERROR_NONE, cache := [] }
        channelControl := fun _ => ⟨0, 0, 0⟩
        fetched := [] }
    pgraph := ⟨false, fun _ => ⟨0, ⟨0, fun _ => 0⟩⟩⟩
    call := none }

/-- The window of BAR 1 is larger than the 64 MiB of RAM: its first byte above them is read. -/
theorem bar1_reads_above_ram :
    ¬ Guarded step (StepConfined 0x4000000) (afterReset fun _ => 0)
      [.cpu (.bar1Read 0x4000000 .one)] := by
  intro h
  have hfits : 0x4000000 + 1 ≤ 0x4000000 := (stepConfined_iff_within _ _).mp h.1 rfl
  exact absurd hfits (by decide)

end OpenXbox.Nv2a.Confinement
