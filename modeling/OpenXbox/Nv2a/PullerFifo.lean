import OpenXbox.Nv2a.Puller

/-!
# The commands on their way to PGRAPH

The pusher puts commands into the cache, the puller moves them to its working cache in
batches and takes them from there one by one. However the threads and the accesses of
the CPU are interleaved, the commands come out in the order they went in.
-/

namespace OpenXbox.Nv2a.PullerFifo

open OpenXbox.Lib.Run OpenXbox.Lib.Loop OpenXbox.Nv2a.Memory OpenXbox.Nv2a.Pusher
  OpenXbox.Nv2a.Registers OpenXbox.Nv2a.Mmio OpenXbox.Nv2a.Puller
open OpenXbox.Nv2a.Machine hiding Op step

/-! ## What goes in and what comes out -/

/-- The command a turn of the pusher puts into the cache. -/
def turnPushes (vram : Nat → Byte) (dma : Nat) (dmaLen : Word) (p : PusherState) : List CacheEntry :=
  if p.control.dmaGet = p.control.dmaPut ∨ p.control.dmaGet ≥ dmaLen ∨ p.state.methodCount = 0 then []
  else
    [⟨p.state.method, p.state.subchannel, p.state.methodNonincreasing,
      ldlLeP vram (dma + p.control.dmaGet.toNat)⟩]

/-- The commands pushed in a step. -/
def pushed (n : NV2ADevice) : Op → List CacheEntry
  | .pusher => n.machine.call.elim [] fun c =>
    turnPushes n.machine.device.vram c.dma c.dmaLen n.machine.device.pusher
  | _ => []

/-- The commands the puller starts to execute in a step. -/
def executed (n : NV2ADevice) : Op → List CacheEntry
  | .puller =>
    match n.puller.phase with
    | .inner => n.puller.workingCache.take 1
    | _ => []
  | _ => []

/-- The commands that wait, oldest first. -/
def queued (n : NV2ADevice) : List CacheEntry := n.puller.workingCache ++ cache n

/-- The queues are as they were, and the puller where it was. -/
structure SameQueues (n n' : NV2ADevice) : Prop where
  cache : cache n' = cache n
  working : n'.puller.workingCache = n.puller.workingCache
  running : n'.puller.running = n.puller.running

theorem SameQueues.queued {n n' : NV2ADevice} (h : SameQueues n n') :
    PullerFifo.queued n' = PullerFifo.queued n := by
  rw [PullerFifo.queued, h.working, h.cache, PullerFifo.queued]

/-! ## The pusher -/

theorem startCommand_cache (word : Word) (p : PusherState) :
    (Pusher.startCommand word p).result.state.cache = p.state.cache := by
  unfold Pusher.startCommand
  dsimp only
  split_ifs <;> rfl

theorem pusherBody_cache (vram : Nat → Byte) (dma : Nat) (dmaLen : Word) (p : PusherState) :
    (pusherBody vram dma dmaLen p).result.state.cache =
      p.state.cache ++ turnPushes vram dma dmaLen p := by
  unfold pusherBody turnPushes
  split
  · next hput => simp [hput, Turn.result]
  next hput =>
  split
  · next hlen => simp [hlen, Turn.result, PusherState.fail]
  next hlen =>
  dsimp only
  split
  · next hcount =>
    rw [if_neg (by simp only [hput, hlen, hcount, or_self, not_false_eq_true])]
    rfl
  · next hcount => simp [startCommand_cache, not_not.mp hcount]

theorem pusherTurn_cache {s s' : Machine.State} {c : Machine.PusherCall} (h : s.pusherTurn c = some s') :
    s'.device.cache1.cache =
      s.device.cache1.cache ++ turnPushes s.device.vram c.dma c.dmaLen s.device.pusher := by
  have hbody := pusherBody_cache s.device.vram c.dma c.dmaLen s.device.pusher
  unfold Machine.State.pusherTurn at h
  cases hb : pusherBody s.device.vram c.dma c.dmaLen s.device.pusher with
  | next p =>
    rw [hb] at h hbody
    cases h
    exact hbody
  | exit p =>
    rw [hb] at h hbody
    dsimp only at h
    unfold Device.leave at h
    split at h
    · cases h
    next d hleave =>
    split at hleave
    · cases hleave
    cases hleave
    cases h
    unfold Machine.State.afterPusher
    split
    · exact hbody
    · exact hbody

/-! ## Accesses of the CPU -/

theorem callPusher_cache {s s' : Machine.State} {suspend : Option Bool}
    (h : s.callPusher suspend = some s') : s'.device.cache1.cache = s.device.cache1.cache := by
  unfold Machine.State.callPusher at h
  split at h
  · cases h
    unfold Machine.State.afterPusher
    split <;> rfl
  · cases h
  · cases h
    rfl

/-- A chain of conditional results is followed one condition at a time. -/
theorem of_ite_some {α : Type} {c : Prop} [Decidable c] {a b : α} {rest : Option α}
    (h : (if c then some a else rest) = some b) : a = b ∨ rest = some b := by
  split at h
  · exact .inl (Option.some.inj h)
  · exact .inr h

theorem pusherRegister_cache {state state' : Cache1State} {addr : Nat} {value : Word}
    (h : Machine.pusherRegister state addr value = some state') : state'.cache = state.cache := by
  unfold Machine.pusherRegister at h
  -- none of the nine registers holds commands
  iterate 9
    obtain rfl | h := of_ite_some h
    · rfl
  cases h

theorem machine_pfifoWrite_cache {s s' : Machine.State} {addr : Nat} {value : Word}
    (h : Machine.pfifoWrite s addr value = some s') :
    s'.device.cache1.cache = s.device.cache1.cache := by
  unfold Machine.pfifoWrite at h
  dsimp only at h
  split at h
  · unfold Machine.dmaPush at h
    dsimp only at h
    split at h
    · exact (callPusher_cache h).trans rfl
    · cases h
      rfl
  split at h
  · cases h
    rfl
  split at h
  · cases h
    rfl
  split at h
  · cases h
    rfl
  split at h
  · next state hstate =>
    cases h
    exact pusherRegister_cache hstate
  · cases h
    rfl

theorem machine_userWrite_cache {s s' : Machine.State} {addr : Nat} {value : Word}
    (h : Machine.userWrite s addr value = some s') :
    s'.device.cache1.cache = s.device.cache1.cache := by
  unfold Machine.userWrite at h
  dsimp only at h
  split_ifs at h
  · exact (callPusher_cache h).trans rfl
  all_goals
    cases h
    rfl

theorem blockWrite_sameQueues {n n' : NV2ADevice} {block : NV2ABlockInfo} {addr : Nat} {value : Word}
    {size : AccessSize} (hmem : block ∈ memoryRegions) (h : block.write n addr value size = .ok n') :
    SameQueues n n' := by
  by_cases hblock : block = pgraph
  · subst hblock
    have hwrite : pgraphWrite n addr value size = .ok n' := h
    obtain ⟨valid, g, rfl, -, -⟩ := pgraphWrite_cases hwrite
    exact ⟨rfl, rfl, rfl⟩
  cases blockWrite_cases hmem hblock h with
  | pusher m hm => exact ⟨machine_pfifoWrite_cache hm, rfl, rfl⟩
  | user m hm => exact ⟨machine_userWrite_cache hm, rfl, rfl⟩
  | puller p hworking hrunning => exact ⟨rfl, hworking, hrunning⟩
  | _ => exact ⟨rfl, rfl, rfl⟩

theorem access_sameQueues {n n' : NV2ADevice} {a : Access} (h : access n a = .ok n') :
    SameQueues n n' := by
  cases a with
  | read nanoseconds barIndex addr value size =>
    obtain ⟨st01, rfl⟩ := access_read h
    exact ⟨rfl, rfl, rfl⟩
  | write barIndex addr value size =>
    unfold access pciMMIOWrite at h
    dsimp only at h
    split at h
    · cases h
      exact ⟨rfl, rfl, rfl⟩
    split at h
    · next block hfind => exact blockWrite_sameQueues (findBlock_mem hfind) h
    · cases h
      exact ⟨rfl, rfl, rfl⟩

/-! ## The puller -/

theorem dispatch_sameQueues {n n' : NV2ADevice} {command : CacheEntry}
    (h : dispatch n command = some n') : SameQueues n n' := by
  rcases dispatch_cases h with ⟨phase, rfl⟩ | ⟨channelId, interrupts, phase, rfl⟩
  · exact ⟨rfl, rfl, rfl⟩
  · exact ⟨rfl, rfl, rfl⟩

theorem methodStep_cache {s s' : Machine.State} {subchannel : BitVec 3} {method parameter : Word}
    (h : methodStep s subchannel method parameter = some s') :
    s'.device.cache1.cache = s.device.cache1.cache := by
  unfold methodStep at h
  split at h
  · cases h
  · cases h
    rfl
  · cases h
    rfl

theorem finish_queues (p : Registers.Puller) (command : CacheEntry) (entry : Option RAMHTEntry) :
    (finish p command entry).workingCache = p.workingCache ∧
      (finish p command entry).running = p.running := by
  cases entry with
  | none => exact ⟨rfl, rfl⟩
  | some entry => exact ⟨rfl, rfl⟩

theorem takeBatch_queued (n : NV2ADevice) : queued (takeBatch n) = queued n := by
  simp [queued, takeBatch, cache]

/-- How a step of the puller changes the queues: it takes a batch, or a command, or none. -/
theorem pullerStep_cases {n n' : NV2ADevice} (h : pullerStep n = some n') :
    (n' = takeBatch n ∧ (n.puller.pullEnabled = true ∨ n.puller.running = false) ∧
      executed n .puller = []) ∨
    (∃ command rest, n.puller.workingCache = command :: rest ∧ executed n .puller = [command] ∧
      SameQueues { n with puller.workingCache := rest } n') ∨
    (SameQueues n n' ∧ executed n .puller = []) := by
  unfold pullerStep at h
  cases hphase : n.puller.phase with
  | outer =>
    rw [hphase] at h
    cases h
    exact .inr (.inr ⟨⟨rfl, rfl, rfl⟩, by simp [executed, hphase]⟩)
  | waiting =>
    rw [hphase] at h
    dsimp only at h
    have hexecuted : executed n .puller = [] := by simp [executed, hphase]
    split_ifs at h with hwait hrunning
    · cases h
      exact .inl ⟨rfl, .inr (Bool.eq_false_iff.mpr hrunning), hexecuted⟩
    · cases h
      have henabled : n.puller.pullEnabled = true := by simpa using (not_or.mp hwait).2
      exact .inl ⟨rfl, .inl henabled, hexecuted⟩
  | inner =>
    rw [hphase] at h
    dsimp only at h
    cases hworking : n.puller.workingCache with
    | nil =>
      rw [hworking] at h
      cases h
      exact .inr (.inr ⟨⟨rfl, rfl, rfl⟩, by simp [executed, hphase, hworking]⟩)
    | cons command rest =>
      rw [hworking] at h
      exact .inr (.inl ⟨command, rest, rfl, by simp [executed, hphase, hworking],
        dispatch_sameQueues h⟩)
  | switching command entry =>
    rw [hphase] at h
    dsimp only at h
    split at h
    · cases h
    · cases h
      exact .inr (.inr ⟨⟨rfl, rfl, rfl⟩, by simp [executed, hphase]⟩)
  | access command entry parameter =>
    rw [hphase] at h
    dsimp only at h
    split at h
    · cases h
      exact .inr (.inr ⟨⟨rfl, rfl, rfl⟩, by simp [executed, hphase]⟩)
    · cases h
  | method command entry parameter =>
    rw [hphase] at h
    obtain ⟨m, hm, hn⟩ := Option.map_eq_some_iff.mp h
    cases hn
    exact .inr (.inr ⟨⟨methodStep_cache hm, rfl, rfl⟩, by simp [executed, hphase]⟩)
  | done command entry =>
    rw [hphase] at h
    cases h
    obtain ⟨hworking, hrunning⟩ := finish_queues n.puller command entry
    exact .inr (.inr ⟨⟨rfl, hworking, hrunning⟩, by simp [executed, hphase]⟩)
  | ended =>
    rw [hphase] at h
    cases h

/-! ## Runs -/

theorem vblank_sameQueues (n : NV2ADevice) : SameQueues n (vblank n) := by
  unfold vblank
  split
  · exact ⟨rfl, rfl, rfl⟩
  · exact ⟨rfl, rfl, rfl⟩

/-- What a step does to the queues. -/
theorem step_queued {n n' : NV2ADevice} {op : Op} (h : step n op = some n') :
    queued n ++ pushed n op = executed n op ++ queued n' := by
  have hsame (m : NV2ADevice) (hm : SameQueues n m) : queued n ++ [] = [] ++ queued m := by
    rw [hm.queued, List.append_nil, List.nil_append]
  cases op with
  | access a =>
    exact hsame n' (access_sameQueues (step_access.mp h).2)
  | ram i byte =>
    cases h
    exact hsame _ ⟨rfl, rfl, rfl⟩
  | pusher =>
    obtain ⟨m, hm, rfl⟩ := Option.map_eq_some_iff.mp h
    obtain ⟨c, hc, hturn⟩ := Option.bind_eq_some_iff.mp hm
    have hcache := pusherTurn_cache hturn
    simp [queued, cache, pushed, executed, hc, hcache]
  | puller =>
    have hnone : pushed n .puller = [] := rfl
    rw [hnone, List.append_nil]
    rcases pullerStep_cases h with ⟨rfl, -, hexecuted⟩ |
      ⟨command, rest, hworking, hexecuted, hrest⟩ | ⟨hkept, hexecuted⟩
    · rw [hexecuted, takeBatch_queued, List.nil_append]
    · rw [hexecuted, hrest.queued]
      simp [queued, hworking, cache]
    · rw [hexecuted, hkept.queued, List.nil_append]
  | setRegister register value =>
    obtain ⟨-, rfl⟩ := step_setRegister.mp h
    exact hsame _ ⟨rfl, rfl, rfl⟩
  | vblank =>
    cases h
    exact hsame _ (vblank_sameQueues n)
  | destroy =>
    cases h
    exact List.append_nil (queued n)

/-- Until it is destroyed, the device is running. -/
theorem step_running {n n' : NV2ADevice} {op : Op} (hop : op ≠ .destroy) (h : step n op = some n') :
    n'.puller.running = n.puller.running := by
  cases op with
  | access a =>
    exact (access_sameQueues (step_access.mp h).2).running
  | ram i byte =>
    cases h
    rfl
  | pusher =>
    obtain ⟨m, -, rfl⟩ := Option.map_eq_some_iff.mp h
    rfl
  | puller =>
    rcases pullerStep_cases h with ⟨rfl, -, -⟩ | ⟨command, rest, -, -, hrest⟩ | ⟨hkept, -⟩
    · rfl
    · exact hrest.running
    · exact hkept.running
  | setRegister register value =>
    obtain ⟨-, rfl⟩ := step_setRegister.mp h
    rfl
  | vblank =>
    cases h
    exact (vblank_sameQueues n).running
  | destroy => exact absurd rfl hop

/-- A step leaves what is in the cache there. -/
def Stays (n : NV2ADevice) (op : Op) : Prop := ∀ n', step n op = some n' → cache n <+: cache n'

/-- While pulling is disabled nothing leaves the cache of a running device. -/
theorem stays_of_disabled {n : NV2ADevice} {op : Op} (hrunning : n.puller.running = true)
    (hdisabled : n.puller.pullEnabled = false) : Stays n op := by
  intro n' h
  cases op with
  | access a =>
    rw [(access_sameQueues (step_access.mp h).2).cache]
  | ram i byte =>
    cases h
    exact List.prefix_refl _
  | pusher =>
    obtain ⟨m, hm, rfl⟩ := Option.map_eq_some_iff.mp h
    obtain ⟨c, -, hturn⟩ := Option.bind_eq_some_iff.mp hm
    exact ⟨_, (pusherTurn_cache hturn).symm⟩
  | puller =>
    rcases pullerStep_cases h with ⟨-, henabled | hstopped, -⟩ | ⟨command, rest, -, -, hrest⟩ | ⟨hkept, -⟩
    · rw [hdisabled] at henabled
      cases henabled
    · rw [hrunning] at hstopped
      cases hstopped
    · rw [hrest.cache]
      exact List.prefix_refl _
    · rw [hkept.cache]
  | setRegister register value =>
    obtain ⟨-, rfl⟩ := step_setRegister.mp h
    exact List.prefix_refl _
  | vblank =>
    cases h
    rw [(vblank_sameQueues n).cache]
  | destroy =>
    cases h
    exact List.prefix_refl _

theorem guarded_stays {n : NV2ADevice} {ops : List Op} (hrunning : n.puller.running = true)
    (hops : Op.destroy ∉ ops) :
    Guarded step (fun s op => s.puller.pullEnabled = false → Stays s op) n ops := by
  induction ops generalizing n with
  | nil => trivial
  | cons op ops ih =>
    obtain ⟨hop, hrest⟩ := not_or.mp (mt List.mem_cons.mpr hops)
    refine ⟨stays_of_disabled hrunning, fun n' h => ih ?_ hrest⟩
    rw [step_running (Ne.symm hop) h, hrunning]

/-- Over every run from a reset the commands executed, the working cache and the cache are
the commands pushed; and nothing leaves the cache while pulling is disabled, until the device
is destroyed. -/
theorem commands_in_order {ram : Nat → Byte} {size clocks : Word} {command : BitVec 16}
    {u : Uninitialised} {ops : List Op} {t : NV2ADevice}
    (h : exec step (NV2ADevice.reset ram size clocks command u) ops = some t) :
    outputs step executed (NV2ADevice.reset ram size clocks command u) ops ++
        t.puller.workingCache ++ cache t =
      outputs step pushed (NV2ADevice.reset ram size clocks command u) ops ∧
    (Op.destroy ∉ ops →
      Guarded step (fun s op => s.puller.pullEnabled = false → Stays s op)
        (NV2ADevice.reset ram size clocks command u) ops) := by
  refine ⟨?_, guarded_stays rfl⟩
  have hempty : queued (NV2ADevice.reset ram size clocks command u) = [] := rfl
  have hlaw := exec_conserves (fun s op s' => step_queued) h
  rw [hempty, List.nil_append] at hlaw
  rw [List.append_assoc]
  exact hlaw.symm

/-- The device over a push buffer with a method of two words and one of a single word. -/
def threeCommands : NV2ADevice :=
  NV2ADevice.reset (Lib.Bits.leBytes [0x00080004, 0xAAAA, 0xBBBB, 0x00042010, 0xCCCC]) 0x4000000 1000000 0
    ⟨0, 0, 0, fun _ _ => 0, fun _ => 0, 0⟩

/-- The pusher is set up on an object of 64 bytes. The puller takes the first command while the
pusher is at work, and then the other two, of which the last one stays in the working cache. -/
def threeCommandsRun : List Op :=
  [registerWrite 0x700004 64, registerWrite 0x002504 1, registerWrite 0x003204 0x100,
    registerWrite 0x003200 1, registerWrite 0x003220 1, registerWrite 0x003250 1,
    registerWrite 0x800040 20, .pusher, .puller, .pusher, .puller, .pusher, .pusher, .puller,
    .pusher, .puller, .puller, .puller, .pusher, .puller]

example : outputs step executed threeCommands threeCommandsRun =
    [⟨4, 0, false, 0xAAAA⟩, ⟨8, 0, false, 0xBBBB⟩] := rfl

theorem threeCommands_in_order : ∃ t, exec step threeCommands threeCommandsRun = some t ∧
    outputs step executed threeCommands threeCommandsRun ++ t.puller.workingCache ++ cache t =
      outputs step pushed threeCommands threeCommandsRun ∧
    (Op.destroy ∉ threeCommandsRun →
      Guarded step (fun s op => s.puller.pullEnabled = false → Stays s op)
        threeCommands threeCommandsRun) := by
  have hrun : ∃ t, exec step threeCommands threeCommandsRun = some t := ⟨_, rfl⟩
  obtain ⟨t, ht⟩ := hrun
  exact ⟨t, ht, commands_in_order ht⟩

end OpenXbox.Nv2a.PullerFifo
