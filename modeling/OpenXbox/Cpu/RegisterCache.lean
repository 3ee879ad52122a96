import OpenXbox.Lib.Run
import OpenXbox.Cpu.Registers

/-!
# The cache of the registers

A back-end keeps a copy of the virtual CPU's registers: it is loaded when it is used for the
first time after a run, and stored before the next run when it has been changed. Beside it
stands what the registers should be: a run leaves its own, and a write that reports success
does what it says.
-/

namespace OpenXbox.Cpu.RegisterCache

open OpenXbox.Lib.Run OpenXbox.Cpu.Registers

inductive Status where
  | ok
  | invalidRegister
  deriving DecidableEq

structure Cached (R : Type) where
  regs : R
  regsDirty : Bool
  regsChanged : Bool
  vcpu : R

/-- A call of the interface; `mem` is what it finds in the guest's memory, and `after` the
registers that the guest leaves. -/
inductive Call (R : Type) where
  | regRead (reg : CpuReg)
  | regReads (regs : List CpuReg)
  | regWrite (mem : GuestEntry) (reg : CpuReg) (value : Word)
  | regWrites (mem : GuestEntry) (writes : List (CpuReg × Word))
  | getGDT
  | setGDT (addr size : Word)
  | getIDT
  | setIDT (addr size : Word)
  | run (after : R)

section Model

variable {R : Type} (b : Backend R)

/-- `RefreshRegisters`, when the calls of the hypervisor succeed. -/
def refreshRegisters (s : Cached R) : Cached R :=
  if s.regsDirty then { s with regs := s.vcpu, regsDirty := false } else s

def updateRegisters (s : Cached R) : Cached R :=
  if s.regsChanged then { s with vcpu := s.regs, regsChanged := false } else s

/-- The value and the status of a read. -/
def regRead (reg : CpuReg) (s : Cached R) : Option Word × Cached R :=
  (b.read reg (refreshRegisters s).regs, refreshRegisters s)

/-- The values up to the first invalid register. -/
def regReads (regs : List CpuReg) (s : Cached R) : List Word × Cached R :=
  (((regs.map fun reg => b.read reg (refreshRegisters s).regs).takeWhile Option.isSome).filterMap id,
    refreshRegisters s)

def regWrite (mem : GuestEntry) (reg : CpuReg) (value : Word) (s : Cached R) : Status × Cached R :=
  match b.write mem reg value (refreshRegisters s).regs with
  | none => (.invalidRegister, refreshRegisters s)
  | some regs => (.ok, { refreshRegisters s with regs := regs, regsChanged := true })

/-- A segment is loaded by a function that marks the registers as changed itself. -/
def isSegment : CpuReg → Bool
  | .segment _ => true
  | _ => false

/-- The loop of the bulk write. -/
def writeLoop (mem : GuestEntry) : List (CpuReg × Word) → Cached R → Status × Cached R
  | [], s => (.ok, s)
  | (reg, value) :: writes, s =>
    match b.write mem reg value s.regs with
    | none => (.invalidRegister, s)
    | some regs =>
      writeLoop mem writes { s with regs := regs, regsChanged := s.regsChanged || isSegment reg }

def regWrites (mem : GuestEntry) (writes : List (CpuReg × Word)) (s : Cached R) : Status × Cached R :=
  match writeLoop b mem writes (refreshRegisters s) with
  | (.ok, s) => (.ok, { s with regsChanged := true })
  | (.invalidRegister, s) => (.invalidRegister, s)

def setGDT (addr size : Word) (s : Cached R) : Cached R :=
  { refreshRegisters s with
    regs := b.setGDT addr size (refreshRegisters s).regs
    regsChanged := true }

def setIDT (addr size : Word) (s : Cached R) : Cached R :=
  { refreshRegisters s with
    regs := b.setIDT addr size (refreshRegisters s).regs
    regsChanged := true }

/-- `RunImpl`: the guest starts from what `UpdateRegisters` leaves in the virtual CPU. -/
def run (after : R) (s : Cached R) : Cached R :=
  { updateRegisters s with vcpu := after, regsDirty := true }

/-- The status and the state after a call. -/
def call (c : Call R) (s : Cached R) : Status × Cached R :=
  match c with
  | .regRead reg =>
    (if ((regRead b reg s).1).isSome then .ok else .invalidRegister, (regRead b reg s).2)
  | .regReads regs =>
    (if (regReads b regs s).1.length = regs.length then .ok else .invalidRegister,
      (regReads b regs s).2)
  | .regWrite mem reg value => regWrite b mem reg value s
  | .regWrites mem writes => regWrites b mem writes s
  | .getGDT | .getIDT => (.ok, refreshRegisters s)
  | .setGDT addr size => (.ok, setGDT b addr size s)
  | .setIDT addr size => (.ok, setIDT b addr size s)
  | .run after => (.ok, run after s)

/-! ## What the registers should be -/

/-- The writes up to the first invalid register. -/
def writeAll (mem : GuestEntry) : List (CpuReg × Word) → R → R
  | [], regs => regs
  | (reg, value) :: writes, regs =>
    match b.write mem reg value regs with
    | none => regs
    | some next => writeAll mem writes next

/-- The registers after a call with the given status. -/
def expect (c : Call R) (status : Status) (regs : R) : R :=
  match status, c with
  | .ok, .regWrite mem reg value => writeAll b mem [(reg, value)] regs
  | .ok, .regWrites mem writes => writeAll b mem writes regs
  | .ok, .setGDT addr size => b.setGDT addr size regs
  | .ok, .setIDT addr size => b.setIDT addr size regs
  | _, .run after => after
  | _, _ => regs

/-- The back-end, and the registers as they should be. -/
structure Sys (R : Type) where
  cpu : Cached R
  expected : R

def step (s : Sys R) (c : Call R) : Option (Sys R) :=
  some ⟨(call b c s.cpu).2, expect b c (call b c s.cpu).1 s.expected⟩

/-- What reads look at, and what the next run gives to the virtual CPU, is what the
registers should be. -/
def Coherent (s : Sys R) : Prop :=
  (refreshRegisters s.cpu).regs = s.expected ∧ (updateRegisters s.cpu).vcpu = s.expected

/-- A bulk write with an invalid register changes nothing by the writes before it. -/
def Harmless (s : Sys R) (c : Call R) : Prop :=
  match c with
  | .regWrites mem writes =>
    (∃ w ∈ writes, w.1 = .max) → writeAll b mem writes s.expected = s.expected
  | _ => True

end Model

/-! ## Steps -/

section Steps

variable {R : Type} {b : Backend R}

/-- The bulk write stops at the first invalid register; what it has written stays. -/
theorem writeLoop_spec (mem : GuestEntry) (writes : List (CpuReg × Word)) (s : Cached R) :
    ∃ changed, (s.regsChanged = true → changed = true) ∧
      (writeLoop b mem writes s).2 =
        { s with regs := writeAll b mem writes s.regs, regsChanged := changed } ∧
      ((writeLoop b mem writes s).1 = .ok ↔ ¬ ∃ w ∈ writes, w.1 = .max) := by
  induction writes generalizing s with
  | nil => exact ⟨s.regsChanged, id, rfl, iff_of_true rfl (by simp)⟩
  | cons w writes ih =>
    obtain ⟨reg, value⟩ := w
    rw [writeLoop, writeAll]
    cases hw : b.write mem reg value s.regs with
    | none =>
      have hmax := (b.write_eq_none mem reg value s.regs).mp hw
      exact ⟨s.regsChanged, id, rfl, iff_of_false (by simp) (by simp [hmax])⟩
    | some regs =>
      have hne : reg ≠ .max := fun hmax => by
        rw [(b.write_eq_none mem reg value s.regs).mpr hmax] at hw
        cases hw
      obtain ⟨changed, hkeep, hstate, hok⟩ :=
        ih { s with regs := regs, regsChanged := s.regsChanged || isSegment reg }
      refine ⟨changed, fun hc => hkeep (by simp [hc]), hstate, hok.trans ?_⟩
      simp [hne]

variable {s : Cached R} {e : R}

/-- A use of the cache loads it, and keeps what the next run starts from. -/
theorem refresh_coherent (h : Coherent ⟨s, e⟩) :
    (refreshRegisters s).regs = e ∧ (refreshRegisters s).regsDirty = false ∧
      ((refreshRegisters s).regsChanged = false → (refreshRegisters s).vcpu = e) := by
  obtain ⟨hseen, hnext⟩ := h
  refine ⟨hseen, ?_, fun hc => ?_⟩
  · rw [refreshRegisters]
    split
    · rfl
    · next hd => exact Bool.eq_false_iff.mpr hd
  · have hsame : (refreshRegisters s).regsChanged = s.regsChanged ∧
        (refreshRegisters s).vcpu = s.vcpu := by
      rw [refreshRegisters]
      split
      · exact ⟨rfl, rfl⟩
      · exact ⟨rfl, rfl⟩
    rw [hsame.1] at hc
    rw [updateRegisters, hc] at hnext
    exact hsame.2.trans hnext

/-- A loaded cache is coherent when it holds the registers and, unless it is stored before
the next run, the virtual CPU does too. -/
theorem coherent_of_clean {regs vcpu : R} {changed : Bool} :
    Coherent ⟨⟨regs, false, changed, vcpu⟩, e⟩ ↔ regs = e ∧ (changed = false → vcpu = e) := by
  refine and_congr_right fun hregs => ?_
  cases changed with
  | true => exact iff_of_true hregs fun h => absurd h (by decide)
  | false => exact (imp_iff_right rfl).symm

/-- The cache after a use that has changed it. -/
theorem coherent_changed {t : Cached R} {regs : R} (hd : t.regsDirty = false) :
    Coherent ⟨{ t with regs := regs, regsChanged := true }, regs⟩ := by
  obtain ⟨_, dirty, _, vcpu⟩ := t
  obtain rfl : dirty = false := hd
  exact coherent_of_clean.mpr ⟨rfl, fun h => absurd h (by decide)⟩

theorem coherent_refresh (h : Coherent ⟨s, e⟩) : Coherent ⟨refreshRegisters s, e⟩ := by
  obtain ⟨hregs, hdirty, hvcpu⟩ := refresh_coherent h
  generalize refreshRegisters s = t at hregs hdirty hvcpu
  obtain ⟨regs, dirty, changed, vcpu⟩ := t
  obtain rfl : dirty = false := hdirty
  exact coherent_of_clean.mpr ⟨hregs, hvcpu⟩

/-- A bulk write keeps the cache coherent when it succeeds, or changes nothing. -/
theorem coherent_regWrites (h : Coherent ⟨s, e⟩) (mem : GuestEntry)
    (writes : List (CpuReg × Word)) :
    Coherent ⟨(regWrites b mem writes s).2,
        expect b (.regWrites mem writes) (regWrites b mem writes s).1 e⟩ ↔
      ((∃ w ∈ writes, w.1 = .max) → writeAll b mem writes e = e) := by
  obtain ⟨hregs, hdirty, hvcpu⟩ := refresh_coherent h
  obtain ⟨changed, hkeep, hstate, hok⟩ := writeLoop_spec (b := b) mem writes (refreshRegisters s)
  rw [hregs] at hstate
  rw [regWrites]
  obtain ⟨status, hpair⟩ : ∃ status, writeLoop b mem writes (refreshRegisters s) = (status,
      { refreshRegisters s with regs := writeAll b mem writes e, regsChanged := changed }) :=
    ⟨_, Prod.ext rfl hstate⟩
  rw [hpair] at hok ⊢
  by_cases hmax : ∃ w ∈ writes, w.1 = .max
  · have hinvalid : status = .invalidRegister := by
      cases status with
      | ok => exact absurd hmax (hok.mp rfl)
      | invalidRegister => rfl
    rw [hinvalid, imp_iff_right hmax]
    generalize refreshRegisters s = t at hdirty hvcpu hkeep
    obtain ⟨_, dirty, was, vcpu⟩ := t
    obtain rfl : dirty = false := hdirty
    refine coherent_of_clean.trans (and_iff_left fun hc => hvcpu ?_)
    exact Bool.eq_false_iff.mpr fun hwas => Bool.eq_false_iff.mp hc (hkeep hwas)
  · obtain rfl : status = .ok := hok.mpr hmax
    exact iff_of_true (coherent_changed (t := { refreshRegisters s with
      regs := writeAll b mem writes e, regsChanged := changed }) hdirty) fun h => absurd h hmax

/-- A single write keeps the cache coherent, also when the register is invalid. -/
theorem coherent_regWrite (h : Coherent ⟨s, e⟩) (mem : GuestEntry) (reg : CpuReg) (value : Word) :
    Coherent ⟨(regWrite b mem reg value s).2,
      expect b (.regWrite mem reg value) (regWrite b mem reg value s).1 e⟩ := by
  obtain ⟨hregs, hdirty, -⟩ := refresh_coherent h
  rw [regWrite, hregs]
  cases hw : b.write mem reg value e with
  | none => exact coherent_refresh h
  | some regs =>
    have hall : writeAll b mem [(reg, value)] e = regs := by
      rw [writeAll, hw]
      rfl
    have hexp : expect b (.regWrite mem reg value) .ok e = regs := hall
    dsimp only
    rw [hexp]
    exact coherent_changed hdirty

/-- Exactly the harmless calls keep the cache coherent. -/
theorem step_coherent_iff {u : Sys R} (h : Coherent u) (c : Call R) :
    (∀ v, step b u c = some v → Coherent v) ↔ Harmless b u c := by
  have hstep : (∀ v, step b u c = some v → Coherent v) ↔
      Coherent ⟨(call b c u.cpu).2, expect b c (call b c u.cpu).1 u.expected⟩ :=
    ⟨fun hv => hv _ rfl, fun hc v hv => Option.some.inj hv ▸ hc⟩
  rw [hstep]
  obtain ⟨hregs, hdirty, -⟩ := refresh_coherent h
  cases c with
  | regRead reg =>
    refine iff_of_true ?_ trivial
    rw [call]
    cases (if ((regRead b reg u.cpu).1).isSome then Status.ok else .invalidRegister) with
    | ok => exact coherent_refresh h
    | invalidRegister => exact coherent_refresh h
  | regReads regs =>
    refine iff_of_true ?_ trivial
    rw [call]
    cases (if (regReads b regs u.cpu).1.length = regs.length then Status.ok else .invalidRegister) with
    | ok => exact coherent_refresh h
    | invalidRegister => exact coherent_refresh h
  | regWrite mem reg value => exact iff_of_true (coherent_regWrite h mem reg value) trivial
  | regWrites mem writes => exact coherent_regWrites h mem writes
  | getGDT => exact iff_of_true (coherent_refresh h) trivial
  | getIDT => exact iff_of_true (coherent_refresh h) trivial
  | setGDT addr size =>
    refine iff_of_true ?_ trivial
    rw [call, setGDT, hregs]
    exact coherent_changed hdirty
  | setIDT addr size =>
    refine iff_of_true ?_ trivial
    rw [call, setIDT, hregs]
    exact coherent_changed hdirty
  | run after =>
    refine iff_of_true ?_ trivial
    have hunchanged : (updateRegisters u.cpu).regsChanged = false := by
      rw [updateRegisters]
      split
      · rfl
      · next hc => exact Bool.eq_false_iff.mpr hc
    refine ⟨rfl, ?_⟩
    rw [call, run, updateRegisters, hunchanged]
    rfl

end Steps

/-! ## Runs -/

section Runs

variable {R : Type} {b : Backend R}

theorem always_coherent_iff {u : Sys R} (h : Coherent u) (calls : List (Call R)) :
    Always (step b) Coherent u calls ↔ Guarded (step b) (Harmless b) u calls :=
  always_iff_guarded (fun _ c hs => step_coherent_iff hs c) h

theorem coherent_start_iff {regs vcpu : R} {dirty changed : Bool} :
    Coherent ⟨⟨regs, dirty, changed, vcpu⟩, vcpu⟩ ↔
      (dirty = false ∨ changed = true → regs = vcpu) := by
  cases dirty with
  | false =>
    refine ⟨fun h _ => h.1, fun h => ⟨h (.inl rfl), ?_⟩⟩
    cases changed with
    | false => rfl
    | true => exact h (.inl rfl)
  | true =>
    cases changed with
    | false => exact iff_of_true ⟨rfl, rfl⟩ fun h => by simp at h
    | true => exact ⟨fun h _ => h.2, fun h => ⟨rfl, h (.inr rfl)⟩⟩

end Runs

/-- When the caches of the two back-ends stay coherent. The constructor of HAXM sets the two
flags, that of KVM leaves them as they are. -/
theorem cache_coherent_iff (kvmRegs kvmVcpu : KvmRegs) (dirty changed : Bool)
    (kvmCalls : List (Call KvmRegs)) (haxmRegs haxmVcpu : HaxmRegs)
    (haxmCalls : List (Call HaxmRegs)) :
    (Always (step kvm) Coherent ⟨⟨kvmRegs, dirty, changed, kvmVcpu⟩, kvmVcpu⟩ kvmCalls ↔
      (dirty = false ∨ changed = true → kvmRegs = kvmVcpu) ∧
        Guarded (step kvm) (Harmless kvm) ⟨⟨kvmRegs, dirty, changed, kvmVcpu⟩, kvmVcpu⟩ kvmCalls) ∧
    (Always (step haxm) Coherent ⟨⟨haxmRegs, true, false, haxmVcpu⟩, haxmVcpu⟩ haxmCalls ↔
      Guarded (step haxm) (Harmless haxm) ⟨⟨haxmRegs, true, false, haxmVcpu⟩, haxmVcpu⟩ haxmCalls) := by
  constructor
  · constructor
    · intro h
      exact ⟨coherent_start_iff.mp h.head, (always_coherent_iff h.head kvmCalls).mp h⟩
    · intro h'
      obtain ⟨hstart, hguard⟩ := h'
      exact (always_coherent_iff (coherent_start_iff.mpr hstart) kvmCalls).mpr hguard
  · exact always_coherent_iff (coherent_start_iff.mpr fun h => by simp at h) haxmCalls

/-- Registers that are all zero. -/
def zeroRegs : HaxmRegs :=
  ⟨fun _ => 0, fun _ => ⟨0, 0, 0, 0⟩, fun _ => 0, ⟨0, 0, 0, 0⟩, ⟨0, 0, 0, 0⟩⟩

/-- A bulk write of EAX and of an invalid register. -/
def halfWrite : Call HaxmRegs := .regWrites (fun _ _ => 0) [(.general .eax, 1), (.max, 0)]

/-- It fails, and EAX has been written. -/
theorem failed_write_changes_eax :
    ¬ Always (step haxm) Coherent ⟨⟨zeroRegs, true, false, zeroRegs⟩, zeroRegs⟩ [halfWrite] := by
  rw [always_coherent_iff (coherent_start_iff.mpr fun h => by simp at h)]
  intro h'
  obtain ⟨hharm, -⟩ := h'
  have hsame := hharm ⟨(.max, 0), by simp, rfl⟩
  exact absurd (congrArg (fun regs => regs.general .eax) hsame) (by decide)

end OpenXbox.Cpu.RegisterCache
