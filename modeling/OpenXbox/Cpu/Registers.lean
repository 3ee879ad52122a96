import Mathlib.Data.BitVec

/-!
# Registers of the virtual CPU

What `RegRead` and `RegWrite` do with the registers that the two back-ends hold, register by
register. A write of a segment register loads the descriptor from the guest's GDT: what the
local entry holds after `VMemRead` is an input, by CR3 and address.
-/

namespace OpenXbox.Cpu.Registers

abbrev Word := BitVec 32

inductive General where
  | eip
  | eflags
  | eax
  | ecx
  | edx
  | ebx
  | esi
  | edi
  | esp
  | ebp
  deriving DecidableEq

inductive Selector where
  | cs
  | ss
  | ds
  | es
  | fs
  | gs
  | tr
  deriving DecidableEq

inductive Control where
  | cr0
  | cr2
  | cr3
  | cr4
  deriving DecidableEq

/-- `CpuReg`; `max` stands for every number that is no register. -/
inductive CpuReg where
  | general (r : General)
  | segment (r : Selector)
  | control (r : Control)
  | max
  deriving DecidableEq

/-- What `VMemRead` leaves in the local entry, with the given CR3 and address. -/
abbrev GuestEntry := Word → Word → BitVec 64

/-! ## Descriptors -/

/-- `GDTEntry`. -/
abbrev GDTEntry := BitVec 64

def GDTEntry.access (e : GDTEntry) : BitVec 8 := e.extractLsb' 40 8

def GDTEntry.flags (e : GDTEntry) : BitVec 4 := e.extractLsb' 52 4

def GDTEntry.getBase (e : GDTEntry) : Word :=
  (e.extractLsb' 16 16).setWidth 32 ||| (e.extractLsb' 32 8).setWidth 32 <<< 16 |||
    (e.extractLsb' 56 8).setWidth 32 <<< 24

/-- The limit, in bytes also when it is stored in pages. -/
def GDTEntry.getLimit (e : GDTEntry) : Word :=
  let limit : Word := (e.extractLsb' 0 16).setWidth 32 ||| (e.extractLsb' 48 4).setWidth 32 <<< 16
  if e.flags &&& 0x8 = 0 then limit else limit <<< 12 ||| 0xfff

/-- A back-end's registers, as far as the interface reads and writes them. Only a write of
an invalid register fails. -/
structure Backend (R : Type) where
  read (reg : CpuReg) (regs : R) : Option Word
  write (mem : GuestEntry) (reg : CpuReg) (value : Word) (regs : R) : Option R
  write_eq_none : ∀ mem reg value regs, write mem reg value regs = none ↔ reg = .max
  getGDT (regs : R) : Word × Word
  setGDT (addr size : Word) (regs : R) : R
  getIDT (regs : R) : Word × Word
  setIDT (addr size : Word) (regs : R) : R

/-- One register replaced. -/
def set {I A : Type} [DecidableEq I] (f : I → A) (i : I) (a : A) : I → A :=
  fun j => if j = i then a else f j

/-! ## KVM -/

/-- `kvm_segment`. -/
structure KvmSegment where
  base : BitVec 64
  limit : BitVec 32
  selector : BitVec 16
  type : BitVec 8
  present : BitVec 8
  dpl : BitVec 8
  db : BitVec 8
  s : BitVec 8
  l : BitVec 8
  g : BitVec 8
  avl : BitVec 8

/-- `kvm_dtable`. -/
structure KvmTable where
  base : BitVec 64
  limit : BitVec 16

/-- `kvm_regs` and `kvm_sregs`. -/
structure KvmRegs where
  general : General → BitVec 64
  segment : Selector → KvmSegment
  control : Control → BitVec 64
  gdt : KvmTable
  idt : KvmTable

/-- `KvmCpu::LoadSegmentSelector`. -/
def KvmRegs.loadSegmentSelector (mem : GuestEntry) (selector : BitVec 16) (regs : KvmRegs) :
    KvmSegment :=
  let entry : GDTEntry := mem ((regs.control .cr3).setWidth 32)
    ((regs.gdt.base + selector.setWidth 64).setWidth 32)
  { selector := selector
    avl := entry.flags.setWidth 8 &&& 0x1
    l := (entry.flags.setWidth 8 >>> 1) &&& 0x1
    db := (entry.flags.setWidth 8 >>> 2) &&& 0x1
    g := (entry.flags.setWidth 8 >>> 3) &&& 0x1
    present := (entry.access >>> 7) &&& 0x1
    dpl := (entry.access >>> 5) &&& 0x3
    s := (entry.access >>> 4) &&& 0x1
    type := entry.access &&& 0xF
    base := entry.getBase.setWidth 64
    limit := entry.getLimit }

def kvm : Backend KvmRegs where
  read
    | .general r, regs => some ((regs.general r).setWidth 32)
    | .segment r, regs => some ((regs.segment r).selector.setWidth 32)
    | .control r, regs => some ((regs.control r).setWidth 32)
    | .max, _ => none
  write mem
    | .general r, value, regs => some { regs with general := set regs.general r (value.setWidth 64) }
    | .segment r, value, regs =>
      some { regs with
        segment := set regs.segment r (regs.loadSegmentSelector mem (value.setWidth 16)) }
    | .control r, value, regs => some { regs with control := set regs.control r (value.setWidth 64) }
    | .max, _, _ => none
  write_eq_none mem reg value regs := by cases reg <;> simp
  getGDT regs := (regs.gdt.base.setWidth 32, regs.gdt.limit.setWidth 32)
  setGDT addr size regs := { regs with gdt := ⟨addr.setWidth 64, size.setWidth 16⟩ }
  getIDT regs := (regs.idt.base.setWidth 32, regs.idt.limit.setWidth 32)
  setIDT addr size regs := { regs with idt := ⟨addr.setWidth 64, size.setWidth 16⟩ }

/-! ## HAXM -/

/-- `segment_desc_t`. -/
structure HaxmSegment where
  selector : BitVec 16
  limit : BitVec 32
  base : BitVec 64
  ar : BitVec 32

/-- `vcpu_state_t`. -/
structure HaxmRegs where
  general : General → BitVec 64
  segment : Selector → HaxmSegment
  control : Control → BitVec 64
  gdt : HaxmSegment
  idt : HaxmSegment

/-- `HaxmCpu::LoadSegmentSelector`. -/
def HaxmRegs.loadSegmentSelector (mem : GuestEntry) (selector : BitVec 16) (regs : HaxmRegs) :
    HaxmSegment :=
  let entry : GDTEntry := mem ((regs.control .cr3).setWidth 32)
    ((regs.gdt.base + selector.setWidth 64).setWidth 32)
  { selector := selector
    ar := entry.access.setWidth 32 ||| entry.flags.setWidth 32 <<< 12
    base := entry.getBase.setWidth 64
    limit := entry.getLimit }

/-- The low half of a register replaced, as the member of a union. -/
def setLow (reg : BitVec 64) (value : Word) : BitVec 64 := reg.extractLsb' 32 32 ++ value

/-- What is stored for a write of a general register: EFLAGS keeps its fixed bits. -/
def haxmValue (r : General) (value : Word) : Word :=
  if r = .eflags then (value ||| 0x2) &&& ~~~0x8028 else value

def haxm : Backend HaxmRegs where
  read
    | .general r, regs => some ((regs.general r).setWidth 32)
    | .segment r, regs => some ((regs.segment r).selector.setWidth 32)
    | .control r, regs => some ((regs.control r).setWidth 32)
    | .max, _ => none
  write mem
    | .general r, value, regs =>
      some { regs with general := set regs.general r (setLow (regs.general r) (haxmValue r value)) }
    | .segment r, value, regs =>
      some { regs with
        segment := set regs.segment r (regs.loadSegmentSelector mem (value.setWidth 16)) }
    | .control r, value, regs => some { regs with control := set regs.control r (value.setWidth 64) }
    | .max, _, _ => none
  write_eq_none mem reg value regs := by cases reg <;> simp
  getGDT regs := (regs.gdt.base.setWidth 32, regs.gdt.limit)
  setGDT addr size regs := { regs with gdt := { regs.gdt with base := addr.setWidth 64, limit := size } }
  getIDT regs := (regs.idt.base.setWidth 32, regs.idt.limit)
  setIDT addr size regs := { regs with idt := { regs.idt with base := addr.setWidth 64, limit := size } }

end OpenXbox.Cpu.Registers
