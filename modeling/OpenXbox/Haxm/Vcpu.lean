import Mathlib.Data.BitVec
import Mathlib.Data.Fin.Basic
import Mathlib.Logic.Function.Basic

/-!
# Hardware breakpoints of the HAXM CPU

The debug state is kept in the VCPU object and handed to the hypervisor as a whole. Whether the
hypervisor takes it is an input.
-/

namespace OpenXbox.Haxm.Vcpu

abbrev QWord := BitVec 64

local instance registers_neZero : NeZero 8 := ⟨by decide⟩

def HAX_DEBUG_ENABLE : BitVec 32 := 0x1
def HAX_DEBUG_USE_HW_BP : BitVec 32 := 0x8

inductive BreakpointTrigger
  | execution
  | dataWrite
  | eightByteWide
  | dataReadWrite
  deriving DecidableEq

def BreakpointTrigger.value : BreakpointTrigger → QWord
  | .execution => 0
  | .dataWrite => 1
  | .eightByteWide => 2
  | .dataReadWrite => 3

inductive BreakpointLength
  | oneByte
  | twoByte
  | eightByte
  | fourByte
  deriving DecidableEq

def BreakpointLength.value : BreakpointLength → QWord
  | .oneByte => 0
  | .twoByte => 1
  | .eightByte => 2
  | .fourByte => 3

/-- A slot of `HardwareBreakpoints`, and `HaxmHardwareBreakpoint`: the values are the same. -/
structure HardwareBreakpoint where
  address : QWord
  localEnable : Bool
  globalEnable : Bool
  trigger : BreakpointTrigger
  length : BreakpointLength
  deriving DecidableEq

abbrev HardwareBreakpoints := Fin 4 → HardwareBreakpoint

/-- `hax_debug_t`. -/
structure HaxDebug where
  control : BitVec 32
  dr : Fin 8 → QWord

/-- The debug state of the object, and the one that the hypervisor took last. -/
structure HaxmVCPU where
  debug : HaxDebug
  given : HaxDebug

def HaxmVCPU.initial : HaxmVCPU := ⟨⟨0, fun _ => 0⟩, ⟨0, fun _ => 0⟩⟩

/-- The address register of a slot. -/
def addressRegister (i : Fin 4) : Fin 8 := i.castLE (by decide)

/-- `SetDebug`, with the answer of the hypervisor. -/
def setDebug (v : HaxmVCPU) (accepted : Bool) : HaxmVCPU :=
  let control :=
    if v.debug.control &&& ~~~HAX_DEBUG_ENABLE ≠ 0 then v.debug.control ||| HAX_DEBUG_ENABLE
    else v.debug.control &&& ~~~HAX_DEBUG_ENABLE
  let debug := { v.debug with control }
  ⟨debug, if accepted then debug else v.given⟩

def flag (b : Bool) : QWord := if b then 1 else 0

/-- What a slot adds to `dr[7]`. -/
def slotBits (i : Fin 4) (bp : HardwareBreakpoint) : QWord :=
  flag bp.localEnable <<< (0 + i.val * 2) ||| flag bp.globalEnable <<< (1 + i.val * 2) |||
    (bp.trigger.value &&& 0x3) <<< (16 + i.val * 4) ||| (bp.length.value &&& 0x3) <<< (18 + i.val * 4)

/-- One turn of the loop over the slots. -/
def setSlot (breakpoints : HardwareBreakpoints) (d : HaxDebug) (i : Fin 4) : HaxDebug :=
  let dr := Function.update d.dr (addressRegister i) (breakpoints i).address
  { d with dr := Function.update dr 7 (dr 7 ||| slotBits i (breakpoints i)) }

def HaxmVCPU.clearHardwareBreakpoints (v : HaxmVCPU) (accepted : Bool) : HaxmVCPU :=
  setDebug { v with debug := ⟨v.debug.control &&& ~~~HAX_DEBUG_USE_HW_BP, fun _ => 0⟩ } accepted

def HaxmVCPU.setHardwareBreakpoints (v : HaxmVCPU) (breakpoints : HardwareBreakpoints)
    (accepted : Bool) : HaxmVCPU :=
  if ∀ i, !(breakpoints i).localEnable ∧ !(breakpoints i).globalEnable then
    v.clearHardwareBreakpoints accepted
  else
    let debug := { v.debug with control := v.debug.control ||| HAX_DEBUG_USE_HW_BP }
    setDebug { v with debug := (List.finRange 4).foldl (setSlot breakpoints) debug } accepted

/-- `HaxmCpu::SetHardwareBreakpoints`. Every slot handed on is a copy of the first. -/
def setHardwareBreakpoints (v : HaxmVCPU) (breakpoints : HardwareBreakpoints) (accepted : Bool) :
    HaxmVCPU :=
  v.setHardwareBreakpoints (fun _ => breakpoints 0) accepted

/-- `HaxmCpu::ClearHardwareBreakpoints`. -/
def clearHardwareBreakpoints (v : HaxmVCPU) (accepted : Bool) : HaxmVCPU :=
  v.clearHardwareBreakpoints accepted

/-- `GetBreakpointAddress`, for the registers that the hypervisor reports; `none` when no breakpoint
was hit. -/
def getBreakpointAddress (v : HaxmVCPU) (dr6 rip : QWord) : Option (BitVec 32) :=
  let hardwareBP := dr6 &&& 0xF
  if hardwareBP = 0 ∧ rip = 0 then none
  else if hardwareBP.getLsbD 0 then some ((v.debug.dr 0).setWidth 32)
  else if hardwareBP.getLsbD 1 then some ((v.debug.dr 1).setWidth 32)
  else if hardwareBP.getLsbD 2 then some ((v.debug.dr 2).setWidth 32)
  else if hardwareBP.getLsbD 3 then some ((v.debug.dr 3).setWidth 32)
  else some (rip.setWidth 32)

end OpenXbox.Haxm.Vcpu
