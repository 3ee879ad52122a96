import Mathlib.Data.Finite.Sum
import Mathlib.Data.Finite.Prod
import Mathlib.Data.Set.Finite.Range
import OpenXbox.Lib.Cycle
import OpenXbox.Ohci.ListWalk

/-!
# Walks that return

A turn of the walk goes by guest memory, the local descriptor, where the walk is and a few
registers. The walk writes to guest memory, so a list that links to itself may still come
to an end; it does not exactly when the walk can get to a state again that it has been in.
-/

namespace OpenXbox.Ohci.WalkReturns

open OpenXbox.Lib.Loop OpenXbox.Lib.Cycle OpenXbox.Ohci.Memory OpenXbox.Ohci.Service
  OpenXbox.Ohci.Layout OpenXbox.Ohci.ListWalk

/-- What of the controller the turns of the walk go by. -/
structure Control where
  mem : GuestMemory
  hcDoneHead : Word
  hcFmNumber : Word
  asyncTD : Word
  asyncComplete : Bool
  packet : UsbPacket

def control (hc : Controller) : Control :=
  ⟨hc.mem, hc.hcDoneHead, hc.hcFmNumber, hc.asyncTD, hc.asyncComplete, hc.packet⟩

/-- The walk with the local descriptor and the place in the list. -/
structure Situation where
  control : Control
  ed : EndpointDescriptor
  position : Position

def situation (w : Walk) : Situation := ⟨control w.hc, w.ed, w.position⟩

/-! ## What a service goes by -/

/-- Two services that come back alike. -/
structure Same (s s' : Serviced) : Prop where
  stop : s'.stop = s.stop
  ed : s'.ed = s.ed
  control : control s'.hc = control s.hc

section Services

variable {hc hc' : Controller}

variable {ed : EndpointDescriptor} {td : TransferDescriptor} {addr dir ret : Word}

variable {iso : IsoDescriptor}

end Services

/-! ## Turns -/

section Turns

variable {env env' : Nat → Answer} {completion : Bool} {w w' v : Walk}

/-- The answers that are there from `w'` on are those that are taken from `w` to `v`. -/
def Supplied (env env' : Nat → Answer) (w w' v : Walk) : Prop :=
  ∀ k, w.hc.calls + k < v.hc.calls → env' (w'.hc.calls + k) = env (w.hc.calls + k)

/-- The turn from `w` to `v` is made from `w'` as well, with as many answers. -/
def Repeats (env' : Nat → Answer) (completion : Bool) (w w' v : Walk) : Prop :=
  ∃ v', walkBody env' completion w' = .next v' ∧ situation v' = situation v ∧
    v'.hc.calls + w.hc.calls = w'.hc.calls + v.hc.calls

theorem Supplied.answer (h : Supplied env env' w w' v) {k : Nat} (hk : w.hc.calls + k < v.hc.calls)
    {hc hc' : Controller} (hcalls : hc.calls = w.hc.calls + k) (hcalls' : hc'.calls = w'.hc.calls + k) :
    hc'.answer env' = hc.answer env := by
  rw [Controller.answer, Controller.answer, hcalls, hcalls']
  exact h k hk

variable {current nextED : Word}

end Turns

/-! ## Finitely many situations -/

instance : Finite EndpointDescriptor := by
  refine Finite.of_injective (fun ed => (ed.flags, ed.tailP, ed.headP, ed.nextED)) fun ed ed' h => ?_
  cases ed
  cases ed'
  simpa using h

instance : Finite UsbPacket := by
  refine Finite.of_injective (fun p => (p.status, p.actualLength)) fun p p' h => ?_
  cases p
  cases p'
  simpa using h

instance : Finite Position := by
  refine Finite.of_surjective (fun p : Word ⊕ (Word × Word) => p.elim .list fun q => .queue q.1 q.2) ?_
  intro p
  cases p with
  | list current => exact ⟨.inl current, rfl⟩
  | queue current nextED => exact ⟨.inr (current, nextED), rfl⟩

/-- What a walk may come to, with the bytes of guest memory below `B`. -/
structure Contents (B : Nat) where
  bytes : Fin B → Byte
  hcDoneHead : Word
  asyncTD : Word
  asyncComplete : Bool
  packet : UsbPacket
  ed : EndpointDescriptor
  position : Position

instance (B : Nat) : Finite (Contents B) := by
  refine Finite.of_injective (fun c => (c.bytes, c.hcDoneHead, c.asyncTD, c.asyncComplete, c.packet,
    c.ed, c.position)) fun c c' h => ?_
  cases c
  cases c'
  simpa using h

def Contents.situation {B : Nat} (c : Contents B) (mem : GuestMemory) (hcFmNumber : Word) : Situation where
  control := {
    mem := { mem with host := fun x => if h : x < B then c.bytes ⟨x, h⟩ else mem.host x }
    hcDoneHead := c.hcDoneHead
    hcFmNumber := hcFmNumber
    asyncTD := c.asyncTD
    asyncComplete := c.asyncComplete
    packet := c.packet }
  ed := c.ed
  position := c.position

section Walks

variable {env : Nat → Answer} {completion : Bool} {w v : Walk}

/-- The ranges of physical memory end somewhere in the host's memory. -/
theorem exists_top (map : OpenXbox.Cpu.VirtualMemory.HostMap) : ∃ B, ∀ r ∈ map, r.data + 2 ^ 32 ≤ B := by
  induction map with
  | nil => exact ⟨0, fun _ hr => absurd hr List.not_mem_nil⟩
  | cons r rs ih =>
    obtain ⟨B, hB⟩ := ih
    refine ⟨max (r.data + 2 ^ 32) B, List.forall_mem_cons.mpr ⟨le_max_left _ _, fun s hs => ?_⟩⟩
    exact (hB s hs).trans (le_max_right _ _)

end Walks

/-! ## The walk -/

end OpenXbox.Ohci.WalkReturns
