import OpenXbox.Lib.Bits

/-!
# Physical memory of the CPU module

`MemRead` scans the mapped ranges in order and copies from the first one whose
bounds admit the access. The bound is computed in 32-bit arithmetic.
-/

namespace OpenXbox.Cpu.Memory

open OpenXbox.Lib.Bits

abbrev Word := BitVec 32

/-- A mapped range; `data` is the host memory that starts at its first byte. -/
structure PhysicalMemoryRange where
  startingAddress : Word
  endingAddress : Word
  data : Nat → BitVec 8

abbrev PhysMemMap := List PhysicalMemoryRange

def PhysicalMemoryRange.admits (r : PhysicalMemoryRange) (addr size : Word) : Bool :=
  decide (addr ≥ r.startingAddress) && decide (addr + size - 1 ≤ r.endingAddress)

def PhysicalMemoryRange.byte (r : PhysicalMemoryRange) (addr : Word) (i : Nat) : BitVec 8 :=
  r.data ((addr - r.startingAddress).toNat + i)

/-- `Cpu::MemRead`: the bytes copied, or `none` when no range admits the access
and the destination is left as it was. -/
def memRead (m : PhysMemMap) (addr size : Word) : Option (List (BitVec 8)) :=
  (m.find? fun r => r.admits addr size).map fun r => (List.range size.toNat).map (r.byte addr)

/-- The little-endian word of the first four bytes. -/
def toWord : List (BitVec 8) → Word
  | b0 :: b1 :: b2 :: b3 :: _ => le32 b0 b1 b2 b3
  | _ => 0

/-- `MemRead` into a four-byte variable that holds `old`. -/
def memRead32 (m : PhysMemMap) (addr old : Word) : Word :=
  ((memRead m addr 4).map toWord).getD old

/-! ## Words inside the mapped memory -/

/-- All four bytes at `addr` lie in the range, in exact arithmetic. -/
def PhysicalMemoryRange.Holds (r : PhysicalMemoryRange) (addr : Word) : Prop :=
  r.startingAddress.toNat ≤ addr.toNat ∧ addr.toNat + 3 ≤ r.endingAddress.toNat

instance (r : PhysicalMemoryRange) (addr : Word) : Decidable (r.Holds addr) :=
  inferInstanceAs (Decidable (_ ∧ _))

/-- The word stored at `addr`; `none` outside the mapped memory. -/
def wordAt (m : PhysMemMap) (addr : Word) : Option Word :=
  (m.find? fun r => decide (r.Holds addr)).map fun r =>
    le32 (r.byte addr 0) (r.byte addr 1) (r.byte addr 2) (r.byte addr 3)

/-- Below the top of the address space the 32-bit bound is the exact one. -/
theorem admits_iff_holds {r : PhysicalMemoryRange} {addr : Word} (ha : addr.toNat + 3 < 2 ^ 32) :
    r.admits addr 4 = decide (r.Holds addr) := by
  have he : (addr + 4 - 1 : Word).toNat = addr.toNat + 3 := by
    have h4 : (addr + 4 - 1 : Word) = addr + 3 := by
      rw [BitVec.sub_eq_add_neg, BitVec.add_assoc]
      rfl
    rw [h4, BitVec.toNat_add, show (3 : Word).toNat = 3 from rfl, Nat.mod_eq_of_lt ha]
  rw [Bool.eq_iff_iff, PhysicalMemoryRange.admits, Bool.and_eq_true, decide_eq_true_eq,
    decide_eq_true_eq, decide_eq_true_eq, ge_iff_le, BitVec.le_def, BitVec.le_def, he]
  rfl

theorem memRead_eq_wordAt (m : PhysMemMap) {addr : Word} (ha : addr.toNat + 3 < 2 ^ 32) :
    (memRead m addr 4).map toWord = wordAt m addr := by
  have hp : (fun r : PhysicalMemoryRange => r.admits addr 4) = fun r => decide (r.Holds addr) :=
    funext fun r => admits_iff_holds ha
  rw [memRead, wordAt, hp, Option.map_map]
  rfl

end OpenXbox.Cpu.Memory
