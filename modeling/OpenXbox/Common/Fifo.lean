import OpenXbox.Lib.Word

/-!
# The ring buffer `Fifo<T>`

The array is a function from index to element; only indices below the capacity
are used. Positions are 32-bit words.
-/

namespace OpenXbox.Common

open OpenXbox.Lib

structure Fifo (α : Type*) where
  data : Nat → α
  capacity : Nat
  head : Nat
  num : Nat

namespace Fifo

variable {α : Type*}

/-- `Fifo(capacity)`, with the contents of the new array. -/
def new (data : Nat → α) (capacity : Nat) : Fifo α := ⟨data, capacity, 0, 0⟩

def count (f : Fifo α) : Nat := f.num

def isEmpty (f : Fifo α) : Bool := f.num == 0

def isFull (f : Fifo α) : Bool := f.num == f.capacity

def clear (f : Fifo α) : Fifo α := { f with num := 0 }

/-- `Push`: the fifo afterwards and whether there was room. -/
def push (f : Fifo α) (x : α) : Fifo α × Bool :=
  if f.num = f.capacity then (f, false)
  else
    let i := u32 (f.head + f.num) % f.capacity
    ({ f with data := fun j => if j = i then x else f.data j, num := u32 (f.num + 1) }, true)

/-- `Pop` into a variable: the element taken, or `none` and the variable as it was. -/
def pop (f : Fifo α) : Fifo α × Option α :=
  if f.num = 0 then (f, none)
  else ({ f with head := u32 (f.head + 1) % f.capacity, num := f.num - 1 }, some (f.data f.head))

def discard (f : Fifo α) : Fifo α × Bool :=
  if f.num = 0 then (f, false)
  else ({ f with head := u32 (f.head + 1) % f.capacity, num := f.num - 1 }, true)

end Fifo

end OpenXbox.Common
