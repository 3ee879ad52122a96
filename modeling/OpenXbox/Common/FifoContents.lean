import OpenXbox.Common.Fifo
import Mathlib.Data.List.Basic
import Mathlib.Algebra.Order.Group.Nat

/-!
# The ring buffer as a queue

The elements of a `Fifo<T>` from the first to the last, and what its operations do to
them. Places that are not in use are left as they are.
-/

namespace OpenXbox.Common.Fifo

open OpenXbox.Lib

variable {α : Type*}

/-- The elements, the one that is popped next in front. -/
def contents (f : Fifo α) : List α :=
  (List.range f.num).map fun i => f.data ((f.head + i) % f.capacity)

/-- Positions are below the capacity, and far from a wrap of the word. -/
structure WellFormed (f : Fifo α) : Prop where
  head_lt : f.head < f.capacity
  num_le : f.num ≤ f.capacity
  capacity_le : f.capacity ≤ 2 ^ 31

@[simp] theorem length_contents (f : Fifo α) : f.contents.length = f.num := by simp [contents]

theorem contents_eq_nil_iff (f : Fifo α) : f.contents = [] ↔ f.num = 0 := by
  rw [← List.length_eq_zero_iff, length_contents]

theorem wellFormed_new (data : Nat → α) {capacity : Nat} (hpos : 0 < capacity)
    (hle : capacity ≤ 2 ^ 31) : WellFormed (new data capacity) := ⟨hpos, Nat.zero_le _, hle⟩

theorem wellFormed_clear {f : Fifo α} (h : WellFormed f) : WellFormed f.clear :=
  ⟨h.head_lt, Nat.zero_le _, h.capacity_le⟩

@[simp] theorem contents_clear (f : Fifo α) : f.clear.contents = [] := rfl

/-! ## Push -/

section Push

variable {f : Fifo α}

theorem push_eq (h : WellFormed f) (hroom : f.num < f.capacity) (x : α) : (f.push x).1 =
    { f with
      data := fun j => if j = (f.head + f.num) % f.capacity then x else f.data j
      num := f.num + 1 } := by
  obtain ⟨hhead, hnum, hcap⟩ := h
  rw [push, if_neg hroom.ne]
  simp only [u32_of_lt (show f.head + f.num < 2 ^ 32 by omega),
    u32_of_lt (show f.num + 1 < 2 ^ 32 by omega)]

theorem wellFormed_push (h : WellFormed f) (x : α) : WellFormed (f.push x).1 := by
  by_cases hfull : f.num = f.capacity
  · rw [push, if_pos hfull]
    exact h
  · have hroom : f.num < f.capacity := lt_of_le_of_ne h.num_le hfull
    rw [push_eq h hroom]
    exact ⟨h.head_lt, hroom, h.capacity_le⟩

/-- The places of two elements are different. -/
theorem place_ne (h : WellFormed f) {i j : Nat} (hij : i < j) (hj : j < f.capacity) :
    (f.head + i) % f.capacity ≠ (f.head + j) % f.capacity := by
  have hhead := h.head_lt
  rcases Nat.lt_or_ge (f.head + j) f.capacity with hlt | hge
  · rw [Nat.mod_eq_of_lt (by omega), Nat.mod_eq_of_lt hlt]
    omega
  · rw [Nat.mod_eq_sub_mod hge, Nat.mod_eq_of_lt (by omega : f.head + j - f.capacity < f.capacity)]
    rcases Nat.lt_or_ge (f.head + i) f.capacity with hlt | hge'
    · rw [Nat.mod_eq_of_lt hlt]
      omega
    · rw [Nat.mod_eq_sub_mod hge', Nat.mod_eq_of_lt (by omega)]
      omega

theorem contents_push (h : WellFormed f) (hroom : f.num < f.capacity) (x : α) :
    (f.push x).1.contents = f.contents ++ [x] := by
  rw [push_eq h hroom, contents, contents, List.range_succ, List.map_append, List.map_singleton]
  congr 1
  · apply List.map_congr_left
    intro i hi
    rw [List.mem_range] at hi
    exact if_neg (place_ne h hi hroom)
  · exact congrArg (fun y => [y]) (if_pos rfl)

end Push

/-! ## Pop -/

section Pop

variable {f : Fifo α}

theorem pop_eq (h : WellFormed f) (hne : f.num ≠ 0) : f.pop =
    ({ f with head := (f.head + 1) % f.capacity, num := f.num - 1 }, some (f.data f.head)) := by
  obtain ⟨hhead, hnum, hcap⟩ := h
  rw [pop, if_neg hne, u32_of_lt (by omega)]

theorem wellFormed_pop (h : WellFormed f) : WellFormed f.pop.1 := by
  by_cases hz : f.num = 0
  · rw [pop, if_pos hz]
    exact h
  · rw [pop_eq h hz]
    exact ⟨Nat.mod_lt _ (by have := h.head_lt; omega), (Nat.sub_le _ _).trans h.num_le, h.capacity_le⟩

/-- The element popped is the first one, the others stay. -/
theorem contents_pop (h : WellFormed f) (hne : f.num ≠ 0) :
    ∃ x, f.pop.2 = some x ∧ f.contents = x :: f.pop.1.contents := by
  obtain ⟨n, hn⟩ := Nat.exists_eq_succ_of_ne_zero hne
  refine ⟨f.data f.head, by rw [pop_eq h hne], ?_⟩
  rw [pop_eq h hne, contents, contents, hn, List.range_succ_eq_map, List.map_cons, Nat.add_zero,
    Nat.mod_eq_of_lt h.head_lt, List.map_map]
  congr 1
  apply List.map_congr_left
  intro i _
  simp only [Function.comp, Nat.mod_add_mod]
  congr 2
  omega

theorem discard_eq_pop (f : Fifo α) : f.discard.1 = f.pop.1 := by
  rw [discard, pop]
  split <;> rfl

end Pop

end OpenXbox.Common.Fifo
