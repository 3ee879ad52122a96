import Mathlib.Data.List.Perm.Basic
import Mathlib.Data.List.Nodup
import Mathlib.Data.List.Range
import Mathlib.Logic.Function.Basic

/-!
# Pointers that own blocks

Blocks are numbered in the order in which they are allocated. A list of pointers releases the first
`n` blocks when deleting them in turn frees each of these once and reads no pointer that was never
written. Deleting a null pointer does nothing.
-/

namespace OpenXbox.Lib.Ownership

inductive Owner
  | uninitialised
  | null
  | block (id : Nat)
  deriving DecidableEq

/-- The blocks that are freed, in order. -/
def freed : List Owner → List Nat
  | [] => []
  | .block id :: ps => id :: freed ps
  | .null :: ps => freed ps
  | .uninitialised :: ps => freed ps

structure Releases (ps : List Owner) (n : Nat) : Prop where
  initialised : .uninitialised ∉ ps
  once : (freed ps).Perm (List.range n)

section Lists

variable {ps qs : List Owner} {n : Nat}

theorem freed_append (ps qs : List Owner) : freed (ps ++ qs) = freed ps ++ freed qs := by
  induction ps with
  | nil => rfl
  | cons p ps ih => cases p <;> simp [freed, ih]

theorem releases_append_null (ps qs : List Owner) :
    Releases (ps ++ .null :: qs) n ↔ Releases (ps ++ qs) n := by
  have hfreed : freed (ps ++ .null :: qs) = freed (ps ++ qs) := by rw [freed_append, freed_append]; rfl
  constructor
  · rintro ⟨hinit, honce⟩
    refine ⟨fun h => hinit ?_, hfreed ▸ honce⟩
    simpa using h
  · rintro ⟨hinit, honce⟩
    refine ⟨fun h => hinit ?_, hfreed.symm ▸ honce⟩
    simpa using h

/-- The next block goes to a pointer that is added. -/
theorem releases_append_block (h : Releases (ps ++ qs) n) : Releases (ps ++ .block n :: qs) (n + 1) := by
  constructor
  · intro hmem
    exact h.initialised (by simpa using hmem)
  · have honce := h.once
    rw [freed_append] at honce
    rw [freed_append, List.range_succ]
    exact (List.perm_middle.trans (honce.cons n)).trans (List.perm_append_singleton n _).symm

end Lists

section Slots

variable {ι : Type*} [DecidableEq ι] {slots : ι → Owner} {order : List ι} {pre : List Owner} {n : Nat}

/-- The next block goes to one of several named pointers, which was null. -/
theorem releases_update (hnodup : order.Nodup) {i : ι} (hi : i ∈ order) (hnull : slots i = .null)
    (h : Releases (pre ++ order.map slots) n) :
    Releases (pre ++ order.map (Function.update slots i (.block n))) (n + 1) := by
  obtain ⟨before, after, rfl⟩ := List.append_of_mem hi
  have hout : ∀ j ∈ before ++ after, Function.update slots i (.block n) j = slots j := by
    intro j hj
    refine Function.update_of_ne (fun heq => ?_) _ _
    subst heq
    have hnot := (List.nodup_middle.mp hnodup).notMem
    exact hnot hj
  have hsame : ∀ part : List ι, (∀ j ∈ part, j ∈ before ++ after) →
      part.map (Function.update slots i (.block n)) = part.map slots :=
    fun part hpart => List.map_congr_left fun j hj => hout j (hpart j hj)
  rw [List.map_append, List.map_cons, hnull, ← List.append_assoc, releases_append_null] at h
  rw [List.map_append, List.map_cons, Function.update_self, ← List.append_assoc,
    hsame before fun j hj => List.mem_append_left _ hj, hsame after fun j hj => List.mem_append_right _ hj]
  exact releases_append_block h

end Slots

end OpenXbox.Lib.Ownership
