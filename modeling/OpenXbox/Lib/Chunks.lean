import Mathlib.Algebra.BigOperators.Group.List.Basic
import Mathlib.Algebra.GroupWithZero.Nat

/-!
# Chunks of a list

`chunks l sizes` cuts pieces of the given sizes off the front of a list, for as long as there is
something left of it. `fills room pieces` takes pieces in, for as long as there is room for them.
-/

namespace OpenXbox.Lib.Chunks

variable {β : Type*}

def chunks : List β → List Nat → List (List β)
  | _, [] => []
  | l, size :: sizes => l.take size :: chunks (l.drop size) sizes

@[simp] theorem chunks_nil (l : List β) : chunks l [] = [] := rfl

@[simp] theorem chunks_cons (l : List β) (size : Nat) (sizes : List Nat) :
    chunks l (size :: sizes) = l.take size :: chunks (l.drop size) sizes := rfl

@[simp] theorem chunks_eq_nil {l : List β} {sizes : List Nat} : chunks l sizes = [] ↔ sizes = [] := by
  cases sizes <;> simp

theorem flatten_chunks (l : List β) (sizes : List Nat) :
    (chunks l sizes).flatten = l.take sizes.sum := by
  induction sizes generalizing l with
  | nil => simp
  | cons size sizes ih => rw [chunks_cons, List.flatten_cons, ih, List.sum_cons, List.take_add]

/-- Nothing is left to cut exactly when the pieces make up the list. -/
theorem flatten_chunks_eq_iff {l : List β} {sizes : List Nat} :
    (chunks l sizes).flatten = l ↔ l.length ≤ sizes.sum := by
  rw [flatten_chunks, List.take_eq_self_iff]

/-- A piece is a full one when there is enough of the list for it and for those before it. -/
theorem length_chunk {l : List β} {sizes : List Nat} {i : Nat}
    (h : (sizes.take (i + 1)).sum ≤ l.length) :
    ((chunks l sizes).map List.length)[i]? = sizes[i]? := by
  induction sizes generalizing l i with
  | nil => simp
  | cons size sizes ih =>
    rw [List.take_succ_cons, List.sum_cons] at h
    cases i with
    | zero =>
      have hsize : size ≤ l.length := by omega
      simp [hsize]
    | succ i =>
      have hrest : (sizes.take (i + 1)).sum ≤ (l.drop size).length := by
        rw [List.length_drop]
        omega
      simpa using ih hrest

/-! ## Pieces taken in -/

def fills : Nat → List (List β) → List (List β)
  | _, [] => []
  | room, piece :: pieces => piece.take room :: fills (room - piece.length) pieces

@[simp] theorem fills_nil (room : Nat) : fills room ([] : List (List β)) = [] := rfl

@[simp] theorem fills_cons (room : Nat) (piece : List β) (pieces : List (List β)) :
    fills room (piece :: pieces) = piece.take room :: fills (room - piece.length) pieces := rfl

theorem flatten_fills (room : Nat) (pieces : List (List β)) :
    (fills room pieces).flatten = pieces.flatten.take room := by
  induction pieces generalizing room with
  | nil => simp
  | cons piece pieces ih =>
    rw [fills_cons, List.flatten_cons, ih, List.flatten_cons, List.take_append]

/-- Of each piece the front is taken in. -/
theorem fills_prefix (room : Nat) (pieces : List (List β)) :
    List.Forall₂ (fun taken piece => taken <+: piece) (fills room pieces) pieces := by
  induction pieces generalizing room with
  | nil => exact .nil
  | cons piece pieces ih => exact .cons (List.take_prefix _ _) (ih _)

end OpenXbox.Lib.Chunks
