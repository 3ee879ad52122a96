import Mathlib.Data.List.Basic

/-!
# Lists that are written into

`splice xs pos bytes` is the list with the elements from `pos` on replaced by those of another one,
which has to end before the list does.
-/

namespace OpenXbox.Lib.Splice

variable {β : Type*}

def splice (xs : List β) (pos : Nat) (bytes : List β) : List β :=
  xs.take pos ++ bytes ++ xs.drop (pos + bytes.length)

@[simp] theorem splice_nil (xs : List β) (pos : Nat) : splice xs pos [] = xs := by
  rw [splice, List.append_nil, List.length_nil, Nat.add_zero, List.take_append_drop]

section Bounds

variable {xs ys bytes more : List β} {pos : Nat}

theorem length_splice (h : pos + bytes.length ≤ xs.length) : (splice xs pos bytes).length = xs.length := by
  rw [splice, List.length_append, List.length_append, List.length_take, List.length_drop]
  omega

/-- What is written is found again. -/
theorem drop_splice (h : pos ≤ xs.length) :
    (splice xs pos bytes).drop pos = bytes ++ xs.drop (pos + bytes.length) := by
  rw [splice, List.append_assoc, List.drop_left' (List.length_take_of_le h)]

theorem splice_append_right (h : xs.length ≤ pos) :
    splice (xs ++ ys) pos bytes = xs ++ splice ys (pos - xs.length) bytes := by
  rw [splice, splice, List.take_append, List.drop_append, List.take_of_length_le h,
    List.drop_eq_nil_of_le (by omega), List.nil_append, List.append_assoc, List.append_assoc,
    List.append_assoc, Nat.sub_add_comm h]

/-- A list written over the end of one list and into the next. -/
theorem splice_append (h : pos + bytes.length ≤ xs.length) (hend : more ≠ [] → pos + bytes.length = xs.length) :
    splice (xs ++ ys) pos (bytes ++ more) = splice xs pos bytes ++ splice ys 0 more := by
  rw [splice, splice, splice, List.take_append_of_le_length (by omega), List.take_zero, List.nil_append,
    List.length_append, Nat.zero_add]
  by_cases hmore : more = []
  · rw [hmore, List.length_nil, Nat.add_zero, List.drop_append_of_le_length h]
    simp
  · have hfull := hend hmore
    rw [← Nat.add_assoc, hfull, List.drop_append, List.drop_eq_nil_of_le (Nat.le_refl _),
      List.drop_eq_nil_of_le (Nat.le_add_right _ _), Nat.add_sub_cancel_left]
    simp

end Bounds

end OpenXbox.Lib.Splice
