import Mathlib.Data.List.Basic

/-!
# Buffers

Memory from a pointer on is a function of the offset. `slice` is what a range of it holds,
`put` the memory after a list has been stored.
-/

namespace OpenXbox.Lib.Buffer

variable {β : Type*}

/-- One place stored. -/
def store (buf : Nat → β) (pos : Nat) (b : β) : Nat → β := fun i => if i = pos then b else buf i

/-- A list stored from `pos` on. -/
def put (buf : Nat → β) (pos : Nat) (bytes : List β) : Nat → β :=
  fun i => if pos ≤ i then bytes[i - pos]?.getD (buf i) else buf i

/-- What `len` places from `pos` on hold. -/
def slice (buf : Nat → β) (pos len : Nat) : List β := (List.range len).map fun i => buf (pos + i)

/-- The memory after a change of what lies from `pos` on. -/
def putFrom (buf : Nat → β) (pos : Nat) (after : Nat → β) : Nat → β :=
  fun i => if i < pos then buf i else after (i - pos)

/-- The memory from `pos` on. -/
def drop (buf : Nat → β) (pos : Nat) : Nat → β := fun i => buf (pos + i)

section Slice

variable {buf : Nat → β} {pos len : Nat}

@[simp] theorem length_slice : (slice buf pos len).length = len := by simp [slice]

@[simp] theorem slice_zero : slice buf pos 0 = [] := rfl

theorem slice_succ : slice buf pos (len + 1) = buf pos :: slice buf (pos + 1) len := by
  simp only [slice, List.range_succ_eq_map, List.map_cons, List.map_map, Nat.add_zero]
  congr 1
  apply List.map_congr_left
  intro i _
  rw [Function.comp_apply, Nat.succ_eq_add_one, Nat.add_assoc, Nat.add_comm 1 i]

theorem slice_add (more : Nat) :
    slice buf pos (len + more) = slice buf pos len ++ slice buf (pos + len) more := by
  simp only [slice, List.range_add, List.map_append, List.map_map]
  congr 1
  apply List.map_congr_left
  intro i _
  rw [Function.comp_apply, Nat.add_assoc]

/-- Slices of one size, one after the other. -/
theorem flatten_slices (buf : Nat → β) (pos size count : Nat) :
    ((List.range count).map fun k => slice buf (pos + k * size) size).flatten =
      slice buf pos (count * size) := by
  induction count with
  | zero => simp
  | succ count ih => simp [List.range_succ, ih, Nat.succ_mul, slice_add]

theorem take_slice (n : Nat) : (slice buf pos len).take n = slice buf pos (min n len) := by
  rw [slice, ← List.map_take, List.take_range, slice]

theorem drop_slice (n : Nat) : (slice buf pos len).drop n = slice buf (pos + n) (len - n) := by
  by_cases h : n ≤ len
  · have hlen : len = n + (len - n) := by omega
    rw [hlen, slice_add, List.drop_left' length_slice, Nat.add_sub_cancel_left]
  · rw [List.drop_eq_nil_of_le (by rw [length_slice]; omega), Nat.sub_eq_zero_of_le (by omega), slice_zero]

theorem getElem?_slice {i : Nat} (hi : i < len) : (slice buf pos len)[i]? = some (buf (pos + i)) := by
  simp [slice, hi]

theorem slice_drop (buf : Nat → β) (pos start len : Nat) :
    slice (drop buf pos) start len = slice buf (pos + start) len := by
  refine List.map_congr_left fun i _ => ?_
  rw [drop, Nat.add_assoc]

end Slice

section Put

variable {buf : Nat → β} {pos : Nat} {bytes : List β}

@[simp] theorem put_nil : put buf pos [] = buf := by
  funext i
  simp [put]

theorem put_of_lt {i : Nat} (h : i < pos) : put buf pos bytes i = buf i := if_neg (by omega)

theorem put_of_ge {i : Nat} (h : pos + bytes.length ≤ i) : put buf pos bytes i = buf i := by
  rw [put, List.getElem?_eq_none (by omega), Option.getD_none, ite_self]

theorem put_getElem {i : Nat} (h : i < bytes.length) : put buf pos bytes (pos + i) = bytes[i] := by
  rw [put, if_pos (Nat.le_add_right _ _), Nat.add_sub_cancel_left, List.getElem?_eq_getElem h,
    Option.getD_some]

theorem put_cons (b : β) (bs : List β) : put buf pos (b :: bs) = put (store buf pos b) (pos + 1) bs := by
  funext i
  by_cases hlt : i < pos
  · rw [put_of_lt hlt, put_of_lt (by omega), store, if_neg (by omega)]
  · by_cases heq : i = pos
    · subst heq
      rw [put_of_lt (Nat.lt_succ_self i), store, if_pos rfl, put, if_pos (Nat.le_refl i), Nat.sub_self]
      rfl
    · rw [put, put, if_pos (by omega), if_pos (by omega), store, if_neg heq,
        show i - pos = i - (pos + 1) + 1 by omega, List.getElem?_cons_succ]

theorem put_append (more : List β) :
    put buf pos (bytes ++ more) = put (put buf pos bytes) (pos + bytes.length) more := by
  induction bytes generalizing buf pos with
  | nil => simp
  | cons b bs ih =>
    rw [List.cons_append, put_cons, ih, put_cons, List.length_cons, Nat.add_assoc, Nat.add_comm 1]

theorem put_put {more : List β} {p : Nat} (hp : p = pos + bytes.length) :
    put (put buf pos bytes) p more = put buf pos (bytes ++ more) := by
  rw [put_append, hp]

/-- Lists stored in separate places. -/
theorem put_comm {more : List β} {p : Nat} (hp : pos + bytes.length ≤ p) :
    put (put buf pos bytes) p more = put (put buf p more) pos bytes := by
  funext i
  by_cases hi : p ≤ i
  · have hpast : pos + bytes.length ≤ i := Nat.le_trans hp hi
    have hsame : put buf pos bytes i = buf i := put_of_ge hpast
    rw [put_of_ge hpast, put, hsame, put]
  · have hbefore : i < p := Nat.lt_of_not_le hi
    have hsame : put buf p more i = buf i := put_of_lt hbefore
    rw [put_of_lt hbefore, put, put, hsame]

@[simp] theorem slice_put : slice (put buf pos bytes) pos bytes.length = bytes := by
  apply List.ext_getElem
  · simp
  · intro i hi hb
    simp only [slice, List.getElem_map, List.getElem_range]
    exact put_getElem hb

theorem put_slice {data : Nat → β} {off len : Nat} (i : Nat) :
    put buf pos (slice data off len) i =
      if pos ≤ i ∧ i < pos + len then data (off + (i - pos)) else buf i := by
  by_cases h : pos ≤ i ∧ i < pos + len
  · rw [put, if_pos h.1, getElem?_slice (by omega), Option.getD_some, if_pos h]
  · rw [if_neg h]
    by_cases hlt : i < pos
    · exact put_of_lt hlt
    · exact put_of_ge (by rw [length_slice]; omega)

end Put

end OpenXbox.Lib.Buffer
