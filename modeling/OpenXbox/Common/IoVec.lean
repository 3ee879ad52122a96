import OpenXbox.Lib.Buffer
import OpenXbox.Lib.Splice

/-!
# Scattered segments

`IoVecTobuffer` and `IoVecFromBuffer` copy between a buffer and a list of segments, which count as one
piece of memory from the first byte of the first one on. One loop skips the segments before the offset
and copies those after it.
-/

namespace OpenXbox.Common

open OpenXbox.Lib.Buffer OpenXbox.Lib.Splice

/-- The `Iov_Len` bytes from `Iov_Base` on. Segments and buffers are apart in memory. -/
abbrev IoVec := List (BitVec 8)

namespace IoVec

section Source

/-- The loop of `IoVecTobuffer`: the offset that is left, `done` and the buffer. -/
def toBufferLoop (bytes : Nat) :
    List IoVec → Nat → Nat → (Nat → BitVec 8) → Nat × Nat × (Nat → BitVec 8)
  | [], offset, done, buf => (offset, done, buf)
  | seg :: iov, offset, done, buf =>
    if offset ≠ 0 ∨ done < bytes then
      if offset < seg.length then
        let len := min (seg.length - offset) (bytes - done)
        toBufferLoop bytes iov 0 (done + len) (put buf done ((seg.drop offset).take len))
      else toBufferLoop bytes iov (offset - seg.length) done buf
    else (offset, done, buf)

/-- `IoVecTobuffer`: `done` and the buffer, unless the assertion fails. -/
def ioVecTobuffer (iov : List IoVec) (offset : Nat) (buf : Nat → BitVec 8) (bytes : Nat) :
    Option (Nat × (Nat → BitVec 8)) :=
  let r := toBufferLoop bytes iov offset 0 buf
  if r.1 = 0 then some r.2 else none

/-- The loop of `IoVecFromBuffer`: the offset that is left, `done` and the segments. -/
def fromBufferLoop (bytes : Nat) (buf : Nat → BitVec 8) :
    List IoVec → Nat → Nat → Nat × Nat × List IoVec
  | [], offset, done => (offset, done, [])
  | seg :: iov, offset, done =>
    if offset ≠ 0 ∨ done < bytes then
      if offset < seg.length then
        let len := min (seg.length - offset) (bytes - done)
        let r := fromBufferLoop bytes buf iov 0 (done + len)
        (r.1, r.2.1, splice seg offset (slice buf done len) :: r.2.2)
      else
        let r := fromBufferLoop bytes buf iov (offset - seg.length) done
        (r.1, r.2.1, seg :: r.2.2)
    else (offset, done, seg :: iov)

/-- `IoVecFromBuffer`: `done` and the segments, unless the assertion fails. -/
def ioVecFromBuffer (iov : List IoVec) (offset : Nat) (buf : Nat → BitVec 8) (bytes : Nat) :
    Option (Nat × List IoVec) :=
  let r := fromBufferLoop bytes buf iov offset 0
  if r.1 = 0 then some r.2 else none

end Source

/-- The total length of the segments. -/
def total (iov : List IoVec) : Nat := iov.flatten.length

section Loops

variable (bytes : Nat) (buf : Nat → BitVec 8)

@[simp] theorem total_nil : total [] = 0 := rfl

@[simp] theorem total_cons (seg : IoVec) (iov : List IoVec) :
    total (seg :: iov) = seg.length + total iov := by
  rw [total, List.flatten_cons, List.length_append, total]

/-- From any turn on the loop copies what is left of the segments after the offset. -/
theorem toBufferLoop_eq (iov : List IoVec) (offset done : Nat) :
    toBufferLoop bytes iov offset done buf =
      (offset - total iov, done + min (bytes - done) (total iov - offset),
        put buf done ((iov.flatten.drop offset).take (bytes - done))) := by
  induction iov generalizing offset done buf with
  | nil => simp [toBufferLoop]
  | cons seg iov ih =>
    rw [toBufferLoop, total_cons, List.flatten_cons]
    by_cases hmore : offset ≠ 0 ∨ done < bytes
    · rw [if_pos hmore]
      by_cases hin : offset < seg.length
      · have hlength : (seg.drop offset).length = seg.length - offset := List.length_drop
        have hcopied : (seg.drop offset).take (min (seg.length - offset) (bytes - done)) =
            (seg.drop offset).take (bytes - done) := by
          rw [Nat.min_comm, ← hlength, ← List.take_eq_take_min]
        have hplace : ((seg.drop offset).take (bytes - done)).length =
            min (seg.length - offset) (bytes - done) := by rw [List.length_take, hlength, Nat.min_comm]
        have hrest : bytes - (done + min (seg.length - offset) (bytes - done)) =
            bytes - done - (seg.length - offset) := by omega
        rw [if_pos hin, List.drop_append_of_le_length (Nat.le_of_lt hin), List.take_append, hlength]
        dsimp only
        rw [ih, hcopied, List.drop_zero, put_put (by rw [hplace]), hrest]
        refine Prod.ext ?_ (Prod.ext ?_ rfl)
        · show 0 - total iov = offset - (seg.length + total iov)
          omega
        · show done + min (seg.length - offset) (bytes - done) + min _ (total iov - 0) =
            done + min (bytes - done) (seg.length + total iov - offset)
          omega
      · have hpast : seg.length ≤ offset := Nat.le_of_not_lt hin
        rw [if_neg hin, ih, List.drop_append, List.drop_eq_nil_of_le hpast, List.nil_append]
        refine Prod.ext ?_ (Prod.ext ?_ rfl)
        · show offset - seg.length - total iov = offset - (seg.length + total iov)
          omega
        · show done + min _ (total iov - (offset - seg.length)) = done + min _ (seg.length + total iov - offset)
          omega
    · have hoff : offset = 0 := by omega
      have hdone : bytes - done = 0 := by omega
      rw [if_neg hmore, hoff, hdone]
      simp

/-- The other way the same places are written, and no others. -/
theorem fromBufferLoop_spec (iov : List IoVec) (offset done : Nat) :
    let r := fromBufferLoop bytes buf iov offset done
    let len := min (bytes - done) (total iov - offset)
    r.1 = offset - total iov ∧ r.2.1 = done + len ∧
      r.2.2.map List.length = iov.map List.length ∧
      r.2.2.flatten = splice iov.flatten offset (slice buf done len) := by
  induction iov generalizing offset done with
  | nil => simp [fromBufferLoop]
  | cons seg iov ih =>
    dsimp only at ih ⊢
    rw [fromBufferLoop, total_cons, List.flatten_cons]
    by_cases hmore : offset ≠ 0 ∨ done < bytes
    · rw [if_pos hmore]
      by_cases hin : offset < seg.length
      · generalize hlen : min (seg.length - offset) (bytes - done) = len
        obtain ⟨hoffset, hdone, hlengths, hflatten⟩ := ih 0 (done + len)
        generalize hlater : min (bytes - (done + len)) (total iov - 0) = more at hdone hflatten
        have hboth : min (bytes - done) (seg.length + total iov - offset) = len + more := by omega
        have hwritten : (slice buf done len).length = len := length_slice
        rw [if_pos hin, hboth]
        dsimp only
        refine ⟨by omega, by omega, ?_, ?_⟩
        · rw [List.map_cons, List.map_cons, hlengths, length_splice (by rw [hwritten]; omega)]
        · rw [List.flatten_cons, hflatten, slice_add, splice_append (by rw [hwritten]; omega)]
          intro hne
          have hpos : more ≠ 0 := fun h => hne (by rw [h, slice_zero])
          rw [hwritten]
          omega
      · obtain ⟨hoffset, hdone, hlengths, hflatten⟩ := ih (offset - seg.length) done
        have hpast : seg.length ≤ offset := Nat.le_of_not_lt hin
        have hleft : total iov - (offset - seg.length) = seg.length + total iov - offset := by omega
        rw [hleft] at hdone hflatten
        rw [if_neg hin]
        dsimp only
        refine ⟨by omega, hdone, ?_, ?_⟩
        · rw [List.map_cons, List.map_cons, hlengths]
        · rw [List.flatten_cons, hflatten, splice_append_right hpast]
    · have hoff : offset = 0 := by omega
      have hnone : bytes - done = 0 := by omega
      rw [if_neg hmore, hnone, Nat.zero_min, slice_zero, splice_nil]
      exact ⟨by omega, rfl, rfl, rfl⟩

end Loops

section Copies

variable {iov : List IoVec} {offset : Nat}

theorem ioVecTobuffer_eq (h : offset ≤ total iov) (buf : Nat → BitVec 8) (bytes : Nat) :
    ioVecTobuffer iov offset buf bytes =
      some (min bytes (total iov - offset), put buf 0 ((iov.flatten.drop offset).take bytes)) := by
  rw [ioVecTobuffer, toBufferLoop_eq]
  dsimp only
  rw [if_pos (by omega), Nat.zero_add, Nat.sub_zero]

/-- The assertion is that the offset is one of the segments, or their end. -/
theorem ioVecTobuffer_isSome_iff (iov : List IoVec) (offset : Nat) (buf : Nat → BitVec 8) (bytes : Nat) :
    (ioVecTobuffer iov offset buf bytes).isSome ↔ offset ≤ total iov := by
  constructor
  · intro h
    rw [ioVecTobuffer, toBufferLoop_eq] at h
    dsimp only at h
    split at h
    · omega
    · cases h
  · intro h
    rw [ioVecTobuffer_eq h]
    rfl

theorem ioVecFromBuffer_eq (h : offset ≤ total iov) (buf : Nat → BitVec 8) (bytes : Nat) :
    ∃ written, ioVecFromBuffer iov offset buf bytes = some (min bytes (total iov - offset), written) ∧
      written.map List.length = iov.map List.length ∧
      written.flatten = splice iov.flatten offset (slice buf 0 (min bytes (total iov - offset))) := by
  obtain ⟨hoffset, hdone, hlengths, hflatten⟩ := fromBufferLoop_spec bytes buf iov offset 0
  rw [Nat.sub_zero] at hdone hflatten
  rw [Nat.zero_add] at hdone
  refine ⟨(fromBufferLoop bytes buf iov offset 0).2.2, ?_, hlengths, hflatten⟩
  rw [ioVecFromBuffer, if_pos (by omega), ← hdone]

/-- Both copy as many bytes as are asked for and there are behind the offset: the one to the buffer, the
other to these places of the segments and to no others, where the first one finds them again. -/
theorem copies_segments (iov : List IoVec) (offset bytes : Nat) (buf : Nat → BitVec 8)
    (h : offset ≤ total iov) :
    let done := min bytes (total iov - offset)
    ioVecTobuffer iov offset buf bytes =
        some (done, put buf 0 ((iov.flatten.drop offset).take done)) ∧
      ∃ written, ioVecFromBuffer iov offset buf bytes = some (done, written) ∧
        written.map List.length = iov.map List.length ∧
        written.flatten = splice iov.flatten offset (slice buf 0 done) ∧
        ∀ dest, ioVecTobuffer written offset dest bytes = some (done, put dest 0 (slice buf 0 done)) := by
  intro done
  have htake {xs : List (BitVec 8)} (hlength : xs.length = total iov - offset) :
      xs.take bytes = xs.take done := by rw [List.take_eq_take_min, hlength]
  have hfits : offset + (slice buf 0 done).length ≤ iov.flatten.length := by
    have hdone : done ≤ total iov - offset := Nat.min_le_right _ _
    rw [length_slice, ← total]
    omega
  obtain ⟨written, hwritten, hlengths, hflatten⟩ := ioVecFromBuffer_eq h buf bytes
  have htotal : total written = total iov := by rw [total, hflatten, length_splice hfits, total]
  refine ⟨?_, written, hwritten, hlengths, hflatten, fun dest => ?_⟩
  · rw [ioVecTobuffer_eq h, htake List.length_drop]
  · have hlength : (written.flatten.drop offset).length = total iov - offset := by
      rw [List.length_drop, ← total, htotal]
    rw [ioVecTobuffer_eq (htotal ▸ h), htotal, htake hlength, hflatten, drop_splice h,
      List.take_left' length_slice]

/-- Two bytes at offset 3 of three segments, one of them empty: one goes to the end of the first, the
other to the start of the last. -/
theorem copies_segments_three :
    let iov : List IoVec := [[1, 2, 3, 4], [], [5, 6]]
    ∃ written, ioVecFromBuffer iov 3 (fun i => BitVec.ofNat 8 (7 + i)) 2 = some (2, written) ∧
      written.map List.length = [4, 0, 2] ∧ written.flatten = [1, 2, 3, 7, 8, 6] := by
  obtain ⟨-, written, hwritten, hlengths, hflatten, -⟩ := copies_segments [[1, 2, 3, 4], [], [5, 6]] 3 2
    (fun i => BitVec.ofNat 8 (7 + i)) (by decide)
  exact ⟨written, hwritten, hlengths, hflatten⟩

end Copies

end IoVec

end OpenXbox.Common
