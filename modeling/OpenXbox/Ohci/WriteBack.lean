import OpenXbox.Ohci.ListWalk

/-!
# Write-back of an endpoint descriptor

A descriptor is read once, serviced on a copy of it, and written back when its inner loop has come
to the end. HeadP is what the controller may write; the bytes that are written are others, at
another place.
-/

namespace OpenXbox.Ohci.WriteBack

open OpenXbox.Lib.Loop OpenXbox.Lib.Bits OpenXbox.Ohci.Memory OpenXbox.Ohci.Service
  OpenXbox.Ohci.Layout OpenXbox.Ohci.Progress OpenXbox.Ohci.ListWalk
open OpenXbox.Cpu.VirtualCopy (offset)

/-- The inner loop, from one state of the walk to the one it ends in; with the blocks of the transfer
descriptors that have been serviced. -/
inductive ServesQueue (env : Nat → Answer) (completion : Bool) : Walk → List Block → Walk → Prop where
  | tail {w : Walk} (ht : w.ed.headP &&& OHCI_DPTR_MASK = w.ed.tailP) :
      ServesQueue env completion w [] w
  | stops {w : Walk} (ht : w.ed.headP &&& OHCI_DPTR_MASK ≠ w.ed.tailP)
      (hs : (serviceHead env w completion).stop = true) :
      ServesQueue env completion w [headBlock w.ed] (afterService env completion w)
  | goes {w w' : Walk} {bs : List Block} (ht : w.ed.headP &&& OHCI_DPTR_MASK ≠ w.ed.tailP)
      (hs : (serviceHead env w completion).stop = false)
      (rest : ServesQueue env completion (afterService env completion w) bs w') :
      ServesQueue env completion w (headBlock w.ed :: bs) w'

/-- The walk `v` gets to the descriptor at `current`, and `w` is where its inner loop has ended. -/
structure ServesED (env : Nat → Answer) (completion : Bool) (v : Walk) (current nextED : Word)
    (tds : List Block) (w : Walk) : Prop where
  entered : (enterED v current).position = .queue current nextED
  served : ServesQueue env completion (enterED v current) tds w

/-- The memory after the write-back, told from the memory as the descriptor was read and from that
before the write-back: the transfer descriptors have been written, and HeadP has been stored. -/
structure WrittenBack (tds : List Block) (current headP : Word) (read before after : GuestMemory) :
    Prop where
  tds : Writes tds read before
  headP : after = vmemWrite before (current + 8) 4 (leBytes [headP])

/-- The memory before the write-back has the HeadP of the copy already, and the word behind the copy
is the first one of the descriptor, each as far as it is mapped. -/
structure Agrees (current headP behind : Word) (before : GuestMemory) : Prop where
  headP : ∀ i, i < 4 → mapped before (current + 8) (i + 1) = true →
    byteAt before (current + 8 + BitVec.ofNat 32 i) = leBytes [headP] i
  flags : ∀ i, i < 4 → mapped before current (i + 1) = true →
    byteAt before (current + BitVec.ofNat 32 i) = leBytes [behind] i

/-! ## The inner loop -/

section Queue

variable {env : Nat → Answer} {completion : Bool} {v w : Walk} {current nextED : Word}
  {tds : List Block}

theorem ServesQueue.served (h : ServesQueue env completion v tds w) : Served tds v.hc w.hc := by
  induction h with
  | tail ht => exact .refl [] _
  | stops ht hs => exact (serviceHead_wrote env _ completion).1
  | goes ht hs rest ih => exact (serviceHead_wrote env _ completion).1.trans ih

/-- Only HeadP of the copy changes. -/
theorem ServesQueue.copy (h : ServesQueue env completion v tds w) :
    w.ed = { v.ed with headP := w.ed.headP } := by
  induction h with
  | tail ht => rfl
  | stops ht hs => exact (serviceHead_wrote env _ completion).2
  | goes ht hs rest ih =>
    rw [afterService, (serviceHead_wrote env _ completion).2] at ih
    exact ih

/-- The inner loop and the write-back are turns of the walk. -/
theorem ServesQueue.steps (h : ServesQueue env completion v tds w)
    (hpos : v.position = .queue current nextED) :
    Steps (walkBody env completion) v (leaveED env w current nextED) := by
  induction h with
  | tail ht => exact .one (walkBody_tail hpos ht)
  | stops ht hs => exact .one (walkBody_stop hpos ht hs)
  | goes ht hs rest ih => exact (Steps.one (walkBody_go hpos ht hs)).trans (ih hpos)

theorem enterED_mem (v : Walk) (current : Word) : (enterED v current).hc.mem = v.hc.mem := by
  rw [enterED, cancelPending]
  split
  · dsimp only
    split
    · rfl
    · rfl
  · rfl

theorem ServesED.writes (h : ServesED env completion v current nextED tds w) :
    Writes tds v.hc.mem w.hc.mem := by
  rw [← enterED_mem v current]
  exact h.served.served.mem

/-- The turns of the walk from the list loop, over the descriptor at `current`, to the list loop. -/
theorem ServesED.steps (h : ServesED env completion v current nextED tds w)
    (hpos : v.position = .list current) (h0 : current ≠ 0) :
    Steps (walkBody env completion) v (leaveED env w current nextED) :=
  (Steps.one (walkBody_enter env completion hpos h0)).trans (h.served.steps h.entered)

end Queue

/-! ## The write-back -/

section WriteBack

variable {mem : GuestMemory} {current headP behind : Word}

/-- The bytes of HeadP are at other offsets than those of the first word. -/
theorem offset_ne (current : Word) {i j : Nat} (hi : i < 4) (hj : j < 4) :
    offset (current + BitVec.ofNat 32 i) ≠ offset (current + 8 + BitVec.ofNat 32 j) := by
  rw [offset_add_mod, offset_add_mod, BitVec.toNat_add, show (8 : Word).toNat = 8 from rfl]
  omega

/-- The bytes that are written are not those of HeadP. -/
theorem writeED_headP {x j : Nat} (hj : j < 4)
    (hx : place mem (current + 8 + BitVec.ofNat 32 j) = some x) :
    (writeED mem current behind).host x = mem.host x := by
  by_contra hne
  obtain ⟨i, hi, hoff⟩ := vmemWrite_mod (by decide) hne
  exact offset_ne current hi hj (hoff.symm.trans (place_mod hx))

/-- Stores of the first word and of HeadP come to the same only when both change nothing. -/
theorem writeED_eq_iff :
    writeED mem current behind = vmemWrite mem (current + 8) 4 (leBytes [headP]) ↔
      vmemWrite mem (current + 8) 4 (leBytes [headP]) = mem ∧ writeED mem current behind = mem := by
  constructor
  · intro h
    have hfirst : writeED mem current behind = mem := by
      refine vmemWrite_eq_of_host (funext fun x => ?_)
      by_contra hne
      obtain ⟨i, hi, hoff⟩ := vmemWrite_mod (by decide) hne
      have hne' : (vmemWrite mem (current + 8) 4 (leBytes [headP])).host x ≠ mem.host x := h ▸ hne
      obtain ⟨j, hj, hoff'⟩ := vmemWrite_mod (by decide) hne'
      exact offset_ne current hi hj (hoff.symm.trans hoff')
    exact ⟨h.symm.trans hfirst, hfirst⟩
  · rintro ⟨hhead, hflags⟩
    rw [hhead, hflags]

theorem writtenBack_iff_agrees {tds : List Block} {read : GuestMemory} (htds : Writes tds read mem) :
    WrittenBack tds current headP read mem (writeED mem current behind) ↔
      Agrees current headP behind mem := by
  have hhead : vmemWrite mem (current + 8) 4 (leBytes [headP]) = mem ↔ _ :=
    vmemWrite_eq_self_iff (by decide)
  have hflags : writeED mem current behind = mem ↔ _ := vmemWrite_eq_self_iff (by decide)
  constructor
  · intro h
    obtain ⟨hnone, hkept⟩ := writeED_eq_iff.mp h.headP
    exact ⟨hhead.mp hnone, hflags.mp hkept⟩
  · intro h
    exact ⟨htds, writeED_eq_iff.mpr ⟨hhead.mpr h.headP, hflags.mpr h.flags⟩⟩

end WriteBack

section Descriptors

variable {env : Nat → Answer} {completion : Bool} {v w : Walk} {current nextED : Word}
  {tds : List Block}

/-- The write-back does what it should exactly when there is nothing to write: HeadP in memory is
that of the copy already, and the four bytes from behind the copy are those that they replace. -/
theorem written_back_iff (h : ServesED env completion v current nextED tds w) :
    WrittenBack tds current w.ed.headP v.hc.mem w.hc.mem (leaveED env w current nextED).hc.mem ↔
      Agrees current w.ed.headP (w.hc.answer env).behind w.hc.mem :=
  writtenBack_iff_agrees h.writes

/-- A walk that has got to the descriptor at 0x100, over memory with these words there. -/
def walkOver (words : List Word) : Walk := ⟨controllerOver words, ⟨0, 0, 0, 0⟩, false, .list 0x100⟩

/-- An endpoint with one descriptor for eight bytes from the device. -/
def busyWords : List Word := [0x80000, 0x120, 0x110, 0, 0x100000, 0x1000, 0x120, 0x1007]

/-- A device that has nothing to send; the flags of the endpoint lie behind the copy as well. -/
def noData : Nat → Answer := fun _ => ⟨fun _ => 0, ⟨USB_RET_NAK, 0⟩, fun _ => 0, 0x80000⟩

/-- The descriptor stays at the head of the queue. -/
theorem waiting_endpoint_written_back :
    ∃ w, ServesED noData false (walkOver busyWords) 0x100 0 [(0x110, 16)] w ∧
      WrittenBack [(0x110, 16)] 0x100 w.ed.headP (walkOver busyWords).hc.mem w.hc.mem
        (leaveED noData w 0x100 0).hc.mem := by
  have hserves : ServesED noData false (walkOver busyWords) 0x100 0 [(0x110, 16)]
      (afterService noData false (enterED (walkOver busyWords) 0x100)) :=
    ⟨rfl, .stops (by decide) (by decide)⟩
  refine ⟨_, hserves, (written_back_iff hserves).mpr ⟨?_, ?_⟩⟩
  · decide
  · decide

/-- The descriptor is retired, and HeadP in memory points to it as before. -/
theorem retired_head_not_written_back :
    ∃ w, ServesED eightBytes false (walkOver busyWords) 0x100 0 [(0x110, 16)] w ∧
      ¬ WrittenBack [(0x110, 16)] 0x100 w.ed.headP (walkOver busyWords).hc.mem w.hc.mem
        (leaveED eightBytes w 0x100 0).hc.mem := by
  have hrest : ServesQueue eightBytes false
      (afterService eightBytes false (enterED (walkOver busyWords) 0x100)) []
      (afterService eightBytes false (enterED (walkOver busyWords) 0x100)) := .tail (by decide)
  have hserves : ServesED eightBytes false (walkOver busyWords) 0x100 0 [(0x110, 16)]
      (afterService eightBytes false (enterED (walkOver busyWords) 0x100)) :=
    ⟨rfl, .goes (by decide) (by decide) hrest⟩
  refine ⟨_, hserves, fun h => ?_⟩
  have hbyte := (writtenBack_iff_agrees hserves.writes).mp h |>.headP 0 (by decide) (by decide)
  revert hbyte
  decide

/-- HeadP in memory stays as the services of the queue have left it, whatever has been retired. -/
theorem headP_stale (env : Nat → Answer) (w : Walk) (current nextED : Word) {x j : Nat} (hj : j < 4)
    (hx : place w.hc.mem (current + 8 + BitVec.ofNat 32 j) = some x) :
    (leaveED env w current nextED).hc.mem.host x = w.hc.mem.host x :=
  writeED_headP hj hx

end Descriptors

end OpenXbox.Ohci.WriteBack
