import OpenXbox.Ohci.Progress
import OpenXbox.Ohci.TransferBounds

/-!
# Turns of the walk

`OHCI_ServiceEDlist` reads an endpoint descriptor, services the descriptors of its queue one
after the other, and goes on to the next endpoint. A turn is one of these; each writes
descriptors to guest memory and leaves the rest of it alone. Nothing tells the walk that it
has been at an endpoint before.
-/

namespace OpenXbox.Ohci.ListWalk

open OpenXbox.Lib.Loop OpenXbox.Lib.Bits OpenXbox.Ohci.Memory OpenXbox.Ohci.Service
  OpenXbox.Ohci.Layout OpenXbox.Ohci.Progress OpenXbox.Ohci.TransferBounds

def IsGeneral (ed : EndpointDescriptor) : Prop := ed.flags &&& OHCI_ED_F = 0

def Skipped (ed : EndpointDescriptor) : Prop :=
  ed.headP &&& OHCI_ED_H ≠ 0 ∨ ed.flags &&& OHCI_ED_K ≠ 0

instance (ed : EndpointDescriptor) : Decidable (IsGeneral ed) := inferInstanceAs (Decidable (_ = _))

instance (ed : EndpointDescriptor) : Decidable (Skipped ed) := inferInstanceAs (Decidable (_ ∨ _))

/-- Where the descriptor at the head of the queue of `ed` is written back. -/
def headBlock (ed : EndpointDescriptor) : Block :=
  (ed.headP &&& OHCI_DPTR_MASK, if IsGeneral ed then 16 else 32)

/-- The walk with the descriptor at the head of the queue serviced. -/
def afterService (env : Nat → Answer) (completion : Bool) (w : Walk) : Walk :=
  { w with
    hc := (serviceHead env w completion).hc
    ed := (serviceHead env w completion).ed
    active := true }

section Turns

variable {env : Nat → Answer} {completion : Bool} {w : Walk} {current nextED : Word}

theorem walkBody_tail (hpos : w.position = .queue current nextED)
    (ht : w.ed.headP &&& OHCI_DPTR_MASK = w.ed.tailP) :
    walkBody env completion w = .next (leaveED env w current nextED) := by
  rw [walkBody, hpos]
  exact if_pos ht

theorem walkBody_stop (hpos : w.position = .queue current nextED)
    (ht : w.ed.headP &&& OHCI_DPTR_MASK ≠ w.ed.tailP)
    (hs : (serviceHead env w completion).stop = true) :
    walkBody env completion w =
      .next (leaveED env (afterService env completion w) current nextED) := by
  rw [walkBody, hpos]
  dsimp only
  rw [if_neg ht, if_pos hs]
  rfl

theorem walkBody_go (hpos : w.position = .queue current nextED)
    (ht : w.ed.headP &&& OHCI_DPTR_MASK ≠ w.ed.tailP)
    (hs : (serviceHead env w completion).stop = false) :
    walkBody env completion w = .next (afterService env completion w) := by
  rw [walkBody, hpos]
  dsimp only
  rw [if_neg ht, hs, afterService, hpos]
  rfl

theorem serviceHead_general (env : Nat → Answer) (completion : Bool) (hg : IsGeneral w.ed) :
    serviceHead env w completion = serviceTD env w.hc w.ed := if_pos hg

theorem serviceHead_iso (env : Nat → Answer) (completion : Bool) (hi : ¬ IsGeneral w.ed) :
    serviceHead env w completion = serviceIsoTD env w.hc w.ed completion := if_neg hi

theorem serviceTD_wrote (env : Nat → Answer) (hc : Controller) (ed : EndpointDescriptor) :
    Served [(ed.headP &&& OHCI_DPTR_MASK, 16)] hc (serviceTD env hc ed).hc ∧
      (serviceTD env hc ed).ed = { ed with headP := (serviceTD env hc ed).ed.headP } := by
  rw [serviceTD]
  split
  · exact ⟨.of_eq rfl rfl rfl, rfl⟩
  split
  · exact ⟨.of_eq rfl rfl rfl, rfl⟩
  · have hcalled : Served [] hc hc.called := .of_eq rfl rfl rfl
    generalize readTD hc.mem (ed.headP &&& OHCI_DPTR_MASK) (hc.answer env).stack = td
    have hserves : Serves hc ed td (ed.headP &&& OHCI_DPTR_MASK) (transferTD (hc.answer env) hc.called
        ed td (ed.headP &&& OHCI_DPTR_MASK) (decide (ed.headP &&& OHCI_DPTR_MASK = hc.asyncTD))) :=
      transferTD_serves hcalled rfl rfl _ _ fun h => (of_decide_eq_true h).symm
    exact ⟨hserves.served, hserves.kept⟩

theorem serviceIsoTD_wrote (env : Nat → Answer) (hc : Controller) (ed : EndpointDescriptor)
    (completion : Bool) :
    Served [(ed.headP &&& OHCI_DPTR_MASK, 32)] hc (serviceIsoTD env hc ed completion).hc ∧
      (serviceIsoTD env hc ed completion).ed =
        { ed with headP := (serviceIsoTD env hc ed completion).ed.headP } := by
  have hcalled : Served [] hc hc.called := .of_eq rfl rfl rfl
  rw [serviceIsoTD]
  dsimp only
  split
  · exact ⟨.of_eq rfl rfl rfl, rfl⟩
  split
  · exact ⟨.of_eq rfl rfl rfl, rfl⟩
  split
  · exact ⟨(Served.of_eq rfl rfl rfl).write rfl rfl rfl, rfl⟩
  · obtain ⟨hkept, -⟩ := frameIsoTD_kept (hc.answer env) hc.called ed
      (readIsoTD hc.mem (ed.headP &&& OHCI_DPTR_MASK) (hc.answer env).stack)
      (ed.headP &&& OHCI_DPTR_MASK) (relativeFrame hc
        (readIsoTD hc.mem (ed.headP &&& OHCI_DPTR_MASK) (hc.answer env).stack)).toNat completion
    exact ⟨(hkept.after hcalled rfl rfl).served, hkept.kept⟩

/-- A service writes its descriptor only, and of the copy only HeadP. -/
theorem serviceHead_wrote (env : Nat → Answer) (w : Walk) (completion : Bool) :
    Served [headBlock w.ed] w.hc (serviceHead env w completion).hc ∧
      (serviceHead env w completion).ed =
        { w.ed with headP := (serviceHead env w completion).ed.headP } := by
  by_cases hg : IsGeneral w.ed
  · rw [serviceHead_general env completion hg, headBlock, if_pos hg]
    exact serviceTD_wrote env w.hc w.ed
  · rw [serviceHead_iso env completion hg, headBlock, if_neg hg]
    exact serviceIsoTD_wrote env w.hc w.ed completion

end Turns

section List

variable {w v : Walk} {current : Word} {ed : EndpointDescriptor}

theorem walkBody_enter (env : Nat → Answer) (completion : Bool) (hpos : w.position = .list current)
    (h0 : current ≠ 0) :
    walkBody env completion w = .next (enterED w current) := by
  rw [walkBody, hpos]
  exact if_neg h0

theorem enterED_skipped (hread : readED w.hc.mem current w.ed = ed) (hs : Skipped ed) :
    enterED w current =
      { w with
        hc := cancelPending w.hc ed, ed := ed
        position := .list (ed.nextED &&& OHCI_DPTR_MASK) } := by
  rw [enterED, hread]
  exact if_pos hs

theorem enterED_serves (hread : readED w.hc.mem current w.ed = ed) (hs : ¬ Skipped ed) :
    enterED w current =
      { w with ed := ed, position := .queue current (ed.nextED &&& OHCI_DPTR_MASK) } := by
  rw [enterED, hread]
  exact if_neg hs

theorem cancelPending_served (bs : List Block) (hc : Controller) (ed : EndpointDescriptor) :
    Served bs hc (cancelPending hc ed) := by
  rw [cancelPending]
  split
  · exact .of_eq rfl rfl rfl
  · exact .refl bs hc

theorem leaveED_served (env : Nat → Answer) (w : Walk) (current nextED : Word) :
    Served [(current, 4)] w.hc (leaveED env w current nextED).hc :=
  (Served.refl [] w.hc).write rfl rfl rfl

end List

/-! ## Lists that go round -/

end OpenXbox.Ohci.ListWalk
