import OpenXbox.Ohci.RootHub

/-!
# Root hubs that behave alike

What the functions of the root hub leave alone, and what they do not look at: the interrupts and, but
for a reset, HcCommandStatus.
-/

namespace OpenXbox.Ohci.HubLikeness

open OpenXbox.Lib.Run OpenXbox.Lib.Flags OpenXbox.Ohci.Memory
open OpenXbox.Ohci.Frame (OHCI_INTR_UE)
open OpenXbox.Ohci.FrameTimer (OHCI_CTL_HCFS Resume Suspend)
open OpenXbox.Ohci.RootHub (Speed OHCI_STATUS_HCR)

/-! ## What the functions of the root hub leave alone -/

variable {p p' q : RootHub.OHCI} {i : Fin 4} {op : RootHub.Op}

/-- HcControl is as before, and an interrupt that is told is no unrecoverable error. -/
structure Quiet (p p' : RootHub.OHCI) : Prop where
  control : p'.hcControl = p.hcControl
  raised : Raised OHCI_INTR_UE p.hcInterruptStatus p'.hcInterruptStatus

theorem Quiet.refl (p : RootHub.OHCI) : Quiet p p := ⟨rfl, .refl _ _⟩

theorem Quiet.trans (h : Quiet p p') (h' : Quiet p' q) : Quiet p q :=
  ⟨h'.control.trans h.control, h.raised.trans h'.raised⟩

theorem changeStatus_quiet (p : RootHub.OHCI) (i : Fin 4) (status : Word) :
    Quiet p (p.changeStatus i status) := by
  unfold RootHub.OHCI.changeStatus
  split
  · exact ⟨rfl, .of_or _ (by decide)⟩
  · exact .refl p

theorem attach_quiet (h : p.attach i = some p') : Quiet p p' := by
  unfold RootHub.OHCI.attach at h
  rcases Option.bind_eq_some_iff.mp h with ⟨j, -, hj⟩
  rcases Option.map_eq_some_iff.mp hj with ⟨speed, -, rfl⟩
  refine Quiet.trans ?_ (changeStatus_quiet _ j _)
  split
  · exact ⟨rfl, .of_or _ (by decide)⟩
  · exact .refl p

theorem detach_quiet (h : p.detach i = some p') : Quiet p p' := by
  unfold RootHub.OHCI.detach at h
  rcases Option.map_eq_some_iff.mp h with ⟨j, -, rfl⟩
  exact changeStatus_quiet p j _

theorem resetPort_quiet (h : p.resetPort i = some p') : Quiet p p' := by
  unfold RootHub.OHCI.resetPort at h
  dsimp only at h
  split at h
  · rcases Option.bind_eq_some_iff.mp h with ⟨q, hdetach, hattach⟩
    have hset : Quiet p (p.setStatus i 0) := ⟨rfl, .refl _ _⟩
    exact hset.trans ((detach_quiet hdetach).trans (attach_quiet hattach))
  · cases h
    exact ⟨rfl, .refl _ _⟩

theorem resetPorts_quiet {ports : List (Fin 4)}
    (h : ports.foldlM RootHub.OHCI.resetPort p = some p') : Quiet p p' := by
  induction ports generalizing p with
  | nil =>
    cases h
    exact .refl _
  | cons i ports ih =>
    rw [List.foldlM_cons] at h
    rcases Option.bind_eq_some_iff.mp h with ⟨q, hreset, hrest⟩
    exact (resetPort_quiet hreset).trans (ih hrest)

/-- The devices that are attached again are no error. -/
theorem stateReset_quiet (h : p.stateReset = some p') :
    p'.hcControl = 0 ∧ has p'.hcInterruptStatus OHCI_INTR_UE = false := by
  have hquiet := resetPorts_quiet h
  exact ⟨hquiet.control, hquiet.raised.has_eq.trans has_zero⟩

theorem setHubStatus_quiet (p : RootHub.OHCI) (value : Word) : Quiet p (p.setHubStatus value) := by
  unfold RootHub.OHCI.setHubStatus
  dsimp only
  split_ifs <;> first | exact ⟨rfl, .refl _ _⟩ | exact ⟨rfl, .of_or _ (by decide)⟩

/-- Such an operation is not about HcControl, HcCommandStatus or a wake-up. -/
def AboutPorts : RootHub.Op → Prop
  | .attach _ _ | .detach _ | .rhStatus _ | .rhPortStatus _ _ => True
  | _ => False

theorem step_quiet (hop : AboutPorts op) (h : RootHub.step p op = some p') : Quiet p p' := by
  cases op with
  | attach i speed =>
    unfold RootHub.step at h
    dsimp only at h
    split at h
    · cases h
      exact .refl p
    · have hdev : Quiet p (p.setDev i (some speed)) := ⟨rfl, .refl _ _⟩
      exact hdev.trans (attach_quiet h)
  | detach i =>
    unfold RootHub.step at h
    dsimp only at h
    split at h
    · rcases Option.map_eq_some_iff.mp h with ⟨q, hdetach, rfl⟩
      exact (detach_quiet hdetach).trans ⟨rfl, .refl _ _⟩
    · cases h
      exact .refl p
  | rhStatus value =>
    cases h
    exact setHubStatus_quiet p value
  | rhPortStatus i value =>
    cases h
    exact changeStatus_quiet p i _
  | wakeup i => exact hop.elim
  | control value => exact hop.elim
  | commandStatus value => exact hop.elim

/-- A wake-up may take the controller out of the suspend state. -/
theorem wakeup_resumes (h : p.wakeup i = some p') :
    p'.hcControl = (if p.state = Suspend then (p.hcControl &&& ~~~OHCI_CTL_HCFS) ||| Resume
      else p.hcControl) ∧ Raised OHCI_INTR_UE p.hcInterruptStatus p'.hcInterruptStatus := by
  unfold RootHub.OHCI.wakeup at h
  rcases Option.map_eq_some_iff.mp h with ⟨j, -, rfl⟩
  have hstate : (p.setStatus j (RootHub.wakeupStatus (p.status j))).state = p.state := rfl
  dsimp only
  rw [hstate]
  split
  · exact ⟨rfl, .of_or _ (by decide)⟩
  · refine ⟨rfl, .of_or _ ?_⟩
    split
    · decide
    · decide

/-- Two root hubs that behave alike: the interrupts do not matter, nor do the bits of HcCommandStatus
that ask for no reset. -/
structure Alike (p q : RootHub.OHCI) : Prop where
  irqNum : q.irqNum = p.irqNum
  control : q.hcControl = p.hcControl
  rhStatus : q.hcRhStatus = p.hcRhStatus
  rhPort : q.rhPort = p.rhPort
  reset : has q.hcCommandStatus OHCI_STATUS_HCR = has p.hcCommandStatus OHCI_STATUS_HCR

theorem Alike.refl (p : RootHub.OHCI) : Alike p p := ⟨rfl, rfl, rfl, rfl, rfl⟩

theorem Alike.trans {r : RootHub.OHCI} (h : Alike p q) (h' : Alike q r) : Alike p r :=
  ⟨h'.irqNum.trans h.irqNum, h'.control.trans h.control, h'.rhStatus.trans h.rhStatus,
    h'.rhPort.trans h.rhPort, h'.reset.trans h.reset⟩

theorem Alike.symm (h : Alike p q) : Alike q p :=
  ⟨h.irqNum.symm, h.control.symm, h.rhStatus.symm, h.rhPort.symm, h.reset.symm⟩

theorem Alike.status (h : Alike p q) (i : Fin 4) : q.status i = p.status i := by
  rw [RootHub.OHCI.status, h.rhPort, RootHub.OHCI.status]

theorem Alike.attached (h : Alike p q) (i : Fin 4) : q.attached i = p.attached i := by
  rw [RootHub.OHCI.attached, h.rhPort, RootHub.OHCI.attached]

theorem Alike.state (h : Alike p q) : q.state = p.state := by
  rw [RootHub.OHCI.state, h.control, RootHub.OHCI.state]

theorem Alike.entry (h : Alike p q) (i : Fin 4) : q.entry i = p.entry i := by
  unfold RootHub.OHCI.entry RootHub.OHCI.portIndex
  rw [h.irqNum]

theorem Alike.setInterrupt (h : Alike p q) (v w : Word) :
    Alike (p.setInterrupt v) (q.setInterrupt w) := ⟨h.1, h.2, h.3, h.4, h.5⟩

theorem Alike.setStatus (h : Alike p q) (i : Fin 4) (status : Word) :
    Alike (p.setStatus i status) (q.setStatus i status) := by
  refine ⟨h.1, h.2, h.3, ?_, h.5⟩
  rw [RootHub.setStatus_rhPort, RootHub.setStatus_rhPort, h.rhPort]

theorem Alike.setDev (h : Alike p q) (i : Fin 4) (dev : Option Speed) :
    Alike (p.setDev i dev) (q.setDev i dev) := by
  refine ⟨h.1, h.2, h.3, ?_, h.5⟩
  rw [RootHub.setDev_rhPort, RootHub.setDev_rhPort, h.rhPort]

theorem Alike.changeStatus (h : Alike p q) (i : Fin 4) (status : Word) :
    Alike (p.changeStatus i status) (q.changeStatus i status) := by
  unfold RootHub.OHCI.changeStatus
  rw [h.status]
  split
  · exact (h.setStatus i status).setInterrupt _ _
  · exact h

theorem Alike.attach (h : Alike p q) (hp : p.attach i = some p') :
    ∃ q', q.attach i = some q' ∧ Alike p' q' := by
  unfold RootHub.OHCI.attach at hp ⊢
  rcases Option.bind_eq_some_iff.mp hp with ⟨j, hj, hdev⟩
  rcases Option.map_eq_some_iff.mp hdev with ⟨speed, hspeed, rfl⟩
  refine ⟨_, by rw [h.entry, hj, Option.bind_some, h.rhPort, hspeed, Option.map_some], ?_⟩
  dsimp only
  rw [h.state]
  split
  · have hset := h.setInterrupt RootHub.OHCI_INTR_RD RootHub.OHCI_INTR_RD
    rw [hset.status]
    exact hset.changeStatus j _
  · rw [h.status]
    exact h.changeStatus j _

theorem Alike.detach (h : Alike p q) (hp : p.detach i = some p') :
    ∃ q', q.detach i = some q' ∧ Alike p' q' := by
  unfold RootHub.OHCI.detach at hp ⊢
  rcases Option.map_eq_some_iff.mp hp with ⟨j, hj, rfl⟩
  refine ⟨_, by rw [h.entry, hj, Option.map_some], ?_⟩
  rw [h.status]
  exact h.changeStatus j _

theorem Alike.wakeup (h : Alike p q) (hp : p.wakeup i = some p') :
    ∃ q', q.wakeup i = some q' ∧ Alike p' q' := by
  unfold RootHub.OHCI.wakeup at hp ⊢
  rcases Option.map_eq_some_iff.mp hp with ⟨j, hj, rfl⟩
  refine ⟨_, by rw [h.entry, hj, Option.map_some], ?_⟩
  dsimp only
  rw [h.status]
  have hset := h.setStatus j (RootHub.wakeupStatus (p.status j))
  rw [hset.state]
  split
  · refine ⟨hset.irqNum, ?_, hset.rhStatus, hset.rhPort, hset.reset⟩
    dsimp only [RootHub.OHCI.setInterrupt]
    rw [hset.control]
  · exact hset.setInterrupt _ _

theorem Alike.resetPort (h : Alike p q) (hp : p.resetPort i = some p') :
    ∃ q', q.resetPort i = some q' ∧ Alike p' q' := by
  unfold RootHub.OHCI.resetPort at hp ⊢
  have hset := h.setStatus i 0
  dsimp only at hp ⊢
  rw [hset.attached]
  split at hp
  · next hattached =>
    rcases Option.bind_eq_some_iff.mp hp with ⟨p₁, hdetach, hattach⟩
    rcases hset.detach hdetach with ⟨q₁, hq₁, h₁⟩
    rcases h₁.attach hattach with ⟨q₂, hq₂, h₂⟩
    exact ⟨q₂, by rw [if_pos hattached, hq₁, Option.bind_some, hq₂], h₂⟩
  · next hattached =>
    cases hp
    exact ⟨_, if_neg hattached, hset⟩

theorem Alike.resetPorts {ports : List (Fin 4)} (h : Alike p q)
    (hp : ports.foldlM RootHub.OHCI.resetPort p = some p') :
    ∃ q', ports.foldlM RootHub.OHCI.resetPort q = some q' ∧ Alike p' q' := by
  induction ports generalizing p q with
  | nil =>
    cases hp
    exact ⟨q, rfl, h⟩
  | cons i ports ih =>
    rw [List.foldlM_cons] at hp
    rcases Option.bind_eq_some_iff.mp hp with ⟨p₁, hreset, hrest⟩
    rcases h.resetPort hreset with ⟨q₁, hq₁, h₁⟩
    rcases ih h₁ hrest with ⟨q', hq', h'⟩
    exact ⟨q', by rw [List.foldlM_cons, hq₁]; exact hq', h'⟩

/-- A reset forgets what differs. -/
theorem Alike.stateReset (h : Alike p q) (hp : p.stateReset = some p') :
    ∃ q', q.stateReset = some q' ∧ Alike p' q' := by
  have hzero : Alike
      { p with hcControl := 0, hcCommandStatus := 0, hcInterruptStatus := 0, hcRhStatus := 0 }
      { q with hcControl := 0, hcCommandStatus := 0, hcInterruptStatus := 0, hcRhStatus := 0 } :=
    ⟨h.irqNum, rfl, rfl, h.rhPort, rfl⟩
  exact hzero.resetPorts hp

theorem Alike.when {c : Prop} [Decidable c] {f : RootHub.OHCI → RootHub.OHCI} (h : Alike p q)
    (hf : Alike (f p) (f q)) : Alike (if c then f p else p) (if c then f q else q) := by
  split
  · exact hf
  · exact h

theorem Alike.setRhStatus (h : Alike p q) {v w : Word} (hvw : w = v) :
    Alike { p with hcRhStatus := v } { q with hcRhStatus := w } := ⟨h.1, h.2, hvw, h.4, h.5⟩

theorem Alike.powerAll (h : Alike p q) (on : Bool) : Alike (p.powerAll on) (q.powerAll on) := by
  refine ⟨h.1, h.2, h.3, funext fun i => ?_, h.5⟩
  dsimp only [RootHub.OHCI.powerAll]
  rw [h.rhPort, h.status]

/-- A change of HcRhStatus is told. -/
theorem Alike.told {q' : RootHub.OHCI} (h : Alike p q) (h' : Alike p' q') :
    Alike (if p.hcRhStatus ≠ p'.hcRhStatus then p'.setInterrupt RootHub.OHCI_INTR_RHSC else p')
      (if q.hcRhStatus ≠ q'.hcRhStatus then q'.setInterrupt RootHub.OHCI_INTR_RHSC else q') := by
  rw [h.rhStatus, h'.rhStatus]
  split
  · exact h'.setInterrupt _ _
  · exact h'

theorem Alike.setHubStatus (h : Alike p q) (value : Word) :
    Alike (p.setHubStatus value) (q.setHubStatus value) := by
  unfold RootHub.OHCI.setHubStatus
  have hocic := h.when (c := has value RootHub.OHCI_RHS_OCIC)
    (f := fun p => { p with hcRhStatus := p.hcRhStatus &&& ~~~RootHub.OHCI_RHS_OCIC })
    (h.setRhStatus (by rw [h.rhStatus]))
  have hoff := hocic.when (c := has value RootHub.OHCI_RHS_LPS) (f := fun p => p.powerAll false)
    (hocic.powerAll false)
  have hon := hoff.when (c := has value RootHub.OHCI_RHS_LPSC) (f := fun p => p.powerAll true)
    (hoff.powerAll true)
  have hset := hon.when (c := has value RootHub.OHCI_RHS_DRWE)
    (f := fun p => { p with hcRhStatus := p.hcRhStatus ||| RootHub.OHCI_RHS_DRWE })
    (hon.setRhStatus (by rw [hon.rhStatus]))
  have hclear := hset.when (c := has value RootHub.OHCI_RHS_CRWE)
    (f := fun p => { p with hcRhStatus := p.hcRhStatus &&& ~~~RootHub.OHCI_RHS_DRWE })
    (hset.setRhStatus (by rw [hset.rhStatus]))
  exact h.told hclear

theorem Alike.changeState (h : Alike p q) {value : Word} (hp : p.changeState value = some p') :
    ∃ q', q.changeState value = some q' ∧ Alike p' q' := by
  unfold RootHub.OHCI.changeState at hp ⊢
  have hset : Alike { p with hcControl := value } { q with hcControl := value } :=
    ⟨h.1, rfl, h.3, h.4, h.5⟩
  dsimp only at hp ⊢
  rw [h.state]
  split at hp
  · next hreset =>
    rcases hset.stateReset hp with ⟨q', hq', h'⟩
    exact ⟨q', (if_pos hreset).trans hq', h'⟩
  · next hno =>
    cases hp
    exact ⟨_, if_neg hno, hset⟩

theorem Alike.writeCommandStatus (h : Alike p q) {value : Word}
    (hp : p.writeCommandStatus value = some p') :
    ∃ q', q.writeCommandStatus value = some q' ∧ Alike p' q' := by
  unfold RootHub.OHCI.writeCommandStatus at hp ⊢
  have hreset : has (q.hcCommandStatus ||| value &&& ~~~RootHub.OHCI_STATUS_SOC) OHCI_STATUS_HCR =
      has (p.hcCommandStatus ||| value &&& ~~~RootHub.OHCI_STATUS_SOC) OHCI_STATUS_HCR := by
    rw [has_or, has_or, h.reset]
  have hset : Alike { p with hcCommandStatus :=
    p.hcCommandStatus ||| value &&& ~~~RootHub.OHCI_STATUS_SOC }
      { q with hcCommandStatus := q.hcCommandStatus ||| value &&& ~~~RootHub.OHCI_STATUS_SOC } :=
    ⟨h.1, h.2, h.3, h.4, hreset⟩
  dsimp only at hp ⊢
  rw [hreset]
  split at hp
  · next hr =>
    rcases hset.stateReset hp with ⟨q', hq', h'⟩
    exact ⟨q', (if_pos hr).trans hq', h'⟩
  · next hno =>
    cases hp
    exact ⟨_, if_neg hno, hset⟩

/-- What one of them does, the other does. -/
theorem Alike.step (h : Alike p q) (hp : RootHub.step p op = some p') :
    ∃ q', RootHub.step q op = some q' ∧ Alike p' q' := by
  cases op with
  | attach i speed =>
    dsimp only [RootHub.step] at hp ⊢
    rw [h.attached]
    split at hp
    · next hattached =>
      cases hp
      exact ⟨q, if_pos hattached, h⟩
    · next hfree =>
      rcases (h.setDev i (some speed)).attach hp with ⟨q', hq', h'⟩
      exact ⟨q', (if_neg hfree).trans hq', h'⟩
  | detach i =>
    dsimp only [RootHub.step] at hp ⊢
    rw [h.attached]
    split at hp
    · next hattached =>
      rcases Option.map_eq_some_iff.mp hp with ⟨p₁, hdetach, rfl⟩
      rcases h.detach hdetach with ⟨q₁, hq₁, h₁⟩
      exact ⟨_, by rw [if_pos hattached, hq₁, Option.map_some], h₁.setDev i none⟩
    · next hfree =>
      cases hp
      exact ⟨q, if_neg hfree, h⟩
  | wakeup i =>
    dsimp only [RootHub.step] at hp ⊢
    rw [h.attached]
    split at hp
    · next hattached =>
      rcases h.wakeup hp with ⟨q', hq', h'⟩
      exact ⟨q', (if_pos hattached).trans hq', h'⟩
    · next hfree =>
      cases hp
      exact ⟨q, if_neg hfree, h⟩
  | rhStatus value =>
    cases hp
    exact ⟨_, rfl, h.setHubStatus value⟩
  | rhPortStatus i value =>
    cases hp
    refine ⟨_, rfl, ?_⟩
    rw [h.status]
    exact h.changeStatus i _
  | control value => exact h.changeState hp
  | commandStatus value => exact h.writeCommandStatus hp

theorem Alike.exec {ops : List RootHub.Op} (h : Alike p q)
    (hp : exec RootHub.step p ops = some p') :
    ∃ q', exec RootHub.step q ops = some q' ∧ Alike p' q' := by
  induction ops generalizing p q with
  | nil =>
    cases hp
    exact ⟨q, rfl, h⟩
  | cons op ops ih =>
    rcases Option.bind_eq_some_iff.mp hp with ⟨p₁, hstep, hrest⟩
    rcases h.step hstep with ⟨q₁, hq₁, h₁⟩
    rcases ih h₁ hrest with ⟨q', hq', h'⟩
    exact ⟨q', Option.bind_eq_some_iff.mpr ⟨q₁, hq₁, hq'⟩, h'⟩

end OpenXbox.Ohci.HubLikeness
