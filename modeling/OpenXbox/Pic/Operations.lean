import OpenXbox.Pic.Termination

/-!
# What an operation does

Every operation changes the registers of one controller and logs what it has done. Then
it calls `UpdateIRQ` of that controller, unless the change is one of settings only.
-/

namespace OpenXbox.Pic.Operations

open OpenXbox.Pic.Device OpenXbox.Pic.Acknowledge OpenXbox.Pic.Cascade OpenXbox.Pic.Termination

def recorded (s : State) (es : List Event) : State := { s with events := s.events ++ es }

/-- The line and level that `HandleIRQ` presents. -/
def presented : Op → Option (Chip × Line × Bool)
  | .handleIRQ irqNum level =>
    if irqNum.val ≤ 7 then some (.master, lineOf irqNum 0, level)
    else some (.slave, lineOf (irqNum - 8) 0, level)
  | .ioRead _ | .ioWrite _ _ => none

/-- `PORT_PIC_MASTER_COMMAND` and `PORT_PIC_SLAVE_COMMAND`. -/
def commandPort : Chip → Word
  | .master => 0x20
  | .slave => 0xA0

/-- The operation writes an OCW3 with this value. -/
def Ocw3 (chip : Chip) (op : Op) (value : Word) : Prop :=
  op = .ioWrite (commandPort chip) value ∧ value &&& 0x10 = 0 ∧ value &&& 0x08 ≠ 0

/-- The operation writes an ICW1. -/
def Icw1 (chip : Chip) (op : Op) : Prop :=
  ∃ value, op = .ioWrite (commandPort chip) value ∧ value &&& 0x10 ≠ 0

/-- Requests, masks and lines in service are the same. -/
structure SameLines (c c' : Controller) : Prop where
  previousIRR : c'.previousIRR = c.previousIRR
  irr : c'.irr = c.irr
  imr : c'.imr = c.imr
  isr : c'.isr = c.isr
  priorityAdd : c'.priorityAdd = c.priorityAdd
  interruptOutput : c'.interruptOutput = c.interruptOutput

/-- A change that `UpdateIRQ` is called after: the registers and the events. -/
inductive Cause (s : State) (op : Op) (chip : Chip) : Controller → List Event → Prop
  | request (irq : Line) (level : Bool) (h : presented op = some (chip, irq, level)) :
    Cause s op chip ((s.get chip).latch irq level) []
  | poll (irq : Line) (hop : presented op = none) (h : s.getIRQ chip = some irq) :
    Cause s op chip (({ s.get chip with poll := false } : Controller).acknowledge irq)
      [.polled chip irq, .acknowledge chip irq]
  | initialise (hop : presented op = none) (h : Icw1 chip op) :
    Cause s op chip (.cleared (s.get chip).elcr) [.reset chip]
  | mask (hop : presented op = none) (imr : Byte) : Cause s op chip { s.get chip with imr := imr } []
  | ended (hop : presented op = none) (irq add : Line) :
    Cause s op chip
      { s.get chip with isr := (s.get chip).isr &&& ~~~bit irq, priorityAdd := add } [.ended chip irq]
  | rotate (hop : presented op = none) (add : Line) :
    Cause s op chip { s.get chip with priorityAdd := add } []

/-- What is done after `UpdateIRQ`: the next word of the initialisation is expected. -/
def Finishes (chip : Chip) (u t : State) : Prop :=
  ∃ initState is4ByteInit,
    t = u.set chip { u.get chip with initState := initState, is4ByteInit := is4ByteInit }

/-- An operation changes settings, or it calls `UpdateIRQ`. -/
inductive Performs {α : Type} (s : State) (op : Op) : Access α → Prop
  | settings (result : α) (chip : Chip) {c : Controller} (hop : presented op = none)
      (hlines : SameLines (s.get chip) c)
      (hmask : c.specialMask = (s.get chip).specialMask ∨
        ∃ value, Ocw3 chip op value ∧ c = (s.get chip).ocw3 value) :
    Performs s op (.done result (s.set chip c))
  | update (chip : Chip) {c : Controller} {es : List Event} (after : State → α × State)
      (hcause : Cause s op chip c es) (hafter : ∀ u, Finishes chip u (after u).2) :
    Performs s op (.update (recorded (s.set chip c) es) chip after)

theorem set_get_self (s : State) (chip : Chip) : s.set chip (s.get chip) = s := by
  cases chip <;> rfl

theorem record_nil (s : State) : recorded s [] = s := by
  rw [recorded, List.append_nil]

theorem set_events (s : State) (chip : Chip) (c : Controller) : (s.set chip c).events = s.events := by
  cases chip <;> rfl

theorem SameLines.refl (c : Controller) : SameLines c c := ⟨rfl, rfl, rfl, rfl, rfl, rfl⟩

theorem Finishes.refl (chip : Chip) (u : State) : Finishes chip u u :=
  ⟨(u.get chip).initState, (u.get chip).is4ByteInit, (set_get_self u chip).symm⟩

theorem Finishes.events {chip : Chip} {u t : State} (h : Finishes chip u t) : t.events = u.events := by
  obtain ⟨_, _, rfl⟩ := h
  exact set_events u chip _

theorem Finishes.lines {chip : Chip} {u t : State} (h : Finishes chip u t) (other : Chip) :
    SameLines (u.get other) (t.get other) := by
  obtain ⟨_, _, rfl⟩ := h
  rw [get_set]
  split
  · next heq =>
    rw [heq]
    exact ⟨rfl, rfl, rfl, rfl, rfl, rfl⟩
  · exact .refl _

/-- The trigger modes are only changed by settings. -/
theorem Cause.elcr {s : State} {op : Op} {chip : Chip} {c : Controller} {es : List Event}
    (h : Cause s op chip c es) : c.elcr = (s.get chip).elcr := by
  cases h with
  | request irq level => exact (latch_holding _ irq level .master).2.2.1
  | poll irq => rw [acknowledge_eq]
  | initialise => rfl
  | mask => rfl
  | ended => rfl
  | rotate => rfl

theorem Cause.edge {s : State} {op : Op} {chip : Chip} {c : Controller} {es : List Event}
    (h : Cause s op chip c es) (hedge : CascadeEdge s) : CascadeEdge (recorded (s.set chip c) es) :=
  hedge.set h.elcr

section Performs

variable {s : State} {op : Op}

/-- A result on top of an access. -/
theorem Performs.result {α β : Type} {a : Access α} (h : Performs s op a) {f : α → β} :
    Performs s op (a.andThen fun r t => (f r, t)) := by
  cases h with
  | settings result chip hop hlines hmask => exact .settings (f result) chip hop hlines hmask
  | update chip after hcause hafter => exact .update chip _ hcause hafter

theorem performs_unchanged {α : Type} (hop : presented op = none) (result : α) :
    Performs s op (.done result s) := by
  have hself := Performs.settings result .master hop (SameLines.refl (s.get .master)) (.inl rfl)
  rwa [set_get_self] at hself

/-- A change without events. -/
theorem performs_silent {chip : Chip} {c : Controller} (h : Cause s op chip c []) :
    Performs s op (.update (s.set chip c) chip fun t => ((), t)) := by
  have hupdate := Performs.update chip (fun t => ((), t)) h fun u => Finishes.refl chip u
  rwa [record_nil] at hupdate

theorem poll_performs (hop : presented op = none) (chip : Chip) : Performs s op (poll s chip) := by
  rw [poll]
  dsimp only
  split
  · next irq hirq =>
    have hsome : s.getIRQ chip = some irq := by cases chip <;> exact hirq
    have hupdate := Performs.update chip (fun t => (BitVec.ofNat 8 irq ||| 0x80, t))
      (Cause.poll irq hop hsome) fun u => Finishes.refl chip u
    have hstate : recorded (s.set chip (({ s.get chip with poll := false } : Controller).acknowledge irq))
        [.polled chip irq, .acknowledge chip irq] =
        acknowledged ((s.set chip { s.get chip with poll := false }).log (.polled chip irq)) chip irq := by
      cases chip <;>
        exact congrArg (State.mk _ _) (List.append_assoc s.events [_] [_]).symm
    rw [hstate] at hupdate
    exact hupdate
  · exact .settings 0 chip hop ⟨rfl, rfl, rfl, rfl, rfl, rfl⟩ (.inl rfl)

theorem commandRead_performs (hop : presented op = none) (chip : Chip) :
    Performs s op (commandRead s chip) := by
  rw [commandRead]
  split
  · exact poll_performs hop chip
  · exact performs_unchanged hop _

theorem dataRead_performs (hop : presented op = none) (chip : Chip) :
    Performs s op (dataRead s chip) := by
  rw [dataRead]
  split
  · exact poll_performs hop chip
  · exact performs_unchanged hop _

theorem ended_performs (hop : presented op = none) (chip : Chip) (irq add : Line) :
    Performs s op (.update ((s.endService chip irq).rotate chip add) chip fun t => ((), t)) := by
  have hupdate := Performs.update chip (fun t => ((), t)) (Cause.ended (s := s) hop irq add)
    fun u => Finishes.refl chip u
  cases chip <;> exact hupdate

theorem endService_performs (hop : presented op = none) (chip : Chip) (irq : Line) :
    Performs s op (.update (s.endService chip irq) chip fun t => ((), t)) := by
  have hupdate := ended_performs (s := s) hop chip irq (s.get chip).priorityAdd
  cases chip <;> exact hupdate

theorem ocw2_performs (hop : presented op = none) (chip : Chip) (value : Word) (command : Nat) :
    Performs s op (ocw2 s chip value command) := by
  rw [ocw2.eq_def]
  split
  · exact .settings () chip hop ⟨rfl, rfl, rfl, rfl, rfl, rfl⟩ (.inl rfl)
  · exact .settings () chip hop ⟨rfl, rfl, rfl, rfl, rfl, rfl⟩ (.inl rfl)
  · dsimp only
    split
    · exact performs_unchanged hop _
    · exact endService_performs hop chip _
  · dsimp only
    split
    · exact performs_unchanged hop _
    · exact ended_performs hop chip _ _
  · exact endService_performs hop chip _
  · exact performs_silent (.rotate hop _)
  · exact ended_performs hop chip _ _
  · exact performs_unchanged hop _

theorem commandWrite_performs (chip : Chip) (value : Word) :
    Performs s (.ioWrite (commandPort chip) value) (commandWrite s chip value) := by
  rw [commandWrite]
  split
  · next hinit => exact .update chip _ (.initialise rfl ⟨value, rfl, hinit⟩) fun _ => ⟨_, _, rfl⟩
  split
  · next hinit hocw3 =>
    exact .settings () chip rfl ⟨rfl, rfl, rfl, rfl, rfl, rfl⟩
      (.inr ⟨value, ⟨rfl, not_not.mp hinit, hocw3⟩, rfl⟩)
  · exact ocw2_performs rfl chip value _

theorem dataWrite_performs (hop : presented op = none) (chip : Chip) (value : Word) :
    Performs s op (dataWrite s chip value) := by
  rw [dataWrite]
  split
  · exact performs_silent (.mask hop _)
  · exact .settings () chip hop ⟨rfl, rfl, rfl, rfl, rfl, rfl⟩ (.inl rfl)
  · exact .settings () chip hop ⟨rfl, rfl, rfl, rfl, rfl, rfl⟩ (.inl rfl)
  · exact .settings () chip hop ⟨rfl, rfl, rfl, rfl, rfl, rfl⟩ (.inl rfl)

theorem elcrWrite_performs (hop : presented op = none) (chip : Chip) (value : Word) :
    Performs s op (.done () (elcrWrite s chip value)) :=
  .settings () chip hop ⟨rfl, rfl, rfl, rfl, rfl, rfl⟩ (.inl rfl)

theorem handleIRQ_performs (irqNum : Fin 16) (level : Bool) :
    Performs s (.handleIRQ irqNum level) (handleIRQ s irqNum level) := by
  rw [handleIRQ]
  split
  · next hle => exact performs_silent (.request _ level (if_pos hle))
  · next hgt => exact performs_silent (.request _ level (if_neg hgt))

theorem access_performs (op : Op) : Performs s op (access s op) := by
  cases op with
  | handleIRQ irqNum level => exact (handleIRQ_performs irqNum level).result
  | ioRead port =>
    rw [access, ioRead]
    split
    · exact (commandRead_performs rfl .master).result
    split
    · exact (commandRead_performs rfl .slave).result
    split
    · exact (dataRead_performs rfl .master).result
    split
    · exact (dataRead_performs rfl .slave).result
    split
    · exact performs_unchanged rfl _
    split
    · exact performs_unchanged rfl _
    · exact performs_unchanged rfl _
  | ioWrite port value =>
    refine Performs.result ?_
    rw [ioWrite]
    split
    · next hport => exact hport ▸ commandWrite_performs .master value
    split
    · next hport => exact hport ▸ commandWrite_performs .slave value
    split
    · exact dataWrite_performs rfl .master value
    split
    · exact dataWrite_performs rfl .slave value
    split
    · exact elcrWrite_performs rfl .master value
    split
    · exact elcrWrite_performs rfl .slave value
    · exact performs_unchanged rfl _

end Performs

/-- What an operation that returns has done. -/
inductive Effect (s : State) (op : Op) : State → Prop
  | settings (chip : Chip) {c : Controller} (hop : presented op = none)
      (hlines : SameLines (s.get chip) c)
      (hmask : c.specialMask = (s.get chip).specialMask ∨
        ∃ value, Ocw3 chip op value ∧ c = (s.get chip).ocw3 value) :
    Effect s op (s.set chip c)
  | update (chip : Chip) {c : Controller} {es : List Event} {u t : State}
      (hcause : Cause s op chip c es)
      (hu : updateIRQ callDepth (recorded (s.set chip c) es) chip = some u)
      (hend : Finishes chip u t) :
    Effect s op t

theorem step_effect {s t : State} {op : Op} (h : step s op = some t) : Effect s op t := by
  obtain ⟨r, hr, rfl⟩ := Option.map_eq_some_iff.mp h
  have hperforms := access_performs (s := s) op
  generalize access s op = a at hr hperforms
  cases hperforms with
  | settings result chip hop hlines hmask =>
    obtain rfl := Option.some.inj hr
    exact .settings chip hop hlines hmask
  | update chip after hcause hafter =>
    obtain ⟨u, hu, rfl⟩ := Option.map_eq_some_iff.mp hr
    exact .update chip hcause hu (hafter u)

/-! ## Single operations -/

section Steps

variable {s t : State} {op : Op} {chip : Chip}

theorem step_presented {irq : Line} {level : Bool} (hop : presented op = some (chip, irq, level))
    (h : step s op = some t) :
    updateIRQ callDepth (s.set chip ((s.get chip).latch irq level)) chip = some t := by
  cases op with
  | handleIRQ irqNum asserted =>
    obtain ⟨r, hr, rfl⟩ := Option.map_eq_some_iff.mp h
    rw [access, handleIRQ] at hr
    rw [presented] at hop
    split at hop
    · next hle =>
      cases hop
      rw [if_pos hle] at hr
      obtain ⟨u, hu, rfl⟩ := Option.map_eq_some_iff.mp hr
      exact hu
    · next hgt =>
      cases hop
      rw [if_neg hgt] at hr
      obtain ⟨u, hu, rfl⟩ := Option.map_eq_some_iff.mp hr
      exact hu
  | ioRead port => cases hop
  | ioWrite port value => cases hop

theorem step_command {value : Word} (h : step s (.ioWrite (commandPort chip) value) = some t) :
    ((commandWrite s chip value).run (updateIRQ callDepth)).map (fun r => r.2) = some t := by
  have hresult {α β : Type} (a : Access α) (f : α → β) :
      ((a.andThen fun r u => (f r, u)).run (updateIRQ callDepth)).map (fun r => r.2) =
        (a.run (updateIRQ callDepth)).map fun r => r.2 := by
    cases a with
    | done r u => rfl
    | update u c after =>
      rw [Access.andThen, Access.run, Access.run, Option.map_map, Option.map_map]
      rfl
  cases chip with
  | master => exact (hresult _ _).symm.trans h
  | slave => exact (hresult _ _).symm.trans h

theorem step_icw1 (hop : Icw1 chip op) (h : step s op = some t) :
    ∃ u, updateIRQ callDepth ((s.set chip (.cleared (s.get chip).elcr)).log (.reset chip)) chip = some u ∧
      Finishes chip u t := by
  obtain ⟨value, rfl, hinit⟩ := hop
  have hcommand := step_command h
  rw [commandWrite, if_pos hinit] at hcommand
  obtain ⟨r, hr, rfl⟩ := Option.map_eq_some_iff.mp hcommand
  obtain ⟨u, hu, rfl⟩ := Option.map_eq_some_iff.mp hr
  exact ⟨u, hu, _, _, rfl⟩

theorem step_ocw3 {value : Word} (hop : Ocw3 chip op value) (h : step s op = some t) :
    t = s.set chip ((s.get chip).ocw3 value) := by
  obtain ⟨rfl, hinit, hocw3⟩ := hop
  have hcommand := step_command h
  rw [commandWrite, if_neg (not_not.mpr hinit), if_pos hocw3] at hcommand
  exact (Option.some.inj hcommand).symm

end Steps

end OpenXbox.Pic.Operations
