import OpenXbox.Lib.Run
import OpenXbox.Pic.Operations

/-!
# Reads of the command ports

What a command port reads is selected by earlier accesses to the same controller: a poll, or one of
two registers. The history of a controller tells which, and the read agrees with it except where
the request register is selected.
-/

namespace OpenXbox.Pic.ReadBack

open OpenXbox.Lib.Run OpenXbox.Pic.Device OpenXbox.Pic.Acknowledge OpenXbox.Pic.Cascade
  OpenXbox.Pic.Termination OpenXbox.Pic.Operations

/-- `PORT_PIC_MASTER_DATA` and `PORT_PIC_SLAVE_DATA`. -/
def dataPort : Chip → Word
  | .master => 0x21
  | .slave => 0xA1

/-- What the next read of a command port is to be. -/
structure Selection where
  /-- A poll command has been written since the last read. -/
  poll : Bool
  /-- The last register selection has chosen the in-service register. -/
  isr : Bool
deriving DecidableEq

/-- ICW1 leaves neither a poll nor a selection. -/
def Selection.fresh : Selection := ⟨false, false⟩

/-- The selection of one controller after an operation. -/
def note (chip : Chip) (sel : Selection) : Op → Selection
  | .handleIRQ _ _ => sel
  | .ioRead port =>
    if port = commandPort chip ∨ port = dataPort chip then { sel with poll := false } else sel
  | .ioWrite port value =>
    if port = commandPort chip then
      if value &&& 0x10 ≠ 0 then .fresh
      else if value &&& 0x08 ≠ 0 then
        { poll := if value &&& 0x04 ≠ 0 then true else sel.poll
          isr := if value &&& 0x02 ≠ 0 then value &&& 1 ≠ 0 else sel.isr }
      else sel
    else sel

def selection (chip : Chip) (ops : List Op) : Selection := ops.foldl (note chip) .fresh

/-- The read that a selection asks for. -/
def expected (sel : Selection) (s : State) (chip : Chip) : Access Byte :=
  if sel.poll then poll s chip
  else .done (if sel.isr then (s.get chip).isr else (s.get chip).irr) s

/-- A read of the command port has the value and the effect that the history of the controller asks
for. -/
def ReadsBack (ops : List Op) (s : State) (chip : Chip) : Prop :=
  ∀ depth, (access s (.ioRead (commandPort chip))).run (updateIRQ depth) =
    ((expected (selection chip ops) s chip).andThen fun v t => (some v, t)).run (updateIRQ depth)

/-- Where the request register is selected, it is the same as the in-service register. -/
def Fits (ops : List Op) (s : State) (chip : Chip) : Prop :=
  (selection chip ops).poll = false → (selection chip ops).isr = false →
    (s.get chip).isr = (s.get chip).irr

/-! ## The registers that hold the selection -/

def selected (c : Controller) : Selection := ⟨c.poll, c.readRegisterSelect⟩

def held (chip : Chip) (s : State) : Selection := selected (s.get chip)

section Held

variable {s t : State} {chip other : Chip}

theorem held_set (s : State) (chip other : Chip) (c : Controller) :
    held other (s.set chip c) = if other = chip then selected c else held other s := by
  rw [held, get_set]
  split <;> rfl

theorem held_set_same {c : Controller} (h : selected c = held chip s) (other : Chip) :
    held other (s.set chip c) = held other s := by
  rw [held_set]
  split
  · next heq => rw [h, heq]
  · rfl

theorem selected_latch (c : Controller) (n : Line) (asserted : Bool) :
    selected (c.latch n asserted) = selected c := by
  obtain ⟨irr, hlatch⟩ := latch_eq c n asserted
  rw [hlatch]
  rfl

theorem selected_acknowledge (c : Controller) (n : Line) :
    selected (c.acknowledge n) = selected c := by
  rw [acknowledge_eq]
  rfl

theorem held_acknowledged (s : State) (chip : Chip) (irq : Line) :
    held other (acknowledged s chip irq) = held other s :=
  held_set_same (selected_acknowledge (s.get chip) irq) other

/-- Nothing that a delivery does changes a selection. -/
theorem held_updateIRQ {depth : Nat} (h : updateIRQ depth s chip = some t) :
    held other t = held other s := by
  refine updateIRQ_invariant (I := fun u => held other u = held other s) ?_ ?_ ?_ ?_ h rfl
  · intro u out hu
    have hout : held other (u.output out) = held other u := held_set_same (by rfl) other
    exact hout.trans hu
  · exact fun u e hu => hu
  · exact fun u out irq hu => (held_acknowledged u out irq).trans hu
  · intro u hu
    have hout : held other (u.output .slave) = held other u := held_set_same (by rfl) other
    have hlink : held other (cascaded u) = held other (u.output .slave) :=
      held_set_same (selected_latch _ 2 _) other
    exact (hlink.trans hout).trans hu

end Held

/-! ## What an operation selects -/

/-- An access leaves each controller with the selection it notes. -/
def Notes {α : Type} (s : State) (op : Op) : Access α → Prop
  | .done _ t => ∀ chip, held chip t = note chip (held chip s) op
  | .update u _ after =>
    ∀ t, (∀ chip, held chip t = held chip u) →
      ∀ chip, held chip (after t).2 = note chip (held chip s) op

section Notes

variable {s : State} {op : Op}

theorem Notes.result {α β : Type} {a : Access α} {f : α → β} (h : Notes s op a) :
    Notes s op (a.andThen fun r t => (f r, t)) := by
  cases a with
  | done r t => exact h
  | update u chip after => exact h

/-- A change that is not one of the selection, by an operation that does not select. -/
theorem notes_update {u : State} {chip : Chip} (hu : ∀ chip, held chip u = held chip s)
    (hop : ∀ chip sel, note chip sel op = sel) : Notes s op (.update u chip fun t => ((), t)) := by
  intro t ht other
  rw [hop]
  exact (ht other).trans (hu other)

theorem notes_done {α : Type} (result : α) {t : State} (ht : ∀ chip, held chip t = held chip s)
    (hop : ∀ chip sel, note chip sel op = sel) : Notes s op (.done result t) := by
  intro other
  rw [hop]
  exact ht other

theorem note_read {chip : Chip} {port : Word} (hport : port = commandPort chip ∨ port = dataPort chip)
    (other : Chip) (sel : Selection) :
    note other sel (.ioRead port) = if other = chip then { sel with poll := false } else sel := by
  rw [note]
  obtain rfl | rfl := hport
  · cases chip <;> cases other <;> rfl
  · cases chip <;> cases other <;> rfl

theorem poll_notes {chip : Chip} {port : Word} (hport : port = commandPort chip ∨ port = dataPort chip) :
    Notes s (.ioRead port) (poll s chip) := by
  have hcleared (other : Chip) : held other (s.set chip { s.get chip with poll := false }) =
      note other (held other s) (.ioRead port) := by
    rw [held_set, note_read hport]
    split
    · next heq => rw [heq, held]; rfl
    · rfl
  rw [poll]
  dsimp only
  split
  · next irq _ =>
    intro t ht other
    exact ((ht other).trans (held_acknowledged _ chip irq)).trans (hcleared other)
  · exact hcleared

/-- A read of a register leaves no poll behind, since there was none. -/
theorem register_notes {chip : Chip} {port : Word}
    (hport : port = commandPort chip ∨ port = dataPort chip) (hpoll : ¬ (s.get chip).poll = true)
    (value : Byte) : Notes s (.ioRead port) (.done value s) := by
  intro other
  rw [note_read hport]
  split
  · next heq =>
    have hnone : (held other s).poll = false := by
      rw [heq]
      exact Bool.eq_false_iff.mpr hpoll
    rw [← hnone]
  · rfl

theorem read_notes {chip : Chip} {port : Word} (hport : port = commandPort chip ∨ port = dataPort chip)
    (value : Byte) : Notes s (.ioRead port) (if (s.get chip).poll then poll s chip else .done value s) := by
  split
  · exact poll_notes hport
  · next hpoll => exact register_notes hport hpoll value

theorem endService_held (s : State) (chip : Chip) (irq : Line) (other : Chip) :
    held other (s.endService chip irq) = held other s := by
  have hset (isr : Byte) : held other (s.set chip { s.get chip with isr := isr }) = held other s :=
    held_set_same (by rfl) other
  exact hset _

theorem rotate_held (s : State) (chip : Chip) (add : Line) (other : Chip) :
    held other (s.rotate chip add) = held other s := by
  have hset : held other (s.set chip { s.get chip with priorityAdd := add }) = held other s :=
    held_set_same (by rfl) other
  exact hset

theorem ocw2_notes (hop : ∀ chip sel, note chip sel op = sel) (chip : Chip) (value : Word)
    (command : Nat) : Notes s op (ocw2 s chip value command) := by
  rw [ocw2.eq_def]
  dsimp only
  split
  · exact notes_done () (held_set_same (by rfl)) hop
  · exact notes_done () (held_set_same (by rfl)) hop
  · split
    · exact notes_done () (fun _ => rfl) hop
    · exact notes_update (endService_held s chip _) hop
  · split
    · exact notes_done () (fun _ => rfl) hop
    · exact notes_update (fun other => (rotate_held _ chip _ other).trans (endService_held s chip _ other)) hop
  · exact notes_update (endService_held s chip _) hop
  · exact notes_update (rotate_held s chip _) hop
  · exact notes_update (fun other => (rotate_held _ chip _ other).trans (endService_held s chip _ other)) hop
  · exact notes_done () (fun _ => rfl) hop

theorem commandWrite_notes (chip : Chip) (value : Word) :
    Notes s (.ioWrite (commandPort chip) value) (commandWrite s chip value) := by
  have hport (other : Chip) : commandPort chip = commandPort other ↔ other = chip := by
    cases chip <;> cases other <;> decide
  rw [commandWrite]
  split
  · next hinit =>
    -- ICW1: the registers are cleared before `UpdateIRQ`
    intro t ht other
    have hnext (b : Bool) : held other (t.set chip { t.get chip with initState := 1, is4ByteInit := b }) =
        held other t := held_set_same (by rfl) other
    rw [note, if_pos hinit]
    refine ((hnext _).trans (ht other)).trans ?_
    refine (held_set s chip other (.cleared (s.get chip).elcr)).trans ?_
    simp only [hport]
    rfl
  · next hinit =>
    split
    · next hocw3 =>
      intro other
      rw [held_set, note, if_neg hinit, if_pos hocw3]
      simp only [hport]
      split
      · next heq => rw [heq]; rfl
      · rfl
    · next hocw3 =>
      refine ocw2_notes (fun other sel => ?_) chip value _
      rw [note, if_neg hinit, if_neg hocw3, ite_self]

theorem note_other {port value : Word} (h : ∀ chip, port ≠ commandPort chip) (chip : Chip)
    (sel : Selection) : note chip sel (.ioWrite port value) = sel := if_neg (h chip)

theorem dataWrite_notes (hop : ∀ chip sel, note chip sel op = sel) (chip : Chip) (value : Word) :
    Notes s op (dataWrite s chip value) := by
  rw [dataWrite]
  split
  · exact notes_update (held_set_same (by rfl)) hop
  · exact notes_done () (held_set_same (by rfl)) hop
  · exact notes_done () (held_set_same (by rfl)) hop
  · exact notes_done () (held_set_same (by rfl)) hop

theorem access_notes (s : State) (op : Op) : Notes s op (access s op) := by
  cases op with
  | handleIRQ irqNum level =>
    have hrequest (chip : Chip) (n : Line) : Notes s (.handleIRQ irqNum level) (setIRQ s chip n level) :=
      notes_update (held_set_same (selected_latch (s.get chip) n level)) fun _ _ => rfl
    refine Notes.result ?_
    rw [handleIRQ]
    split
    · exact hrequest .master _
    · exact hrequest .slave _
  | ioRead port =>
    have helsewhere (h : ∀ chip, port ≠ commandPort chip ∧ port ≠ dataPort chip) (chip : Chip)
        (sel : Selection) : note chip sel (.ioRead port) = sel := if_neg (not_or.mpr (h chip))
    rw [access, ioRead]
    split
    · next hport => exact (read_notes (.inl hport) _).result
    split
    · next hport => exact (read_notes (.inl hport) _).result
    split
    · next hport => exact (read_notes (.inr hport) _).result
    split
    · next hport => exact (read_notes (.inr hport) _).result
    next hmaster hslave hmaster' hslave' =>
    have hother (chip : Chip) : port ≠ commandPort chip ∧ port ≠ dataPort chip := by
      cases chip with
      | master => exact ⟨hmaster, hmaster'⟩
      | slave => exact ⟨hslave, hslave'⟩
    split
    · exact notes_done _ (fun _ => rfl) (helsewhere hother)
    split
    · exact notes_done _ (fun _ => rfl) (helsewhere hother)
    · exact notes_done _ (fun _ => rfl) (helsewhere hother)
  | ioWrite port value =>
    refine Notes.result ?_
    rw [ioWrite]
    split
    · next hport => exact hport ▸ commandWrite_notes .master value
    split
    · next hport => exact hport ▸ commandWrite_notes .slave value
    next hmaster hslave =>
    have hother (chip : Chip) : port ≠ commandPort chip := by
      cases chip with
      | master => exact hmaster
      | slave => exact hslave
    have hkept (chip : Chip) (sel : Selection) : note chip sel (.ioWrite port value) = sel :=
      note_other hother chip sel
    split
    · exact dataWrite_notes hkept .master value
    split
    · exact dataWrite_notes hkept .slave value
    split
    · exact notes_done () (held_set_same (by rfl)) hkept
    split
    · exact notes_done () (held_set_same (by rfl)) hkept
    · exact notes_done () (fun _ => rfl) hkept

theorem step_notes {t : State} (h : step s op = some t) (chip : Chip) :
    held chip t = note chip (held chip s) op := by
  obtain ⟨r, hr, rfl⟩ := Option.map_eq_some_iff.mp h
  have hnotes := access_notes s op
  generalize access s op = a at hr hnotes
  cases a with
  | done v u =>
    obtain rfl := Option.some.inj hr
    exact hnotes chip
  | update u c after =>
    obtain ⟨t, ht, rfl⟩ := Option.map_eq_some_iff.mp hr
    exact hnotes t (fun _ => held_updateIRQ ht) chip

end Notes

/-! ## Reads -/

/-- The registers hold what the history of the controller selects. -/
theorem held_eq_selection {ops : List Op} {t : State} (h : exec step .initial ops = some t)
    (chip : Chip) : held chip t = selection chip ops :=
  exec_foldl (R := fun s sel => held chip s = sel)
    (fun _ _ _ _ hsel hstep => hsel ▸ step_notes hstep chip) (by cases chip <;> rfl) h

theorem access_command (s : State) (chip : Chip) :
    access s (.ioRead (commandPort chip)) = (commandRead s chip).andThen fun v t => (some v, t) := by
  cases chip <;> rfl

/-- After every history, a read of a command port is the one selected, exactly when the request
register is not selected or holds the same as the in-service register. -/
theorem command_reads_back_iff (ops : List Op) (t : State) (h : exec step .initial ops = some t)
    (chip : Chip) : ReadsBack ops t chip ↔ Fits ops t chip := by
  have hread : commandRead t chip = if (selection chip ops).poll then poll t chip
      else .done (t.get chip).isr t := by
    rw [← held_eq_selection h chip]
    rfl
  rw [ReadsBack, Fits, access_command, hread, expected]
  cases hpoll : (selection chip ops).poll with
  | true => exact iff_of_true (fun _ => rfl) nofun
  | false =>
    cases hisr : (selection chip ops).isr with
    | true => exact iff_of_true (fun _ => rfl) nofun
    | false =>
      constructor
      · intro hsame _ _
        have hvalue := congrArg Prod.fst (Option.some.inj (hsame 0))
        exact Option.some.inj hvalue
      · intro heq depth
        have hregister : (t.get chip).isr = (t.get chip).irr := heq rfl rfl
        simp only [hregister, Bool.false_eq_true, if_false]

/-- The slave is initialised and line 3 of it is requested behind its mask. -/
def maskedRequest : List Op :=
  [.ioWrite 0xA0 0x11, .ioWrite 0xA1 0x70, .ioWrite 0xA1 0x02, .ioWrite 0xA1 0x01,
    .ioWrite 0xA1 0xFF, .handleIRQ 11 true]

theorem in_service_reads_back : ∃ t, exec step .initial (maskedRequest ++ [.ioWrite 0xA0 0x0B]) = some t ∧
    ReadsBack (maskedRequest ++ [.ioWrite 0xA0 0x0B]) t .slave :=
  ⟨_, rfl, (command_reads_back_iff _ _ rfl .slave).mpr fun _ hisr => absurd hisr (by decide)⟩

/-- The request register is selected, and the in-service register is read. -/
theorem request_reads_in_service : ∃ t, exec step .initial (maskedRequest ++ [.ioWrite 0xA0 0x0A]) = some t ∧
    ¬ ReadsBack (maskedRequest ++ [.ioWrite 0xA0 0x0A]) t .slave := by
  refine ⟨_, rfl, fun h => ?_⟩
  have hvalue := congrArg Prod.fst (Option.some.inj (h 0))
  exact absurd hvalue (by decide)

end OpenXbox.Pic.ReadBack
