import OpenXbox.Lib.Loop
import OpenXbox.Pic.Acknowledge

/-!
# The delivery cascade

`UpdateIRQ(PIC_MASTER)` delivers at most one request itself; what is called from there
ends in `UpdateIRQ(PIC_MASTER)` again, in the state the acknowledgement leaves. So the
cascade is a chain of acknowledgements, and it comes to an end when the chain does.
-/

namespace OpenXbox.Pic.Cascade

open OpenXbox.Lib.Loop OpenXbox.Pic.Device OpenXbox.Pic.Priority OpenXbox.Pic.Acknowledge

/-- What `UpdateIRQ(PIC_MASTER)` does first: nothing, a spurious interrupt of the slave,
or the acknowledgement of a line. -/
inductive Delivery where
  | quiet
  | spurious
  | acknowledge (chip : Chip) (irq : Line)

def delivery (s : State) : Delivery :=
  match s.getIRQ .master with
  | none => .quiet
  | some masterIrq =>
    if masterIrq ≠ 2 then .acknowledge .master masterIrq
    else
      match s.getIRQ .slave with
      | none => .spurious
      | some slaveIrq => .acknowledge .slave slaveIrq

/-- The state in which `UpdateIRQ(PIC_SLAVE)` calls `UpdateIRQ(PIC_MASTER)`. -/
def cascaded (s : State) : State :=
  (s.output .slave).set .master (s.master.latch 2 (s.getIRQ .slave).isSome)

def acknowledged (s : State) (chip : Chip) (irq : Line) : State :=
  (s.set chip ((s.get chip).acknowledge irq)).log (.acknowledge chip irq)

/-- The state of the nested `UpdateIRQ(PIC_MASTER)`. -/
def follow (s : State) : Chip → Line → State
  | .master, irq => acknowledged (s.output .master) .master irq
  | .slave, irq => cascaded (acknowledged (s.output .master) .slave irq)

/-- The interrupt that is passed to the CPU after the nested calls have returned. -/
def interrupted (t : State) (chip : Chip) (irq : Line) : State :=
  t.log (.interrupt ⟨chip, irq, (t.get chip).base, false⟩)

/-! ## One call -/

theorem get_set (s : State) (chip other : Chip) (c : Controller) :
    (s.set chip c).get other = if other = chip then c else s.get other := by
  cases chip <;> cases other <;> rfl

theorem output_getIRQ (s : State) (out chip : Chip) : (s.output out).getIRQ chip = s.getIRQ chip := by
  cases out <;> cases chip <;> rfl

section Delivery

variable {s : State}

/-- What each chip has to deliver decides. -/
theorem delivery_cases (s : State) :
    (s.getIRQ .master = none ∧ delivery s = .quiet) ∨
    (∃ n, s.getIRQ .master = some n ∧ n ≠ 2 ∧ delivery s = .acknowledge .master n) ∨
    (s.getIRQ .master = some 2 ∧ s.getIRQ .slave = none ∧ delivery s = .spurious) ∨
    ∃ k, s.getIRQ .master = some 2 ∧ s.getIRQ .slave = some k ∧ delivery s = .acknowledge .slave k := by
  rw [delivery]
  cases s.getIRQ .master with
  | none => exact .inl ⟨rfl, rfl⟩
  | some n =>
    by_cases hn : n = 2
    · subst hn
      cases s.getIRQ .slave with
      | none => exact .inr (.inr (.inl ⟨rfl, rfl, rfl⟩))
      | some k => exact .inr (.inr (.inr ⟨k, rfl, rfl, rfl⟩))
    · exact .inr (.inl ⟨n, rfl, hn, if_pos hn⟩)

theorem delivery_quiet_iff : delivery s = .quiet ↔ s.getIRQ .master = none := by
  rcases delivery_cases s with ⟨hm, hd⟩ | ⟨n, hm, -, hd⟩ | ⟨hm, -, hd⟩ | ⟨k, hm, -, hd⟩
  · exact iff_of_true hd hm
  all_goals simp [hm, hd]

theorem delivery_spurious_iff : delivery s = .spurious ↔
    s.getIRQ .master = some 2 ∧ s.getIRQ .slave = none := by
  rcases delivery_cases s with ⟨hm, hd⟩ | ⟨n, hm, hn, hd⟩ | ⟨hm, hs, hd⟩ | ⟨k, hm, hs, hd⟩
  · simp [hm, hd]
  · simp [hm, hn, hd]
  · exact iff_of_true hd ⟨hm, hs⟩
  · simp [hs, hd]

theorem delivery_master_iff {irq : Line} : delivery s = .acknowledge .master irq ↔
    s.getIRQ .master = some irq ∧ irq ≠ 2 := by
  rcases delivery_cases s with ⟨hm, hd⟩ | ⟨n, hm, hn, hd⟩ | ⟨hm, -, hd⟩ | ⟨k, hm, -, hd⟩
  · simp [hm, hd]
  · rw [hm, hd, Delivery.acknowledge.injEq, and_iff_right rfl, Option.some.injEq]
    exact ⟨fun h => ⟨h, h ▸ hn⟩, And.left⟩
  · simp [hm, hd, eq_comm]
  · simp [hm, hd, eq_comm]

theorem delivery_slave_iff {irq : Line} : delivery s = .acknowledge .slave irq ↔
    s.getIRQ .master = some 2 ∧ s.getIRQ .slave = some irq := by
  rcases delivery_cases s with ⟨hm, hd⟩ | ⟨n, hm, hn, hd⟩ | ⟨hm, hs, hd⟩ | ⟨k, hm, hs, hd⟩
  · simp [hm, hd]
  · simp [hm, hn, hd]
  · simp [hs, hd]
  · simp [hm, hs, hd]

theorem updateIRQ_slave (depth : Nat) (s : State) :
    updateIRQ (depth + 1) s .slave = updateIRQ depth (cascaded s) .master := by
  rw [updateIRQ, setIRQ, Access.run, Option.map_map]
  exact Option.map_id'

theorem updateIRQ_quiet (h : delivery s = .quiet) (depth : Nat) :
    updateIRQ (depth + 1) s .master = some (s.output .master) := by
  rw [updateIRQ, delivery_quiet_iff.mp h]
  rfl

theorem updateIRQ_spurious (h : delivery s = .spurious) (depth : Nat) :
    updateIRQ (depth + 1) s .master =
      some ((s.output .master).log (.interrupt ⟨.slave, 7, s.slave.base, true⟩)) := by
  obtain ⟨hm, hs⟩ := delivery_spurious_iff.mp h
  rw [updateIRQ, getCurrentIRQ, output_getIRQ, output_getIRQ, hm, hs]
  rfl

theorem updateIRQ_master_request {irq : Line} (h : delivery s = .acknowledge .master irq) (depth : Nat) :
    updateIRQ (depth + 1) s .master =
      (updateIRQ depth (follow s .master irq) .master).map fun t => interrupted t .master irq := by
  obtain ⟨hm, hn⟩ := delivery_master_iff.mp h
  rw [updateIRQ, getCurrentIRQ, output_getIRQ, hm]
  simp only [Option.isSome_some, if_true, if_pos hn, acknowledgeIRQ, Access.andThen, Access.run,
    Option.map_map]
  rfl

theorem updateIRQ_slave_request {irq : Line} (h : delivery s = .acknowledge .slave irq)
    (depth : Nat) : updateIRQ (depth + 2) s .master =
      (updateIRQ depth (follow s .slave irq) .master).map fun t => interrupted t .slave irq := by
  obtain ⟨hm, hs⟩ := delivery_slave_iff.mp h
  rw [updateIRQ, getCurrentIRQ, output_getIRQ, output_getIRQ, hm, hs]
  simp only [Option.isSome_some, if_true, ne_eq, not_true_eq_false, if_false, acknowledgeIRQ,
    Access.andThen, Access.run, Option.map_map]
  rw [updateIRQ_slave]
  rfl

end Delivery

/-! ## The level of a line -/

/-- A level only changes the requests, and is remembered. -/
theorem latch_eq (c : Controller) (n : Line) (asserted : Bool) :
    ∃ irr, c.latch n asserted =
      { c with
        irr := irr
        previousIRR := if asserted then c.previousIRR ||| bit n else c.previousIRR &&& ~~~bit n } := by
  rw [Controller.latch]
  cases asserted with
  | true =>
    split
    · exact ⟨_, rfl⟩
    · exact ⟨_, rfl⟩
  | false =>
    split
    · exact ⟨_, rfl⟩
    · exact ⟨_, rfl⟩

theorem latch_false (c : Controller) (n : Line) : c.latch n false =
    { c with irr := c.irr &&& ~~~bit n, previousIRR := c.previousIRR &&& ~~~bit n } := by
  rw [Controller.latch]
  split
  · rfl
  · rfl

/-! ## The chain -/

theorem Access.run_mono {α : Type} {update update' : State → Chip → Option State}
    (h : ∀ s chip t, update s chip = some t → update' s chip = some t) {a : Access α}
    {r : α × State} (hr : a.run update = some r) : a.run update' = some r := by
  cases a with
  | done result s => exact hr
  | update s chip after =>
    obtain ⟨t, ht, rfl⟩ := Option.map_eq_some_iff.mp hr
    exact Option.map_eq_some_iff.mpr ⟨t, h s chip t ht, rfl⟩

/-- A higher bound does not change the result. -/
theorem updateIRQ_succ {depth : Nat} {s t : State} {chip : Chip}
    (h : updateIRQ depth s chip = some t) : updateIRQ (depth + 1) s chip = some t := by
  induction depth generalizing s chip t with
  | zero => cases chip <;> cases h
  | succ depth ih =>
    cases chip with
    | slave =>
      rw [updateIRQ_slave] at h ⊢
      exact ih h
    | master =>
      rw [updateIRQ] at h ⊢
      split at h
      · next hsome =>
        rw [if_pos hsome]
        obtain ⟨r, hr, rfl⟩ := Option.map_eq_some_iff.mp h
        exact Option.map_eq_some_iff.mpr ⟨r, Access.run_mono (fun s chip t => ih) hr, rfl⟩
      · next hnone =>
        rw [if_neg hnone]
        exact h

theorem updateIRQ_mono {m n : Nat} {s t : State} {chip : Chip} (h : updateIRQ m s chip = some t)
    (hle : m ≤ n) : updateIRQ n s chip = some t := by
  induction hle with
  | refl => exact h
  | step _ ih => exact updateIRQ_succ ih

/-- What relates the states before and after `UpdateIRQ(PIC_MASTER)`, one delivery after the
other: the nested calls come between an acknowledgement and its interrupt. -/
theorem updateIRQ_rec {R : State → State → Prop}
    (hquiet : ∀ s, delivery s = .quiet → R s (s.output .master))
    (hspurious : ∀ s, delivery s = .spurious →
      R s ((s.output .master).log (.interrupt ⟨.slave, 7, s.slave.base, true⟩)))
    (hack : ∀ s chip irq t, delivery s = .acknowledge chip irq → R (follow s chip irq) t →
      R s (interrupted t chip irq))
    {depth : Nat} {s t : State} (h : updateIRQ depth s .master = some t) : R s t := by
  induction depth using Nat.strong_induction_on generalizing s t with
  | h depth ih =>
    cases depth with
    | zero => cases h
    | succ depth =>
      have hmore := updateIRQ_succ h
      cases hd : delivery s with
      | quiet =>
        rw [updateIRQ_quiet hd] at h
        obtain rfl := Option.some.inj h
        exact hquiet s hd
      | spurious =>
        rw [updateIRQ_spurious hd] at h
        obtain rfl := Option.some.inj h
        exact hspurious s hd
      | acknowledge chip irq =>
        cases chip with
        | master =>
          rw [updateIRQ_master_request hd] at h
          obtain ⟨u, hu, rfl⟩ := Option.map_eq_some_iff.mp h
          exact hack s .master irq u hd (ih depth (Nat.lt_succ_self depth) hu)
        | slave =>
          rw [updateIRQ_slave_request hd] at hmore
          obtain ⟨u, hu, rfl⟩ := Option.map_eq_some_iff.mp hmore
          exact hack s .slave irq u hd (ih depth (Nat.lt_succ_self depth) hu)

/-- A property that the outputs, the events and the acknowledgements keep holds after
`UpdateIRQ`. -/
theorem updateIRQ_invariant {I : State → Prop} (hout : ∀ s chip, I s → I (s.output chip))
    (hlog : ∀ s e, I s → I (s.log e)) (hack : ∀ s chip irq, I s → I (acknowledged s chip irq))
    (hlink : ∀ s, I s → I (cascaded s)) {depth : Nat} {s t : State} {chip : Chip}
    (h : updateIRQ depth s chip = some t) (hi : I s) : I t := by
  have hmaster {depth : Nat} {s t : State} (h : updateIRQ depth s .master = some t) : I s → I t := by
    refine updateIRQ_rec (R := fun s t => I s → I t) ?_ ?_ ?_ h
    · exact fun s _ hs => hout s .master hs
    · exact fun s _ hs => hlog _ _ (hout s .master hs)
    · intro s chip irq t _ hfollow hs
      have hacked := hack _ chip irq (hout s .master hs)
      cases chip with
      | master => exact hlog t _ (hfollow hacked)
      | slave => exact hlog t _ (hfollow (hlink _ hacked))
  cases chip with
  | master => exact hmaster h hi
  | slave =>
    cases depth with
    | zero => cases h
    | succ depth =>
      rw [updateIRQ_slave] at h
      exact hmaster h (hlink s hi)

/-- One acknowledgement after the other, in the states of the nested calls. -/
def chain (s : State) : Turn State :=
  match delivery s with
  | .acknowledge chip irq => .next (follow s chip irq)
  | _ => .exit s

theorem updateIRQ_of_loop {fuel : Nat} {s : State} (h : (loop chain fuel s).isSome = true) :
    (updateIRQ (2 * fuel) s .master).isSome = true := by
  induction fuel generalizing s with
  | zero => cases h
  | succ fuel ih =>
    rw [Nat.mul_succ]
    cases hd : delivery s with
    | quiet =>
      rw [updateIRQ_quiet hd]
      rfl
    | spurious =>
      rw [updateIRQ_spurious hd]
      rfl
    | acknowledge chip irq =>
      have hnext : chain s = .next (follow s chip irq) := by rw [chain, hd]
      rw [loop_next hnext] at h
      obtain ⟨t, ht⟩ := Option.isSome_iff_exists.mp (ih h)
      cases chip with
      | master => rw [updateIRQ_master_request hd, updateIRQ_succ ht, Option.map_some, Option.isSome_some]
      | slave => rw [updateIRQ_slave_request hd, ht, Option.map_some, Option.isSome_some]

theorem loop_of_updateIRQ {depth : Nat} {s : State}
    (h : (updateIRQ depth s .master).isSome = true) : (loop chain depth s).isSome = true := by
  induction depth using Nat.strong_induction_on generalizing s with
  | h depth ih =>
    cases depth with
    | zero => cases h
    | succ depth =>
      cases hd : delivery s with
      | quiet => rw [loop, chain, hd]; rfl
      | spurious => rw [loop, chain, hd]; rfl
      | acknowledge chip irq =>
        have hnext : chain s = .next (follow s chip irq) := by rw [chain, hd]
        rw [loop_next hnext]
        cases chip with
        | master =>
          rw [updateIRQ_master_request hd, Option.isSome_map] at h
          exact ih depth (Nat.lt_succ_self depth) h
        | slave =>
          cases depth with
          | zero =>
            -- the slave's call of UpdateIRQ(PIC_MASTER) needs one level more
            obtain ⟨t, ht⟩ := Option.isSome_iff_exists.mp h
            have hmore := updateIRQ_succ ht
            rw [updateIRQ_slave_request hd] at hmore
            cases hmore
          | succ depth =>
            rw [updateIRQ_slave_request hd, Option.isSome_map] at h
            have hshort := ih depth (by omega) h
            obtain ⟨t, ht⟩ := Option.isSome_iff_exists.mp hshort
            rw [loop_mono ht (Nat.le_succ depth)]
            rfl

end OpenXbox.Pic.Cascade
