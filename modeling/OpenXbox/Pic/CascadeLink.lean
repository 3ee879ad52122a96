import OpenXbox.Pic.Operations

/-!
# The link of the cascade

The output of the slave, the level of line 2 that the master remembers, and the request
of that line. `UpdateIRQ(PIC_SLAVE)` makes them agree with what the slave resolves to;
they stay so until line 2 is driven from outside, the master is initialised, or the
special mask of the slave is changed, and that makes a difference.
-/

namespace OpenXbox.Pic.CascadeLink

open OpenXbox.Lib.Run OpenXbox.Pic.Device OpenXbox.Pic.Priority OpenXbox.Pic.Acknowledge
  OpenXbox.Pic.Cascade OpenXbox.Pic.Termination OpenXbox.Pic.Operations

/-- The spurious vector of the slave is passed to the CPU. -/
def spuriousSlave : Event → Bool
  | .interrupt v => v.chip = .slave && v.spurious
  | .acknowledge _ _ | .polled _ _ | .ended _ _ | .reset _ => false

/-- The link agrees with what the slave resolves to. -/
structure Coherent (s : State) : Prop where
  output : s.slave.interruptOutput = (s.getIRQ .slave).isSome
  remembered : s.master.previousIRR.getLsbD 2 = s.slave.interruptOutput
  request : On s.master.irr 2 → (s.getIRQ .slave).isSome = true
  genuine : ∀ e ∈ s.events, spuriousSlave e = false

theorem coherent_iff (s : State) : Coherent s ↔
    s.slave.interruptOutput = (s.getIRQ .slave).isSome ∧
      s.master.previousIRR.getLsbD 2 = s.slave.interruptOutput ∧
      (On s.master.irr 2 → (s.getIRQ .slave).isSome = true) ∧
      ∀ e ∈ s.events, spuriousSlave e = false :=
  ⟨fun h => ⟨h.1, h.2, h.3, h.4⟩, fun ⟨h1, h2, h3, h4⟩ => ⟨h1, h2, h3, h4⟩⟩

instance (s : State) : Decidable (Coherent s) := decidable_of_iff _ (coherent_iff s).symm

/-- The operation does not part the two: line 2 of the master is only driven to the output
of the slave, the master is only initialised when that is low, and a special mask of the
slave does not change it. -/
structure Linked (s : State) (op : Op) : Prop where
  request : ∀ level, presented op = some (.master, 2, level) → level = (s.getIRQ .slave).isSome
  initialise : Icw1 .master op → s.getIRQ .slave = none
  specialMask : ∀ value, Ocw3 .slave op value →
    (getIRQ .slave (s.slave.ocw3 value)).isSome = (s.getIRQ .slave).isSome

/-! ## The cascade -/

section Cascade

variable {s t : State}

/-- What the slave resolves to does not depend on its outputs and settings. -/
theorem getIRQ_slave_congr {c c' : Controller} (h : SameLines c c') (hmask : c'.specialMask = c.specialMask) :
    getIRQ .slave c' = getIRQ .slave c := by
  have hpending : c'.pending = c.pending := by rw [Controller.pending, h.irr, h.imr, Controller.pending]
  have hholding : c'.holding .slave = c.holding .slave := by
    simp [Controller.holding, h.isr, h.imr, hmask]
  rw [getIRQ, getIRQ, hpending, hholding, h.priorityAdd]

/-- The slave and the level of line 2 stay; line 2 gets no request. -/
theorem Coherent.of_master (hs : Coherent s) (hslave : t.slave = s.slave)
    (hprev : t.master.previousIRR.getLsbD 2 = s.master.previousIRR.getLsbD 2)
    (hirr : On t.master.irr 2 → On s.master.irr 2) (hev : ∀ e ∈ t.events, spuriousSlave e = false) :
    Coherent t := by
  have hget : t.getIRQ .slave = s.getIRQ .slave := congrArg (getIRQ .slave) hslave
  refine ⟨?_, ?_, fun h => ?_, hev⟩
  · rw [hget, hslave]
    exact hs.output
  · rw [hprev, hslave]
    exact hs.remembered
  · rw [hget]
    exact hs.request (hirr h)

/-- `UpdateIRQ(PIC_SLAVE)` makes the link agree, whatever it was. -/
theorem coherent_cascaded (hev : ∀ e ∈ s.events, spuriousSlave e = false) : Coherent (cascaded s) := by
  have hget : (cascaded s).getIRQ .slave = s.getIRQ .slave := output_getIRQ s .slave .slave
  have hprev : On (s.master.latch 2 (s.getIRQ .slave).isSome).previousIRR 2 ↔
      (s.getIRQ .slave).isSome = true := by
    rw [on_latch_previous_iff, if_pos rfl]
  refine ⟨?_, ?_, fun h => ?_, hev⟩
  · rw [hget]
    rfl
  · exact Bool.eq_iff_iff.mpr hprev
  · rw [hget]
    by_contra hlow
    have hfalse : (s.getIRQ .slave).isSome = false := Bool.eq_false_iff.mpr hlow
    change On (s.master.latch 2 (s.getIRQ .slave).isSome).irr 2 at h
    rw [hfalse] at h
    exact not_on_latch_irr s.master 2 h

theorem genuine_log {v : Vector} (hs : ∀ e ∈ s.events, spuriousSlave e = false)
    (hv : v.spurious = false) : ∀ e ∈ (s.log (.interrupt v)).events, spuriousSlave e = false := by
  intro e he
  rcases List.mem_append.mp he with he | he
  · exact hs e he
  · obtain rfl := List.mem_singleton.mp he
    rw [spuriousSlave, hv, Bool.and_false]

/-- The cascade keeps the link, and never comes to the spurious vector of the slave. -/
theorem coherent_updateIRQ {depth : Nat} (h : updateIRQ depth s .master = some t) (hs : Coherent s) :
    Coherent t := by
  refine updateIRQ_rec (R := fun s t => Coherent s → Coherent t) ?_ ?_ ?_ h hs
  · intro s _ hs
    exact hs.of_master rfl rfl id hs.genuine
  · intro s hd hs
    obtain ⟨hm, hnone⟩ := delivery_spurious_iff.mp hd
    have hon := ((on_pending_iff s.master 2).mp (getIRQ_eq_some_iff.mp hm).1.1).1
    have hsome := hs.request hon
    rw [hnone] at hsome
    cases hsome
  · intro s chip irq t hd ih hs
    have hgenuine : ∀ e ∈ (acknowledged (s.output .master) chip irq).events, spuriousSlave e = false := by
      intro e he
      have he' : e ∈ s.events ++ [.acknowledge chip irq] := by cases chip <;> exact he
      rcases List.mem_append.mp he' with he | he
      · exact hs.genuine e he
      · obtain rfl := List.mem_singleton.mp he
        rfl
    have ht : Coherent t := by
      apply ih
      cases chip with
      | master =>
        refine hs.of_master rfl ?_ ?_ hgenuine
        · rw [(follow_master irq).1, acknowledge_eq]
          rfl
        · intro hon
          rw [(follow_master irq).1, on_acknowledge_irr_iff] at hon
          exact hon.1
      | slave => exact coherent_cascaded hgenuine
    exact ht.of_master rfl rfl id (genuine_log ht.genuine rfl)

/-- The level the master remembers is not what the slave resolves to, and there is no
request for the slave to take up. -/
def Parted (s : State) : Prop :=
  s.master.previousIRR.getLsbD 2 ≠ (s.getIRQ .slave).isSome ∧
    (On s.master.irr 2 → s.getIRQ .slave = none)

theorem Parted.not_coherent (h : Parted s) : ¬ Coherent s := fun hs =>
  h.1 (hs.remembered.trans hs.output)

/-- The cascade does not join what is parted. -/
theorem parted_updateIRQ {depth : Nat} (h : updateIRQ depth s .master = some t) (hs : Parted s) :
    Parted t := by
  refine updateIRQ_rec (R := fun s t => Parted s → Parted t) ?_ ?_ ?_ h hs
  · intro s _ hs
    exact hs
  · intro s _ hs
    exact hs
  · intro s chip irq t hd ih hs
    suffices hfollow : Parted (follow s chip irq) from ih hfollow
    cases chip with
    | master =>
      refine ⟨?_, fun hon => hs.2 ?_⟩
      · rw [(follow_master irq).1, acknowledge_eq]
        exact hs.1
      · rw [(follow_master irq).1, on_acknowledge_irr_iff] at hon
        exact hon.1
    | slave =>
      obtain ⟨hm, hk⟩ := delivery_slave_iff.mp hd
      have hon := ((on_pending_iff s.master 2).mp (getIRQ_eq_some_iff.mp hm).1.1).1
      rw [hs.2 hon] at hk
      cases hk

end Cascade

/-! ## Operations -/

section Operations

variable {s t u : State} {op : Op} {chip : Chip} {c : Controller} {es : List Event}

theorem genuine_cause (hs : ∀ e ∈ s.events, spuriousSlave e = false) (h : Cause s op chip c es) :
    ∀ e ∈ (recorded (s.set chip c) es).events, spuriousSlave e = false := by
  have hnew : ∀ e ∈ es, spuriousSlave e = false := by
    cases h with
    | request | mask | rotate => simp
    | initialise | ended => simp [spuriousSlave]
    | poll => simp [spuriousSlave]
  intro e he
  rw [recorded, set_events] at he
  rcases List.mem_append.mp he with he | he
  · exact hs e he
  · exact hnew e he

/-- Settings leave the link alone, except for the special mask of the slave. -/
theorem coherent_settings (hs : Coherent s) (hl : Linked s op) (hlines : SameLines (s.get chip) c)
    (hmask : c.specialMask = (s.get chip).specialMask ∨
      ∃ value, Ocw3 chip op value ∧ c = (s.get chip).ocw3 value) : Coherent (s.set chip c) := by
  cases chip with
  | master =>
    refine hs.of_master rfl (congrArg (fun x : Byte => x.getLsbD 2) hlines.previousIRR) ?_ hs.genuine
    exact fun hon => hlines.irr ▸ hon
  | slave =>
    have hget : (getIRQ .slave c).isSome = (s.getIRQ .slave).isSome := by
      rcases hmask with hsame | ⟨value, hocw3, rfl⟩
      · exact congrArg Option.isSome (getIRQ_slave_congr hlines hsame)
      · exact hl.specialMask value hocw3
    exact ⟨hlines.interruptOutput.trans (hs.output.trans hget.symm),
      hs.remembered.trans hlines.interruptOutput.symm, fun hon => hget.trans (hs.request hon), hs.genuine⟩

/-- So does every change of the master, with the same exceptions. -/
theorem coherent_cause (hs : Coherent s) (hl : Linked s op) (h : Cause s op .master c es) :
    Coherent (recorded (s.set .master c) es) := by
  have hgenuine := genuine_cause hs.genuine h
  cases h with
  | request irq level hop =>
    by_cases h2 : irq = 2
    · have hlevel : level = (s.getIRQ .slave).isSome := hl.request level (h2 ▸ hop)
      have hprev : On (s.master.latch irq level).previousIRR 2 ↔ level = true := by
        rw [on_latch_previous_iff, if_pos h2.symm]
      refine ⟨hs.output, (Bool.eq_iff_iff.mpr hprev).trans (hlevel.trans hs.output.symm),
        fun hon => ?_, hgenuine⟩
      by_contra hlow
      have hfalse : level = false := hlevel.trans (Bool.eq_false_iff.mpr hlow)
      change On (s.master.latch irq level).irr 2 at hon
      rw [hfalse, h2] at hon
      exact not_on_latch_irr s.master 2 hon
    · have hne : (2 : Line) ≠ irq := fun h => h2 h.symm
      refine hs.of_master rfl ?_ (fun hon => (on_latch_irr_of_ne hne s.master level).mp hon) hgenuine
      have hprev := on_latch_previous_iff s.master irq 2 level
      rw [if_neg hne] at hprev
      exact Bool.eq_iff_iff.mpr hprev
  | poll irq hop hirq =>
    refine hs.of_master rfl ?_ (fun hon => ?_) hgenuine
    · change ((Controller.acknowledge _ irq).previousIRR).getLsbD 2 = _
      rw [acknowledge_eq]
      rfl
    · exact ((on_acknowledge_irr_iff _ irq 2).mp hon).1
  | initialise hop hicw1 =>
    have hnone := hl.initialise hicw1
    refine ⟨hs.output, ?_, fun hon => ?_, hgenuine⟩
    · refine Eq.trans ?_ hs.output.symm
      rw [hnone]
      exact BitVec.getLsbD_zero
    · exact absurd hon ((eq_zero_iff 0).mp rfl 2)
  | mask | ended | rotate => exact hs.of_master rfl rfl id hgenuine

theorem coherent_finishes (hs : Coherent u) (h : Finishes chip u t) : Coherent t := by
  obtain ⟨initState, is4ByteInit, rfl⟩ := h
  cases chip with
  | master => exact hs.of_master rfl rfl id hs.genuine
  | slave =>
    have hget : getIRQ .slave { u.slave with initState := initState, is4ByteInit := is4ByteInit } =
        u.getIRQ .slave := getIRQ_slave_congr ⟨rfl, rfl, rfl, rfl, rfl, rfl⟩ rfl
    exact ⟨hs.output.trans (congrArg Option.isSome hget.symm), hs.remembered,
      fun hon => (congrArg Option.isSome hget).trans (hs.request hon), hs.genuine⟩

/-- An operation that does not part the link keeps it. -/
theorem step_coherent (hs : Coherent s) (hl : Linked s op) (h : step s op = some t) : Coherent t := by
  cases step_effect h with
  | settings chip _ hlines hmask => exact coherent_settings hs hl hlines hmask
  | update chip hcause hu hend =>
    refine coherent_finishes ?_ hend
    cases chip with
    | master => exact coherent_updateIRQ hu (coherent_cause hs hl hcause)
    | slave =>
      have hmore := updateIRQ_succ hu
      rw [updateIRQ_slave] at hmore
      exact coherent_updateIRQ hmore (coherent_cascaded (genuine_cause hs.genuine hcause))

/-- Line 2 of the master is driven to another level than the output of the slave. -/
theorem not_coherent_of_request {level : Bool}
    (hop : presented op = some (.master, 2, level)) (hne : level ≠ (s.getIRQ .slave).isSome)
    (h : step s op = some t) : ¬ Coherent t := by
  refine (parted_updateIRQ (step_presented hop h) ⟨?_, fun hon => ?_⟩).not_coherent
  · have hprev : On (s.master.latch 2 level).previousIRR 2 ↔ level = true := by
      rw [on_latch_previous_iff, if_pos rfl]
    rw [show (s.set .master ((s.get .master).latch 2 level)).master.previousIRR.getLsbD 2 = level from
      Bool.eq_iff_iff.mpr hprev]
    exact hne
  · change On (s.master.latch 2 level).irr 2 at hon
    cases level with
    | false => exact absurd hon (not_on_latch_irr s.master 2)
    | true =>
      have hlow : ¬ (s.getIRQ .slave).isSome = true := fun hsome => hne hsome.symm
      exact Option.not_isSome_iff_eq_none.mp hlow

/-- The master forgets a level that is high. -/
theorem not_coherent_of_icw1 (hop : Icw1 .master op) (hne : s.getIRQ .slave ≠ none)
    (h : step s op = some t) : ¬ Coherent t := by
  obtain ⟨u, hu, initState, is4ByteInit, rfl⟩ := step_icw1 hop h
  have hparted : Parted u := by
    refine parted_updateIRQ hu ⟨?_, fun hon => absurd hon ((eq_zero_iff 0).mp rfl 2)⟩
    have hsome : (s.getIRQ .slave).isSome = true := Option.isSome_iff_ne_none.mpr hne
    change (0 : Byte).getLsbD 2 ≠ (s.getIRQ .slave).isSome
    rw [hsome]
    decide
  exact Parted.not_coherent hparted

/-- The special mask is changed without a call of `UpdateIRQ`. -/
theorem not_coherent_of_ocw3 (hs : Coherent s) {value : Word} (hop : Ocw3 .slave op value)
    (hne : (getIRQ .slave (s.slave.ocw3 value)).isSome ≠ (s.getIRQ .slave).isSome)
    (h : step s op = some t) : ¬ Coherent t := by
  obtain rfl := step_ocw3 hop h
  exact fun ht => hne (ht.output.symm.trans hs.output)

/-- The operations that keep the link are those that do not part it. -/
theorem step_coherent_iff (hedge : CascadeEdge s) (hs : Coherent s) (op : Op) :
    (∀ t, step s op = some t → Coherent t) ↔ (Returns s op → Linked s op) := by
  constructor
  · rintro hkeep ⟨depth, hret⟩
    obtain ⟨t, ht⟩ := Option.isSome_iff_exists.mp hret
    have hstep := (step_eq_some_iff hedge op).mpr ⟨depth, ht⟩
    have hcoherent := hkeep t hstep
    refine ⟨fun level hop => ?_, fun hop => ?_, fun value hop => ?_⟩
    · by_contra hne
      exact not_coherent_of_request hop hne hstep hcoherent
    · by_contra hne
      exact not_coherent_of_icw1 hop hne hstep hcoherent
    · by_contra hne
      exact not_coherent_of_ocw3 hs hop hne hstep hcoherent
  · intro hl t ht
    exact step_coherent hs (hl ⟨callDepth, Option.isSome_iff_exists.mpr ⟨t, ht⟩⟩) ht

end Operations

theorem initial_coherent : Coherent .initial := by decide

/-- In every run of requests and accesses from reset on, the link of the cascade agrees with
the slave after each operation, and no spurious vector of the slave is passed to the CPU,
exactly when no operation that returns parts the two. -/
theorem cascade_coherent_iff (ops : List Op) :
    Always step Coherent .initial ops ↔
      Guarded step (fun s op => Returns s op → Linked s op) .initial ops :=
  always_iff_guarded_of (fun _ _ _ => step_keeps) (fun _ op hedge hs => step_coherent_iff hedge hs op)
    initial_keeps initial_coherent

/-- Both controllers initialised; line 8 is in service, and line 9 is pending behind it. -/
def behindService : List Op :=
  [.ioWrite 0x20 0x11, .ioWrite 0x21 0x08, .ioWrite 0x21 0x04, .ioWrite 0x21 0x01,
    .ioWrite 0xA0 0x11, .ioWrite 0xA1 0x70, .ioWrite 0xA1 0x02, .ioWrite 0xA1 0x01,
    .handleIRQ 8 true, .ioWrite 0xA1 0x01, .handleIRQ 9 true]

/-- The special mask lets line 9 through; nobody tells the master. -/
theorem special_mask_parts : ¬ Always step Coherent .initial (behindService ++ [.ioWrite 0xA0 0x68]) := by
  decide

end OpenXbox.Pic.CascadeLink
