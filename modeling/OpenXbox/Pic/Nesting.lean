import OpenXbox.Pic.DeliveryOrder
import OpenXbox.Pic.InService

/-!
# Nested interrupts

In fully nested mode the cascade acknowledges a line of the slave at most, and then a
line of the master. An acknowledgement of the slave puts no line of the master in
service, so lines 3 to 7 of the master are not held back by the slave's, and an end of
interrupt for line 2 of the master ends one of them: an operation is fully nested exactly
when it does not come to one of these lines while there is one in service before it.
-/

namespace OpenXbox.Pic.Nesting

open OpenXbox.Lib.Run OpenXbox.Pic.Device OpenXbox.Pic.Priority OpenXbox.Pic.Acknowledge
  OpenXbox.Pic.Cascade OpenXbox.Pic.Termination OpenXbox.Pic.DeliveryOrder OpenXbox.Pic.InService

/-! ## Deliveries -/

/-- A line of the slave is in service, or one of the master that does not come behind this one; lines 0
and 1 apart. -/
def Conflicts (held : Service) (n : Line) : Prop :=
  (∃ k, held .slave k = true) ∨ ∃ m, 2 ≤ m ∧ m ≤ n ∧ held .master m = true

/-- The first line of the master that can be delivered, line 2 apart, is one of 3 to 7 with a line in
service before it, and no spurious interrupt of the slave keeps the cascade from it. -/
def Overtakes (held : Service) (s : State) : Prop :=
  ∃ n, 2 < n ∧ Deliverable .master s.master n ∧ Conflicts held n ∧
    (∀ m, m < n → m ≠ 2 → ¬ Deliverable .master s.master m) ∧
    (Deliverable .master s.master 2 → ∃ k, Deliverable .slave s.slave k)

instance (held : Service) (n : Line) : Decidable (Conflicts held n) :=
  inferInstanceAs (Decidable ((∃ _ : Line, _) ∨ ∃ _ : Line, _ ∧ _ ∧ _))

instance (held : Service) (s : State) : Decidable (Overtakes held s) :=
  inferInstanceAs (Decidable (∃ _ : Line, _ ∧ _ ∧ _ ∧ (∀ _ : Line, _ → _ → _) ∧
    (_ → ∃ _ : Line, _)))

section Leads

variable {s : State} {held : Service}

/-- A line of the master leads those that hold it back in its registers, and the others unless there is
a conflict. -/
theorem leads_master_iff (hm : Nominal s.master) (hc : Covers held (service s)) {n : Line}
    (hn : Deliverable .master s.master n) (h2 : n ≠ 2) :
    Leads held .master n ↔ (2 < n → ¬ Conflicts held n) := by
  have hown := ((hm.deliverable_iff n).mp hn).2
  constructor
  · rintro h hgt (⟨k, hk⟩ | ⟨m, -, hle, hon⟩)
    · exact absurd ((rank_master_slave_iff n k).mp (h .slave k hk)) (not_lt.mpr hgt.le)
    · exact absurd ((rank_master_iff n m).mp (h .master m hon)) (not_lt.mpr hle)
  · intro h other m hon
    cases other with
    | master =>
      refine (rank_master_iff n m).mpr ?_
      by_contra hge
      have hle : m ≤ n := not_lt.mp hge
      by_cases hfirst : m < 2
      · exact hge (hown m (hc.first m hfirst hon))
      · have hm2 : 2 ≤ m := not_lt.mp hfirst
        exact h (lt_of_le_of_ne (hm2.trans hle) h2.symm) (.inr ⟨m, hm2, hle, hon⟩)
    | slave =>
      refine (rank_master_slave_iff n m).mpr ?_
      by_contra hge
      exact h (lt_of_le_of_ne (not_lt.mp hge) h2.symm) (.inl ⟨m, hon⟩)

/-- A line of the slave leads all that line 2 and the line itself come before. -/
theorem leads_slave (hm : Nominal s.master) (hs : Nominal s.slave) (hc : Covers held (service s))
    (h2 : Deliverable .master s.master 2) {k : Line} (hk : Deliverable .slave s.slave k) :
    Leads held .slave k := by
  intro other m hon
  cases other with
  | master =>
    refine (rank_slave_master_iff k m).mpr ?_
    by_contra hlt
    have hfirst : m < 2 := not_le.mp hlt
    exact lt_asymm hfirst (((hm.deliverable_iff 2).mp h2).2 m (hc.first m hfirst hon))
  | slave =>
    have hreg : service s .slave m = true := (hc.slave m).symm.trans hon
    exact (rank_slave_iff k m).mpr (((hs.deliverable_iff k).mp hk).2 m hreg)

end Leads

section Master

variable {s : State} {n : Line}

/-- A line of the master is passed to the CPU, and no other with it. -/
theorem updateIRQ_master (hm : Nominal s.master) (hd : delivery s = .acknowledge .master n)
    (depth : Nat) : ∃ t base, updateIRQ (depth + 2) s .master = some t ∧
      t.events = s.events ++ [.acknowledge .master n, .interrupt ⟨.master, n, base, false⟩] ∧
      service t = (service s).put .master n true := by
  obtain ⟨hn, h2⟩ := delivery_master_iff.mp hd
  have hout : Nominal (withOutput s.master (s.getIRQ .master).isSome) := hm.of_mode rfl
  have hnone : getIRQ .master (follow s .master n).master = none :=
    hout.getIRQ_acknowledge hn fun _ => h2
  refine ⟨interrupted ((follow s .master n).output .master) .master n,
    (follow s .master n).master.base, ?_, ?_, ?_⟩
  · rw [updateIRQ_master_request hd, updateIRQ_quiet (delivery_quiet_iff.mpr hnone)]
    rfl
  · exact List.append_assoc s.events [.acknowledge .master n] [_]
  · have hack : service (acknowledged (s.output .master) .master n) =
        (service (s.output .master)).put .master n true :=
      service_acknowledged (s.output .master) .master hm.autoEOI n
    rw [service_output] at hack
    exact (service_output (follow s .master n) .master).trans hack

/-- It leads the lines in service unless there is a conflict. -/
theorem traced_master (hm : Nominal s.master) {held : Service} (hc : Covers held (service s))
    (hd : delivery s = .acknowledge .master n) (depth : Nat) :
    ∃ t held', updateIRQ (depth + 2) s .master = some t ∧ Covers held' (service t) ∧
      Traced s held t held' (2 < n → ¬ Conflicts held n) := by
  obtain ⟨t, base, ht, he, hs⟩ := updateIRQ_master hm hd depth
  obtain ⟨hn, h2⟩ := delivery_master_iff.mp hd
  refine ⟨t, held.deliver .master n, ht, hs ▸ hc.deliver .master n, _, he, rfl, ?_⟩
  rw [← leads_master_iff hm hc (getIRQ_eq_some_iff.mp hn).1 h2]
  simp [guarded_listen_cons, Admits, track]

end Master

section Slave

variable {s : State} {k : Line}

/-- After an acknowledgement of the slave its output is low: line 2 of the master has no
request any more, and nothing else has changed there. -/
theorem follow_slave_spec (hm : Nominal s.master) (hs : Nominal s.slave)
    (hd : delivery s = .acknowledge .slave k) :
    Nominal (follow s .slave k).master ∧ getIRQ .slave (follow s .slave k).slave = none ∧
      (follow s .slave k).events = s.events ++ [.acknowledge .slave k] ∧
      service (follow s .slave k) = (service s).put .slave k true ∧
      ∀ m, Deliverable .master (follow s .slave k).master m ↔
        Deliverable .master s.master m ∧ m ≠ 2 := by
  obtain ⟨h2, hk⟩ := delivery_slave_iff.mp hd
  have hout : Nominal (withOutput s.master (s.getIRQ .master).isSome) := hm.of_mode rfl
  have hnone : getIRQ .slave (s.slave.acknowledge k) = none :=
    hs.getIRQ_acknowledge hk fun h => by cases h
  have hmaster : (follow s .slave k).master =
      (withOutput s.master (s.getIRQ .master).isSome).latch 2 false := by
    rw [(follow_slave k).1, hnone]
    rfl
  have hedge : ¬ On s.master.elcr 2 := by
    rw [hm.edge]
    decide
  have hon : On s.master.irr 2 :=
    ((on_pending_iff s.master 2).mp (getIRQ_eq_some_iff.mp h2).1.1).1
  refine ⟨?_, ?_, rfl, ?_, fun m => ?_⟩
  · rw [hmaster]
    exact hout.of_mode (mode_latch _ 2 false)
  · rw [(follow_slave k).2]
    exact hnone
  · have hack : service (acknowledged (s.output .master) .slave k) =
        (service (s.output .master)).put .slave k true :=
      service_acknowledged (s.output .master) .slave hs.autoEOI k
    rw [service_output] at hack
    exact (service_cascaded _).trans hack
  · rw [hmaster]
    refine (deliverable_latch_iff (c := withOutput s.master (s.getIRQ .master).isSome) hedge hon false
      m).trans ?_
    exact and_congr Iff.rfl ⟨fun h hm2 => Bool.false_ne_true (h hm2), fun h hm2 => absurd hm2 h⟩

/-- A line of the slave is passed to the CPU; a line of the master that can be delivered
is passed before it. -/
theorem traced_slave (hm : Nominal s.master) (hs : Nominal s.slave) {held : Service}
    (hc : Covers held (service s)) (hd : delivery s = .acknowledge .slave k) (depth : Nat) :
    ∃ t held', updateIRQ (depth + 4) s .master = some t ∧ Covers held' (service t) ∧
      Traced s held t held' (¬ Overtakes held s) := by
  obtain ⟨h2, hk⟩ := delivery_slave_iff.mp hd
  obtain ⟨hfm, hnone, hev, hserv, hdel⟩ := follow_slave_spec hm hs hd
  have hd2 := (getIRQ_eq_some_iff.mp h2).1
  have hlead := leads_slave hm hs hc hd2 (getIRQ_eq_some_iff.mp hk).1
  cases hf : delivery (follow s .slave k) with
  | quiet =>
    have hall := getIRQ_eq_none_iff.mp (delivery_quiet_iff.mp hf)
    have hno : ¬ Overtakes held s := by
      rintro ⟨n, hgt, hn, -⟩
      exact hall n ((hdel n).mpr ⟨hn, ne_of_gt hgt⟩)
    refine ⟨interrupted ((follow s .slave k).output .master) .slave k, held.deliver .slave k, ?_, ?_,
      [.acknowledge .slave k, .interrupt ⟨.slave, k, (follow s .slave k).slave.base, false⟩],
      ?_, rfl, ?_⟩
    · rw [updateIRQ_slave_request hd, updateIRQ_quiet hf]
      rfl
    · have hsame : service (interrupted ((follow s .slave k).output .master) .slave k) =
          (service s).put .slave k true := (service_output _ .master).trans hserv
      rw [hsame]
      exact hc.deliver .slave k
    · exact List.append_assoc s.events [.acknowledge .slave k] [_]
    · simp [guarded_listen_cons, Admits, track, hlead, hno]
  | spurious =>
    have hlink := (hdel 2).mp (getIRQ_eq_some_iff.mp (delivery_spurious_iff.mp hf).1).1
    exact absurd rfl hlink.2
  | acknowledge chip n =>
    cases chip with
    | slave =>
      have hlink := (hdel 2).mp (getIRQ_eq_some_iff.mp (delivery_slave_iff.mp hf).1).1
      exact absurd rfl hlink.2
    | master =>
      obtain ⟨t, base, ht, he, hst⟩ := updateIRQ_master hfm hf depth
      obtain ⟨hirq, -⟩ := delivery_master_iff.mp hf
      obtain ⟨hn, hn2⟩ := (hdel n).mp (getIRQ_eq_some_iff.mp hirq).1
      have hgt : 2 < n := lt_of_le_of_ne (not_lt.mp fun hlt => hm.not_pending h2 hlt hn.1) hn2.symm
      refine ⟨interrupted t .slave k, (held.deliver .master n).deliver .slave k, ?_, ?_,
        [.acknowledge .slave k, .acknowledge .master n, .interrupt ⟨.master, n, base, false⟩,
          .interrupt ⟨.slave, k, t.slave.base, false⟩], ?_, rfl, ?_⟩
      · rw [updateIRQ_slave_request hd, ht]
        rfl
      · have hsame : service (interrupted t .slave k) =
            ((service s).put .master n true).put .slave k true := by
          rw [Service.put_comm (Chip.noConfusion : Chip.master ≠ .slave), ← hserv]
          exact hst
        rw [hsame]
        exact (hc.deliver .master n).deliver .slave k
      · rw [interrupted, State.log, he, hev]
        simp [State.get]
      · have hsecond : Leads (held.deliver .master n) .slave k :=
          hlead.put ((rank_slave_master_iff k n).mpr hgt.le)
        -- the nested call comes to the first line behind line 2
        have hfirst : ¬ Overtakes held s ↔ ¬ Conflicts held n := by
          refine not_congr ⟨?_, fun hconf => ⟨n, hgt, hn, hconf, fun m hlt hm2 hdm => ?_, fun _ =>
            ⟨k, (getIRQ_eq_some_iff.mp hk).1⟩⟩⟩
          · rintro ⟨m, hmgt, hmd, hconf, hbefore, -⟩
            have hle : m ≤ n := not_lt.mp fun hlt => hbefore n hlt hn2 hn
            have hge : n ≤ m := not_lt.mp fun hlt =>
              hfm.not_pending hirq hlt ((hdel m).mpr ⟨hmd, ne_of_gt hmgt⟩).1
            rwa [le_antisymm hge hle]
          · exact hfm.not_pending hirq hlt ((hdel m).mpr ⟨hdm, hm2⟩).1
        have hadmit : Leads held .master n ↔ ¬ Overtakes held s := by
          rw [leads_master_iff hm hc hn hn2, hfirst]
          exact ⟨fun h => h hgt, fun h _ => h⟩
        simp [guarded_listen_cons, Admits, track, hsecond, hadmit]

end Slave

section Cascade

variable {s : State} {held : Service}

theorem overtakes_of_master (hm : Nominal s.master) {n : Line} (hn : getIRQ .master s.master = some n)
    (h2 : n ≠ 2) : (2 < n → ¬ Conflicts held n) ↔ ¬ Overtakes held s := by
  have hd := (getIRQ_eq_some_iff.mp hn).1
  constructor
  · rintro hno ⟨m, hgt, hmd, hconf, hbefore, -⟩
    have hge : n ≤ m := not_lt.mp fun hlt => hm.not_pending hn hlt hmd.1
    have hle : m ≤ n := not_lt.mp fun hlt => hbefore n hlt h2 hd
    obtain rfl : n = m := le_antisymm hge hle
    exact hno hgt hconf
  · intro hno hgt hconf
    refine hno ⟨n, hgt, hd, hconf, fun m hlt _ hdm => hm.not_pending hn hlt hdm.1, fun hd2 => ?_⟩
    exact absurd hd2.1 (hm.not_pending hn hgt)

/-- A cascade is fully nested unless a line of the master overtakes one in service. -/
theorem traced_cascade (hm : Nominal s.master) (hs : Nominal s.slave) (hc : Covers held (service s))
    (depth : Nat) : ∃ t held', updateIRQ (depth + 4) s .master = some t ∧ Covers held' (service t) ∧
      Traced s held t held' (¬ Overtakes held s) := by
  cases hd : delivery s with
  | quiet =>
    have hno : ¬ Overtakes held s := by
      rintro ⟨n, -, hn, -⟩
      exact getIRQ_eq_none_iff.mp (delivery_quiet_iff.mp hd) n hn
    have hsilent : Traced s held (s.output .master) held True := Traced.silent rfl held
    exact ⟨s.output .master, held, updateIRQ_quiet hd _, service_output s .master ▸ hc,
      hsilent.congr (iff_of_true trivial hno)⟩
  | spurious =>
    obtain ⟨h2, hnone⟩ := delivery_spurious_iff.mp hd
    have hno : ¬ Overtakes held s := by
      rintro ⟨-, -, -, -, -, hslave⟩
      obtain ⟨k, hk⟩ := hslave (getIRQ_eq_some_iff.mp h2).1
      exact getIRQ_eq_none_iff.mp hnone k hk
    refine ⟨_, held, updateIRQ_spurious hd _, service_output s .master ▸ hc, [_], rfl, rfl, ?_⟩
    simp [guarded_listen_cons, Admits, hno]
  | acknowledge chip n =>
    cases chip with
    | master =>
      obtain ⟨hn, h2⟩ := delivery_master_iff.mp hd
      obtain ⟨t, held', ht, hc', htraced⟩ := traced_master hm hc hd (depth + 2)
      exact ⟨t, held', ht, hc', htraced.congr (overtakes_of_master hm hn h2)⟩
    | slave => exact traced_slave hm hs hc hd depth

end Cascade

/-! ## Accesses -/

/-- Both controllers are in fully nested mode. -/
def NominalPair (s : State) : Prop := Nominal s.master ∧ Nominal s.slave

instance (s : State) : Decidable (NominalPair s) := inferInstanceAs (Decidable (_ ∧ _))

/-- The state of the call of `UpdateIRQ(PIC_MASTER)`. -/
def called (s : State) : Chip → State
  | .master => s
  | .slave => cascaded s

/-- The cascade that an access starts overtakes, after what the access itself has done to the lines in
service. -/
def Overtaking {α : Type} (s : State) (held : Service) : Access α → Prop
  | .done _ _ => False
  | .update u chip _ => Overtakes ((logged s u).foldl track held) (called u chip)

instance {α : Type} (s : State) (held : Service) (a : Access α) : Decidable (Overtaking s held a) :=
  match a with
  | .done _ _ => inferInstanceAs (Decidable False)
  | .update _ _ _ => inferInstanceAs (Decidable (Overtakes _ _))

theorem nominal_called {s : State} (h : NominalPair s) (chip : Chip) : NominalPair (called s chip) := by
  cases chip with
  | master => exact h
  | slave => exact ⟨h.1.of_mode (mode_latch s.master 2 _), h.2.of_mode rfl⟩

theorem service_called (s : State) (chip : Chip) : service (called s chip) = service s := by
  cases chip with
  | master => rfl
  | slave => exact service_cascaded s

theorem traced_update {s t : State} {chip : Chip} (hs : NominalPair s) {held : Service}
    (hc : Covers held (service s)) (h : updateIRQ callDepth s chip = some t) :
    ∃ held', Covers held' (service t) ∧ Traced s held t held' (¬ Overtakes held (called s chip)) := by
  obtain ⟨hm, hsl⟩ := nominal_called hs chip
  have hc' : Covers held (service (called s chip)) := service_called s chip ▸ hc
  cases chip with
  | master =>
    obtain ⟨u, held', hu, hcovers, htraced⟩ := traced_cascade hm hsl hc' 77
    obtain rfl : u = t := Option.some.inj (hu.symm.trans h)
    exact ⟨held', hcovers, htraced⟩
  | slave =>
    obtain ⟨u, held', hu, hcovers, htraced⟩ := traced_cascade hm hsl hc' 76
    rw [callDepth, updateIRQ_slave] at h
    obtain rfl : u = t := Option.some.inj (hu.symm.trans h)
    exact ⟨held', hcovers, htraced⟩

/-- No controller is in automatic EOI mode. -/
def Manual (s : State) : Prop := ∀ chip, (s.get chip).autoEOI = false

/-- Nothing is logged, and the same lines stay in service. -/
def Silent (s t : State) : Prop := t.events = s.events ∧ ∀ chip, (t.get chip).isr = (s.get chip).isr

def SameMode (s t : State) : Prop := ∀ chip, mode (t.get chip) = mode (s.get chip)

/-- What an access has done before the cascade is accounted for, no interrupt among it; what it does
after that is of no account. `held` is what the command has left in service. -/
def Accounts {α : Type} (held : Service) (s : State) : Access α → Prop
  | .done _ t => t.events = s.events ∧ Covers held (service t)
  | .update t _ after =>
    (∃ held', Traced s held t held' True ∧ Covers held' (service t)) ∧ Manual t ∧
      ∀ u, Silent u (after u).2 ∧ SameMode u (after u).2

theorem Silent.refl (s : State) : Silent s s := ⟨rfl, fun _ => rfl⟩

theorem Silent.trans {s t u : State} (h : Silent s t) (h' : Silent t u) : Silent s u :=
  ⟨h'.1.trans h.1, fun chip => (h'.2 chip).trans (h.2 chip)⟩

theorem Silent.covers {s t : State} {held : Service} (h : Silent s t) (hc : Covers held (service s)) :
    Covers held (service t) := (service_congr h.2).symm ▸ hc

theorem silent_set (s : State) (chip : Chip) {c : Controller} (h : c.isr = (s.get chip).isr) :
    Silent s (s.set chip c) := by
  refine ⟨by cases chip <;> rfl, fun other => ?_⟩
  rw [get_set]
  split
  · next heq => rw [heq, h]
  · rfl

theorem SameMode.trans {s t u : State} (h : SameMode s t) (h' : SameMode t u) : SameMode s u :=
  fun chip => (h' chip).trans (h chip)

theorem SameMode.symm {s t : State} (h : SameMode s t) : SameMode t s := fun chip => (h chip).symm

theorem sameMode_set (s : State) (chip : Chip) {c : Controller} (h : mode c = mode (s.get chip)) :
    SameMode s (s.set chip c) := by
  intro other
  rw [get_set]
  split
  · next heq => rw [heq, h]
  · rfl

theorem Manual.set {s : State} (hs : Manual s) (chip : Chip) {c : Controller}
    (h : c.autoEOI = false) : Manual (s.set chip c) := by
  intro other
  rw [get_set]
  split
  · exact h
  · exact hs other

theorem Manual.acknowledged {s : State} (hs : Manual s) (chip : Chip) (irq : Line) :
    Manual (acknowledged s chip irq) := by
  intro other
  have hauto : ((s.get chip).acknowledge irq).autoEOI = false := by
    rw [acknowledge_eq]
    exact hs chip
  exact hs.set chip hauto other

/-- A polled line is in service as well. -/
theorem traced_polled {s : State} (hs : Manual s) {held : Service} (hc : Covers held (service s))
    (chip : Chip) (irq : Line) :
    (∃ held', Traced s held (acknowledged (s.log (.polled chip irq)) chip irq) held' True ∧
        Covers held' (service (acknowledged (s.log (.polled chip irq)) chip irq))) ∧
      Manual (acknowledged (s.log (.polled chip irq)) chip irq) := by
  have hlogged : Manual (s.log (.polled chip irq)) := hs
  have hack := service_acknowledged (s.log (.polled chip irq)) chip (hlogged chip) irq
  refine ⟨⟨held.put chip irq true, ⟨[.polled chip irq, .acknowledge chip irq], ?_, rfl, ?_⟩, ?_⟩,
    hlogged.acknowledged chip irq⟩
  · have hassoc := List.append_assoc s.events [.polled chip irq] [.acknowledge chip irq]
    cases chip with
    | master => exact hassoc
    | slave => exact hassoc
  · simp [guarded_listen_cons, Admits]
  · exact hack ▸ hc.put chip irq true

section Results

variable {α β : Type} {held : Service} {s : State} {a : Access α}

theorem Accounts.andThen {f : α → State → β × State} (h : Accounts held s a)
    (hf : ∀ r t, Silent t (f r t).2 ∧ SameMode t (f r t).2) : Accounts held s (a.andThen f) := by
  cases a with
  | done r t =>
    obtain ⟨hsilent, -⟩ := hf r t
    exact ⟨hsilent.1.trans h.1, hsilent.covers h.2⟩
  | update t chip after =>
    refine ⟨h.1, h.2.1, fun u => ?_⟩
    obtain ⟨hsilent, hmode⟩ := h.2.2 u
    obtain ⟨hsilent', hmode'⟩ := hf (after u).1 (after u).2
    exact ⟨hsilent.trans hsilent', hmode.trans hmode'⟩

/-- A result on top of an access does nothing to the state. -/
theorem Accounts.result {f : α → β} (h : Accounts held s a) :
    Accounts held s (a.andThen fun r t => (f r, t)) :=
  h.andThen fun _ t => ⟨.refl t, fun _ => rfl⟩

theorem accounts_silent {t : State} (hc : Covers held (service s)) (h : Silent s t) (r : α) :
    Accounts held s (.done r t) := ⟨h.1, h.covers hc⟩

end Results

section Accounts

variable {s : State} {held : Service} (hs : NominalPair s) (hc : Covers held (service s))

theorem NominalPair.get (hs : NominalPair s) (chip : Chip) : Nominal (s.get chip) := by
  cases chip with
  | master => exact hs.1
  | slave => exact hs.2

theorem NominalPair.manual (hs : NominalPair s) : Manual s := fun chip => (hs.get chip).autoEOI

include hc in
theorem settings_accounts (chip : Chip) {c : Controller} (h : c.isr = (s.get chip).isr) :
    Accounts held s (.done () (s.set chip c)) := accounts_silent hc (silent_set s chip h) ()

include hc in
/-- A change that nothing is logged of. -/
theorem accounts_change {t : State} (chip : Chip) (h : Silent s t) (hmanual : Manual t) :
    Accounts held s (.update t chip fun u => ((), u)) :=
  ⟨⟨held, Traced.silent h.1 held, h.covers hc⟩, hmanual, fun u => ⟨.refl u, fun _ => rfl⟩⟩

include hs in
/-- A command that clears an in-service bit. -/
theorem ended_accounts {held' : Service} {chip : Chip} {irq : Line}
    (h : Covers held' (service (s.endService chip irq))) :
    Accounts held' s (.update (s.endService chip irq) chip fun u => ((), u)) := by
  refine ⟨⟨held', ⟨[.ended chip irq], by cases chip <;> rfl, rfl, ?_⟩, h⟩,
    hs.manual.set chip (hs.manual chip), fun u => ⟨.refl u, fun _ => rfl⟩⟩
  simp [guarded_listen_cons, Admits]

include hs in
/-- The same with a rotation. -/
theorem rotated_accounts {held' : Service} {chip : Chip} {irq : Line} (add : Line)
    (h : Covers held' (service (s.endService chip irq))) :
    Accounts held' s (.update ((s.endService chip irq).rotate chip add) chip fun u => ((), u)) := by
  obtain ⟨-, hmanual, hafter⟩ := ended_accounts hs h
  have hrotate : Silent (s.endService chip irq) ((s.endService chip irq).rotate chip add) :=
    silent_set _ chip rfl
  refine ⟨⟨held', ⟨[.ended chip irq], by cases chip <;> rfl, rfl, ?_⟩, hrotate.covers h⟩,
    hmanual.set chip (hmanual chip), hafter⟩
  simp [guarded_listen_cons, Admits]

include hs hc

theorem setIRQ_accounts (chip : Chip) (index : Line) (asserted : Bool) :
    Accounts held s (setIRQ s chip index asserted) :=
  accounts_change hc chip (silent_set s chip (latch_isr _ index asserted))
    (hs.manual.set chip ((latch_holding _ index asserted .master).2.2.2.1.trans (hs.manual chip)))

theorem poll_accounts (chip : Chip) : Accounts held s (poll s chip) := by
  have hsilent : Silent s (s.set chip { s.get chip with poll := false }) := silent_set s chip rfl
  have hmanual : Manual (s.set chip { s.get chip with poll := false }) :=
    hs.manual.set chip (hs.manual chip)
  rw [poll]
  dsimp only
  split
  · next irq _ =>
    obtain ⟨⟨held', htraced, hcovers⟩, hpolled⟩ := traced_polled hmanual (hsilent.covers hc) chip irq
    have hquiet : Traced s held (s.set chip { s.get chip with poll := false }) held True :=
      Traced.silent hsilent.1 held
    exact Accounts.result ⟨⟨held', hquiet.after_silent htraced, hcovers⟩, hpolled,
      fun u => ⟨.refl u, fun _ => rfl⟩⟩
  · exact accounts_silent hc hsilent 0

theorem commandRead_accounts (chip : Chip) : Accounts held s (commandRead s chip) := by
  rw [commandRead]
  split
  · exact poll_accounts hs hc chip
  · exact accounts_silent hc (.refl s) _

theorem dataRead_accounts (chip : Chip) : Accounts held s (dataRead s chip) := by
  rw [dataRead]
  split
  · exact poll_accounts hs hc chip
  · exact accounts_silent hc (.refl s) _

/-- The line that is ended is the first in the register, or the one that is named. -/
theorem ocw2_accounts (chip : Chip) (value : Word) (command : Nat) :
    Accounts (held.ocw2 chip value command) s (ocw2 s chip value command) := by
  have hnamed (irq : Line) : Covers (held.put chip irq false) (service (s.endService chip irq)) :=
    service_endService s chip irq ▸ hc.put chip irq false
  have hfirst := hc.endFirst chip
  rw [ocw2.eq_def]
  split
  · show Accounts held s (.done () _)
    exact settings_accounts hc chip rfl
  · show Accounts held s (.done () _)
    exact settings_accounts hc chip rfl
  · dsimp only
    split
    · next hnone => exact ⟨rfl, service_endFirst_of_none hnone ▸ hfirst⟩
    · next hsome => exact ended_accounts hs (service_endFirst (hs.get chip) hsome ▸ hfirst)
  · dsimp only
    split
    · next hnone => exact ⟨rfl, service_endFirst_of_none hnone ▸ hfirst⟩
    · next hsome => exact rotated_accounts hs _ (service_endFirst (hs.get chip) hsome ▸ hfirst)
  · exact ended_accounts hs (hnamed _)
  · exact accounts_change hc chip (silent_set s chip rfl) (hs.manual.set chip (hs.manual chip))
  · exact rotated_accounts hs _ (hnamed _)
  · next h0 h4 h1 h5 h3 h6 h7 =>
    have hnone : held.ocw2 chip value command = held := by
      rw [Service.ocw2.eq_def]
      split
      · exact absurd rfl h1
      · exact absurd rfl h5
      · exact absurd rfl h3
      · exact absurd rfl h7
      · rfl
    rw [hnone]
    exact accounts_silent hc (.refl s) ()

theorem resetChip_accounts (chip : Chip) : Accounts held s (resetChip s chip) := by
  refine ⟨⟨_, ⟨[.reset chip], by cases chip <;> rfl, rfl, ?_⟩, ?_⟩, hs.manual.set chip rfl,
    fun u => ⟨.refl u, fun _ => rfl⟩⟩
  · simp [guarded_listen_cons, Admits]
  · have hsame : service ((s.set chip (.cleared (s.get chip).elcr)).log (.reset chip)) =
        track (service s) (.reset chip) := by
      funext other n
      have hget : (((s.set chip (.cleared (s.get chip).elcr)).log (.reset chip)).get other) =
          if other = chip then .cleared (s.get chip).elcr else s.get other := get_set s chip other _
      rw [service, hget]
      by_cases heq : other = chip
      · rw [if_pos heq]
        exact BitVec.getLsbD_zero.trans (if_pos heq).symm
      · rw [if_neg heq]
        exact (if_neg heq).symm
    rw [hsame]
    exact hc.reset chip

theorem commandWrite_accounts (chip : Chip) (value : Word) :
    Accounts (held.command chip value) s (commandWrite s chip value) := by
  rw [commandWrite, Service.command]
  split
  · exact (resetChip_accounts hs hc chip).andThen fun _ t =>
      ⟨silent_set t chip rfl, sameMode_set t chip rfl⟩
  split
  · exact settings_accounts hc chip rfl
  · exact ocw2_accounts hs hc chip value _

theorem dataWrite_accounts (chip : Chip) (value : Word) :
    Accounts held s (dataWrite s chip value) := by
  rw [dataWrite]
  split
  · exact accounts_change hc chip (silent_set s chip rfl) (hs.manual.set chip (hs.manual chip))
  · exact settings_accounts hc chip rfl
  · exact settings_accounts hc chip rfl
  · exact settings_accounts hc chip rfl

theorem access_accounts (op : Op) : Accounts (held.endBy op) s (access s op) := by
  cases op with
  | handleIRQ irqNum level =>
    refine Accounts.result ?_
    rw [handleIRQ]
    split
    · exact setIRQ_accounts hs hc .master _ level
    · exact setIRQ_accounts hs hc .slave _ level
  | ioRead port =>
    rw [access, ioRead]
    split
    · exact (commandRead_accounts hs hc .master).result
    split
    · exact (commandRead_accounts hs hc .slave).result
    split
    · exact (dataRead_accounts hs hc .master).result
    split
    · exact (dataRead_accounts hs hc .slave).result
    split
    · exact accounts_silent hc (.refl s) _
    split
    · exact accounts_silent hc (.refl s) _
    · exact accounts_silent hc (.refl s) _
  | ioWrite port value =>
    refine Accounts.result ?_
    rw [ioWrite, Service.endBy]
    split
    · exact commandWrite_accounts hs hc .master value
    split
    · exact commandWrite_accounts hs hc .slave value
    split
    · exact dataWrite_accounts hs hc .master value
    split
    · exact dataWrite_accounts hs hc .slave value
    split
    · exact settings_accounts hc .master rfl
    split
    · exact settings_accounts hc .slave rfl
    · exact accounts_silent hc (.refl s) ()

end Accounts

/-! ## Runs -/

section Step

variable {s t : State} {held : Service}

theorem NominalPair.of_mode (h : NominalPair s) (hm : SameMode s t) : NominalPair t :=
  ⟨h.1.of_mode (hm .master), h.2.of_mode (hm .slave)⟩

/-- The cascade keeps the mode of both controllers. -/
theorem updateIRQ_mode {depth : Nat} {chip : Chip} (hs : Manual s)
    (h : updateIRQ depth s chip = some t) : SameMode s t := by
  refine updateIRQ_invariant (I := SameMode s) ?_ ?_ ?_ ?_ h fun _ => rfl
  · intro u chip hu
    exact hu.trans (sameMode_set u chip rfl)
  · intro u e hu
    exact hu
  · intro u chip irq hu
    have hauto : (u.get chip).autoEOI = false := (congrArg Prod.fst (hu chip)).trans (hs chip)
    exact hu.trans (sameMode_set u chip (mode_acknowledge hauto irq))
  · intro u hu
    have hout : SameMode u (u.output .slave) := sameMode_set u .slave rfl
    exact (hu.trans hout).trans (sameMode_set (u.output .slave) .master (mode_latch u.master 2 _))

/-- In fully nested mode no cascade goes on for ever. -/
theorem not_lasting {α : Type} {a : Access α} (h : Accounts held s a) : ¬ Lasting a := by
  have hends (m sl : Controller) (hm : m.autoEOI = false) (hsl : sl.autoEOI = false) :
      ¬ Endless m sl := by
    intro h'
    rcases h' with ⟨-, -, hrep, -⟩ | ⟨hrep, -⟩
    · exact Bool.false_ne_true (hsl.symm.trans hrep.1)
    · exact Bool.false_ne_true (hm.symm.trans hrep.1)
  cases a with
  | done r t => exact id
  | update t chip after =>
    obtain ⟨-, hmanual, -⟩ := h
    cases chip with
    | master => exact hends _ _ (hmanual .master) (hmanual .slave)
    | slave =>
      have hlatch : (t.master.latch 2 (t.getIRQ .slave).isSome).autoEOI = false :=
        (latch_holding t.master 2 _ .master).2.2.2.1.trans (hmanual .master)
      exact hends (cascaded t).master (cascaded t).slave hlatch (hmanual .slave)

theorem step_returns (hs : NominalPair s) (hc : Covers held (service s)) (op : Op) :
    ∃ t, step s op = some t := by
  have hedge : CascadeEdge s := by
    rw [CascadeEdge, hs.1.edge]
    decide
  obtain ⟨r, hr⟩ := Option.isSome_iff_exists.mp
    (run_of_not_lasting (access_keeps hedge op) (not_lasting (access_accounts hs hc op)))
  exact ⟨r.2, Option.map_eq_some_iff.mpr ⟨r, hr, rfl⟩⟩

/-- An operation is fully nested exactly when it does not overtake. -/
theorem step_traced {op : Op} (hs : NominalPair s) (hc : Covers held (service s)) (ht : NominalPair t)
    (h : step s op = some t) : ∃ held', Covers held' (service t) ∧
      Traced s (held.endBy op) t held' (¬ Overtaking s (held.endBy op) (access s op)) := by
  obtain ⟨r, hr, rfl⟩ := Option.map_eq_some_iff.mp h
  have hacc := access_accounts hs hc op
  cases ha : access s op with
  | done v u =>
    rw [ha] at hr hacc
    obtain rfl := Option.some.inj hr
    exact ⟨held.endBy op, hacc.2, (Traced.silent hacc.1 _).congr (iff_of_true trivial id)⟩
  | update u chip after =>
    rw [ha] at hr hacc
    obtain ⟨⟨before, htraced, hcovers⟩, hmanual, hafter⟩ := hacc
    obtain ⟨w, hw, rfl⟩ := Option.map_eq_some_iff.mp hr
    obtain ⟨hsilent, hmode⟩ := hafter w
    -- the access may set the priorities, so the state of the call is known from the result
    have hnominal : NominalPair u :=
      ht.of_mode (((updateIRQ_mode hmanual hw).trans hmode).symm)
    obtain ⟨held', hcovers', hcascade⟩ := traced_update hnominal hcovers hw
    obtain ⟨es, hes, hbefore, hg⟩ := htraced
    rw [Overtaking, logged_eq hes, hbefore]
    have hall : Traced s (held.endBy op) w held' (¬ Overtakes before (called u chip)) :=
      Traced.after_silent ⟨es, hes, hbefore, hg⟩ hcascade
    exact ⟨held', hsilent.covers hcovers', hall.then_silent (Traced.silent hsilent.1 held')⟩

end Step

/-- An operation, and the lines in service. -/
def observe (x : State × Service) (op : Op) : Option (State × Service) :=
  (step x.1 op).map fun t => (t, (logged x.1 t).foldl track (x.2.endBy op))

/-- Every interrupt of an operation leads the lines that are in service when it is passed to the
CPU. -/
def Respects (x : State × Service) (op : Op) : Prop :=
  ∀ t, t ∈ step x.1 op → Guarded listen Admits (x.2.endBy op) (logged x.1 t)

instance (x : State × Service) (op : Op) : Decidable (Respects x op) :=
  inferInstanceAs (Decidable (∀ t, t ∈ step x.1 op → _))

/-- So does every interrupt of a run. -/
def FullyNested (ops : List Op) : Prop := Guarded observe Respects (.initial, .idle) ops

instance (ops : List Op) : Decidable (FullyNested ops) :=
  inferInstanceAs (Decidable (Guarded _ _ _ _))

/-- A run in fully nested mode returns, and its interrupts are fully nested exactly when
no operation overtakes. -/
theorem run_traced {s : State} {held : Service} {ops : List Op} (h : Always step NominalPair s ops)
    (hc : Covers held (service s)) : (∃ t, exec step s ops = some t) ∧
      (Guarded observe Respects (s, held) ops ↔
        Guarded observe (fun x op => ¬ Overtaking x.1 (x.2.endBy op) (access x.1 op)) (s, held) ops) := by
  induction ops generalizing s held with
  | nil => exact ⟨⟨s, rfl⟩, Iff.rfl⟩
  | cons op ops ih =>
    obtain ⟨hs, hnext⟩ := h
    obtain ⟨t, ht⟩ := step_returns hs hc op
    have hrest := hnext t ht
    obtain ⟨held', hcovers, es, hes, hheld, hnested⟩ := step_traced hs hc hrest.head ht
    obtain ⟨⟨u, hu⟩, hiff⟩ := ih hrest hcovers
    refine ⟨⟨u, by rw [exec_cons, ht, Option.bind_some, hu]⟩, ?_⟩
    have hobserve : observe (s, held) op = some (t, held') := by
      rw [observe, ht, Option.map_some, logged_eq hes, hheld]
    have hrespects : Respects (s, held) op ↔ Guarded listen Admits (held.endBy op) es := by
      rw [Respects, ht]
      simp [logged_eq hes]
    rw [Guarded, Guarded, hobserve, hrespects, hnested]
    simp [hiff]

/-- In every run of requests and accesses from reset on that stays in fully nested mode,
no interrupt is passed to the CPU while a line before it is in service, exactly when no
operation lets a line of the master overtake one that is in service. -/
theorem fully_nested_iff {ops : List Op} (h : Always step NominalPair .initial ops) :
    (∃ t, exec step .initial ops = some t) ∧
      (FullyNested ops ↔
        Guarded observe (fun x op => ¬ Overtaking x.1 (x.2.endBy op) (access x.1 op))
          (.initial, .idle) ops) := by
  refine run_traced h ⟨fun n => ?_, fun n hn => ?_, fun n _ hn => ?_⟩
  · exact BitVec.getLsbD_zero.symm
  · exact absurd (BitVec.getLsbD_zero.symm.trans hn) Bool.false_ne_true
  · exact absurd hn Bool.false_ne_true

/-- The controllers initialised as in a PC; then a request of the slave. -/
def slaveRequest : List Op :=
  [.ioWrite 0x20 0x11, .ioWrite 0x21 0x08, .ioWrite 0x21 0x04, .ioWrite 0x21 0x01,
    .ioWrite 0xA0 0x11, .ioWrite 0xA1 0x70, .ioWrite 0xA1 0x02, .ioWrite 0xA1 0x01,
    .handleIRQ 8 true]

/-- After the ends of interrupt for line 8 and for line 2 of the master, line 3 of the master is in
order, and line 1 in the midst of it. -/
theorem ended_fully_nested :
    FullyNested (slaveRequest ++
      [.ioWrite 0xA0 0x20, .ioWrite 0x20 0x20, .handleIRQ 3 true, .handleIRQ 1 true, .ioWrite 0x20 0x20]) :=
  (fully_nested_iff (by decide)).2.mpr (by decide +kernel)

/-- Before them, line 3 is passed to the CPU while line 8 is in service. -/
theorem slave_overtaken :
    Always step NominalPair .initial (slaveRequest ++ [.handleIRQ 3 true]) ∧
      ¬ FullyNested (slaveRequest ++ [.handleIRQ 3 true]) :=
  ⟨by decide, by decide +kernel⟩

/-- The end of interrupt for line 2 ends line 5 in its place, and line 6 is passed to the CPU. -/
example : ¬ FullyNested (.handleIRQ 5 true :: slaveRequest.drop 8 ++
    [.ioWrite 0xA0 0x20, .ioWrite 0x20 0x20, .handleIRQ 6 true]) := by decide +kernel

end OpenXbox.Pic.Nesting
