import OpenXbox.Lib.Run
import OpenXbox.Pic.Cascade

/-!
# Termination of the cascade

The cascade goes on for ever exactly when it comes to a level-triggered request that an
acknowledgement neither clears nor puts behind a line in service.
-/

namespace OpenXbox.Pic.Termination

open OpenXbox.Lib.Loop OpenXbox.Lib.Run OpenXbox.Pic.Device OpenXbox.Pic.Priority OpenXbox.Pic.Acknowledge
  OpenXbox.Pic.Cascade

/-! ## The link between the controllers -/

section Link

variable {c : Controller}

/-- Line 2 of the master follows the output of the slave; here its request is pending. -/
theorem on_latch_pending_iff (hedge : ¬ On c.elcr 2) (hon : On c.irr 2) (out : Bool) (m : Line) :
    On (c.latch 2 out).pending m ↔ On c.pending m ∧ (m = 2 → out = true) := by
  have hmode : ¬ (c.elcr &&& bit 2 ≠ 0) := not_not.mpr ((and_bit_eq_zero_iff _ _).mpr hedge)
  rw [Controller.latch]
  rw [if_neg hmode]
  cases out with
  | true =>
    have hsame : On (if c.previousIRR &&& bit 2 = 0 then c.irr ||| bit 2 else c.irr) m ↔ On c.irr m := by
      split
      · rw [on_set_iff]
        exact ⟨fun h => h.elim id fun hm => hm ▸ hon, .inl⟩
      · exact Iff.rfl
    rw [if_pos rfl, on_pending_iff, on_pending_iff, hsame]
    exact ⟨fun h => ⟨h, fun _ => rfl⟩, fun h => h.1⟩
  | false =>
    rw [if_neg Bool.false_ne_true, on_pending_iff, on_pending_iff, on_clear_iff]
    exact ⟨fun h => ⟨⟨h.1.1, h.2⟩, fun hm => absurd hm h.1.2⟩,
      fun h => ⟨⟨h.1.1, fun hm => Bool.false_ne_true (h.2 hm)⟩, h.1.2⟩⟩

/-- The other lines keep their requests. -/
theorem on_latch_irr_of_ne {n x : Line} (hx : x ≠ n) (c : Controller) (out : Bool) :
    On (c.latch n out).irr x ↔ On c.irr x := by
  have hset : On (c.irr ||| bit n) x ↔ On c.irr x := by
    rw [on_set_iff]
    exact or_iff_left hx
  have hclear : On (c.irr &&& ~~~bit n) x ↔ On c.irr x := by
    rw [on_clear_iff]
    exact and_iff_left hx
  rw [Controller.latch]
  split
  · split
    · exact hset
    · exact hclear
  · split
    · dsimp only
      split
      · exact hset
      · exact Iff.rfl
    · exact hclear

/-- The level of the line is remembered. -/
theorem on_latch_previous_iff (c : Controller) (n m : Line) (out : Bool) :
    On (c.latch n out).previousIRR m ↔ if m = n then out = true else On c.previousIRR m := by
  obtain ⟨irr, hlatch⟩ := latch_eq c n out
  rw [hlatch]
  cases out with
  | true =>
    rw [if_pos rfl, on_set_iff]
    by_cases hm : m = n
    · simp [hm]
    · simp [hm]
  | false =>
    rw [if_neg Bool.false_ne_true, on_clear_iff]
    by_cases hm : m = n
    · simp [hm]
    · simp [hm]

/-- A low level withdraws the request. -/
theorem not_on_latch_irr (c : Controller) (n : Line) : ¬ On (c.latch n false).irr n := by
  rw [latch_false, on_clear_iff]
  exact fun h => h.2 rfl

theorem latch_holding (c : Controller) (n : Line) (out : Bool) (chip : Chip) :
    (c.latch n out).holding chip = c.holding chip ∧ (c.latch n out).priorityAdd = c.priorityAdd ∧
      (c.latch n out).elcr = c.elcr ∧ (c.latch n out).autoEOI = c.autoEOI ∧
      (c.latch n out).rotateOnAutoEOI = c.rotateOnAutoEOI := by
  obtain ⟨irr, hlatch⟩ := latch_eq c n out
  rw [hlatch]
  exact ⟨rfl, rfl, rfl, rfl, rfl⟩

theorem deliverable_latch_iff (hedge : ¬ On c.elcr 2) (hon : On c.irr 2) (out : Bool) (m : Line) :
    Deliverable .master (c.latch 2 out) m ↔ Deliverable .master c m ∧ (m = 2 → out = true) := by
  obtain ⟨hhold, hadd, -⟩ := latch_holding c 2 out .master
  rw [Deliverable, Deliverable, on_latch_pending_iff hedge hon, hhold, hadd]
  exact and_right_comm

end Link

/-! ## Cascades without end -/

/-- A level-triggered request of the slave that acknowledgements leave as it is. -/
def SlaveRepeats (c : Controller) : Prop :=
  Repeats .slave c ∧ ∃ k, Deliverable .slave c k ∧ On c.elcr k

/-- The cascade comes to the request of the slave, and that repeats; or one of the master
repeats, unless the cascade ends with a spurious interrupt of the slave before it. -/
def Endless (m sl : Controller) : Prop :=
  (Deliverable .master m 2 ∧ (m.autoEOI = true ∨ getIRQ .master m = some 2) ∧ SlaveRepeats sl) ∨
  (Repeats .master m ∧ ∃ n, n ≠ 2 ∧ Deliverable .master m n ∧ On m.elcr n ∧
    (Deliverable .master m 2 → getIRQ .slave sl = none →
      m.rotateOnAutoEOI = false ∧ prio m.priorityAdd n < prio m.priorityAdd 2))

instance (c : Controller) : Decidable (SlaveRepeats c) :=
  inferInstanceAs (Decidable (_ ∧ ∃ _ : Line, _ ∧ _))

instance (m sl : Controller) : Decidable (Endless m sl) :=
  inferInstanceAs (Decidable (_ ∨ (_ ∧ ∃ _ : Line, _ ∧ _ ∧ _ ∧ (_ → _ → _ ∧ _))))

theorem slaveRepeats_acknowledge (c : Controller) (k : Line) :
    SlaveRepeats (c.acknowledge k) ↔ SlaveRepeats c := by
  have helcr : (c.acknowledge k).elcr = c.elcr := by rw [acknowledge_eq]
  rw [SlaveRepeats, SlaveRepeats, repeats_acknowledge_iff, helcr]
  refine and_congr_right fun hr => exists_congr fun m => ?_
  rw [deliverable_of_repeats hr]
  exact ⟨fun h => ⟨h.1.1, h.2⟩, fun h => ⟨⟨h.1, fun hm => hm ▸ h.2⟩, h.2⟩⟩

theorem SlaveRepeats.output {c : Controller} (h : SlaveRepeats c) :
    (getIRQ .slave c).isSome = true := by
  obtain ⟨-, k, hk, -⟩ := h
  obtain ⟨n, hn⟩ := exists_getIRQ hk
  rw [hn]
  rfl

section Controllers

variable {m sl : Controller}

/-- An acknowledgement of the slave does not decide whether the cascade ends. -/
theorem endless_slave_iff {k : Line} (hedge : ¬ On m.elcr 2) (hm : getIRQ .master m = some 2)
    (hs : getIRQ .slave sl = some k) :
    Endless (m.latch 2 (getIRQ .slave (sl.acknowledge k)).isSome) (sl.acknowledge k) ↔
      Endless m sl := by
  obtain ⟨hd2, hfirst⟩ := getIRQ_eq_some_iff.mp hm
  have hon : On m.irr 2 := ((on_pending_iff m 2).mp hd2.1).1
  have hdel := deliverable_latch_iff hedge hon (getIRQ .slave (sl.acknowledge k)).isSome
  have hpend := on_latch_pending_iff hedge hon (getIRQ .slave (sl.acknowledge k)).isSome
  obtain ⟨hhold, hadd, helcr, hauto, hrot⟩ :=
    latch_holding m 2 (getIRQ .slave (sl.acknowledge k)).isSome .master
  have hrep : Repeats .master (m.latch 2 (getIRQ .slave (sl.acknowledge k)).isSome) ↔
      Repeats .master m := by rw [Repeats, Repeats, hhold, hauto, hrot]
  rw [Endless, Endless, hrep, helcr, slaveRepeats_acknowledge]
  constructor
  · intro h'
    rcases h' with ⟨-, -, hsr⟩ | ⟨hr, n, hn2, hd, hl, -⟩
    · exact .inl ⟨hd2, .inr hm, hsr⟩
    · refine .inr ⟨hr, n, hn2, ((hdel n).mp hd).1, hl, fun _ hnone => ?_⟩
      rw [hs] at hnone
      cases hnone
  · intro h'
    rcases h' with ⟨-, -, hsr⟩ | ⟨hr, n, hn2, hd, hl, -⟩
    · have hout := ((slaveRepeats_acknowledge sl k).mpr hsr).output
      have hd2' := (hdel 2).mpr ⟨hd2, fun _ => hout⟩
      refine .inl ⟨hd2', .inr (getIRQ_eq_some_iff.mpr ⟨hd2', fun x hx => ?_⟩), hsr⟩
      rw [hadd]
      exact hfirst x ((hpend x).mp hx).1
    · refine .inr ⟨hr, n, hn2, (hdel n).mpr ⟨hd, fun h => absurd h hn2⟩, hl, fun hd2' hnone => ?_⟩
      have hout := ((hdel 2).mp hd2').2 rfl
      rw [hnone] at hout
      cases hout

/-- Neither does one of the master. -/
theorem endless_master_iff {n : Line} (hm : getIRQ .master m = some n) (hn : n ≠ 2) :
    Endless (m.acknowledge n) sl ↔ Endless m sl := by
  have hfields : (m.acknowledge n).elcr = m.elcr ∧ (m.acknowledge n).autoEOI = m.autoEOI ∧
      (m.acknowledge n).rotateOnAutoEOI = m.rotateOnAutoEOI := by
    rw [acknowledge_eq]
    exact ⟨rfl, rfl, rfl⟩
  obtain ⟨helcr, hauto, hrot⟩ := hfields
  rw [Endless, Endless, repeats_acknowledge_iff, helcr, hauto, hrot]
  refine or_congr ?_ (and_congr_right fun hr => exists_congr fun x => and_congr_right fun hx2 => ?_)
  · cases ha : m.autoEOI with
    | false =>
      refine iff_of_false (fun h => not_deliverable_of_service hm ha (fun _ => hn) h.1) fun h => ?_
      obtain hauto | h2 := h.2.1
      · cases hauto
      · exact hn (Option.some.inj (hm.symm.trans h2))
    | true =>
      rw [deliverable_of_autoEOI hm ha hn.symm]
      exact and_congr_right fun _ => and_congr_left fun _ => by simp
  · rw [deliverable_of_repeats hr, deliverable_of_repeats hr]
    have hadd (h : m.rotateOnAutoEOI = false) : (m.acknowledge n).priorityAdd = m.priorityAdd := by
      rw [acknowledge_eq, h, Bool.and_false]
      rfl
    constructor
    · intro h'
      obtain ⟨⟨hd, -⟩, hl, hst⟩ := h'
      refine ⟨hd, hl, fun hd2 hnone => ?_⟩
      obtain ⟨hnr, hlt⟩ := hst ⟨hd2, fun h => absurd h.symm hn⟩ hnone
      rw [hadd hnr] at hlt
      exact ⟨hnr, hlt⟩
    · intro h'
      obtain ⟨hd, hl, hst⟩ := h'
      refine ⟨⟨hd, fun h => h ▸ hl⟩, hl, fun hd2 hnone => ?_⟩
      obtain ⟨hnr, hlt⟩ := hst hd2.1 hnone
      rw [hadd hnr]
      exact ⟨hnr, hlt⟩

/-- A cascade without end goes on. -/
theorem Endless.acknowledges (h : Endless m sl) : ∃ n, getIRQ .master m = some n ∧
    (n = 2 → ∃ k, getIRQ .slave sl = some k) := by
  have hsome : ∃ n, Deliverable .master m n := by
    obtain ⟨hd, -, -⟩ | ⟨-, n, -, hd, -⟩ := h
    · exact ⟨2, hd⟩
    · exact ⟨n, hd⟩
  obtain ⟨n, hn⟩ := exists_getIRQ hsome.choose_spec
  refine ⟨n, hn, ?_⟩
  rintro rfl
  obtain ⟨hd2, hfirst⟩ := getIRQ_eq_some_iff.mp hn
  cases hs : getIRQ .slave sl with
  | some k => exact ⟨k, rfl⟩
  | none =>
    obtain ⟨-, -, hsr⟩ | ⟨-, x, -, hd, -, hst⟩ := h
    · have hout := hsr.output
      rw [hs] at hout
      cases hout
    · have hlt := (hst hd2 hs).2
      have hle := hfirst x hd.1
      omega

/-! ## Cascades that end -/

/-- How far the spurious interrupt of the slave is away, when it stops the cascade. -/
def spuriousAt (m sl : Controller) : Nat :=
  if Deliverable .master m 2 ∧ getIRQ .slave sl = none then prio m.priorityAdd 2 else 0

def measure (m sl : Controller) : Nat := weight .master m + weight .slave sl + spuriousAt m sl

theorem measure_le (m sl : Controller) : measure m sl ≤ 39 := by
  have hm := weight_le .master m
  have hs := weight_le .slave sl
  have hp := prio_lt m.priorityAdd 2
  rw [measure, spuriousAt]
  split <;> omega

theorem measure_slave {k : Line} (hedge : ¬ On m.elcr 2) (hm : getIRQ .master m = some 2)
    (hs : getIRQ .slave sl = some k) (he : ¬ Endless m sl) :
    measure (m.latch 2 (getIRQ .slave (sl.acknowledge k)).isSome) (sl.acknowledge k) <
      measure m sl := by
  obtain ⟨hd2, -⟩ := getIRQ_eq_some_iff.mp hm
  have hon : On m.irr 2 := ((on_pending_iff m 2).mp hd2.1).1
  have hlt : weight .slave (sl.acknowledge k) < weight .slave sl :=
    weight_acknowledge_lt hs (fun h => by cases h) fun hr hl =>
      he (.inl ⟨hd2, .inr hm, hr, k, (getIRQ_eq_some_iff.mp hs).1, hl⟩)
  have hspurious : spuriousAt (m.latch 2 (getIRQ .slave (sl.acknowledge k)).isSome)
      (sl.acknowledge k) = 0 := by
    refine if_neg fun h => ?_
    have hout := ((deliverable_latch_iff hedge hon _ 2).mp h.1).2 rfl
    rw [h.2] at hout
    cases hout
  have hweight : weight .master (m.latch 2 (getIRQ .slave (sl.acknowledge k)).isSome) =
      weight .master m := by
    obtain ⟨hhold, hadd, -⟩ := latch_holding m 2 (getIRQ .slave (sl.acknowledge k)).isSome .master
    have hreq : requests .master (m.latch 2 (getIRQ .slave (sl.acknowledge k)).isSome) =
        requests .master m := by
      apply Finset.filter_congr
      intro x _
      exact and_congr_left fun hx => on_latch_irr_of_ne (hx rfl) m _
    rw [weight, weight, hhold, hadd, hreq]
  rw [measure, measure, hspurious, hweight]
  omega

theorem measure_master {n : Line} (hm : getIRQ .master m = some n) (hn : n ≠ 2)
    (he : ¬ Endless m sl) : measure (m.acknowledge n) sl < measure m sl := by
  obtain ⟨hd, hfirst⟩ := getIRQ_eq_some_iff.mp hm
  have hadd : (m.acknowledge n).priorityAdd =
      if m.autoEOI && m.rotateOnAutoEOI then lineOf (n + 1) 0 else m.priorityAdd := by
    rw [acknowledge_eq]
  have hahead (h2 : Deliverable .master m 2) : prio m.priorityAdd n < prio m.priorityAdd 2 :=
    lt_of_le_of_ne (hfirst 2 h2.1) fun h => hn (prio_injective h)
  have hback (h2 : Deliverable .master (m.acknowledge n) 2) : Deliverable .master m 2 := by
    cases ha : m.autoEOI with
    | false => exact absurd h2 (not_deliverable_of_service hm ha fun _ => hn)
    | true => exact (deliverable_of_autoEOI hm ha hn.symm).mp h2
  have hspurious : spuriousAt (m.acknowledge n) sl ≤ spuriousAt m sl := by
    rw [spuriousAt, spuriousAt]
    split
    · next h =>
      rw [if_pos ⟨hback h.1, h.2⟩, hadd]
      split
      · rw [prio_rotate (hahead (hback h.1))]
        omega
      · exact le_rfl
    · exact Nat.zero_le _
  by_cases hrep : Repeats .master m ∧ On m.elcr n
  · have hle := weight_acknowledge_le hm fun _ => hn
    -- the line comes round again, but the spurious interrupt comes first
    have hstop : Deliverable .master m 2 ∧ getIRQ .slave sl = none ∧ m.rotateOnAutoEOI = true := by
      by_contra hgo
      refine he (.inr ⟨hrep.1, n, hn, hd, hrep.2, fun h2 hnone => ⟨?_, hahead h2⟩⟩)
      exact Bool.eq_false_iff.mpr fun hr => hgo ⟨h2, hnone, hr⟩
    obtain ⟨h2, hnone, hr⟩ := hstop
    have hless : spuriousAt (m.acknowledge n) sl < spuriousAt m sl := by
      have hlt := hahead h2
      have hnow : spuriousAt m sl = prio m.priorityAdd 2 := if_pos ⟨h2, hnone⟩
      have hrot : (m.autoEOI && m.rotateOnAutoEOI) = true := by rw [hrep.1.1, hr, Bool.and_self]
      rw [hnow, spuriousAt, hadd, if_pos hrot]
      split
      · rw [prio_rotate hlt]
        omega
      · omega
    rw [measure, measure]
    omega
  · have hlt := weight_acknowledge_lt hm (fun _ => hn) fun hr hl => hrep ⟨hr, hl⟩
    rw [measure, measure]
    omega

end Controllers

/-! ## The chain -/

/-- The output of a controller does not matter to its requests. -/
def withOutput (c : Controller) (out : Bool) : Controller := { c with interruptOutput := out }

section Chain

variable {s : State}

theorem follow_master (irq : Line) :
    (follow s .master irq).master =
        (withOutput s.master (s.getIRQ .master).isSome).acknowledge irq ∧
      (follow s .master irq).slave = s.slave := ⟨rfl, rfl⟩

theorem follow_slave (irq : Line) :
    (follow s .slave irq).master = (withOutput s.master (s.getIRQ .master).isSome).latch 2
        (getIRQ .slave (s.slave.acknowledge irq)).isSome ∧
      (follow s .slave irq).slave = withOutput (s.slave.acknowledge irq)
        (getIRQ .slave (s.slave.acknowledge irq)).isSome := ⟨rfl, rfl⟩

theorem follow_elcr (chip : Chip) (irq : Line) :
    (follow s chip irq).master.elcr = s.master.elcr := by
  cases chip with
  | master =>
    rw [(follow_master irq).1, acknowledge_eq]
    rfl
  | slave =>
    rw [(follow_slave irq).1]
    exact (latch_holding _ 2 _ .master).2.2.1

theorem endless_follow {chip : Chip} {irq : Line} (hedge : ¬ On s.master.elcr 2)
    (h : delivery s = .acknowledge chip irq) :
    Endless (follow s chip irq).master (follow s chip irq).slave ↔ Endless s.master s.slave := by
  cases chip with
  | master =>
    obtain ⟨hm, hn⟩ := delivery_master_iff.mp h
    exact endless_master_iff (m := withOutput s.master (s.getIRQ .master).isSome) hm hn
  | slave =>
    obtain ⟨hm, hs⟩ := delivery_slave_iff.mp h
    exact endless_slave_iff (m := withOutput s.master (s.getIRQ .master).isSome) hedge hm hs

theorem measure_follow {chip : Chip} {irq : Line} (hedge : ¬ On s.master.elcr 2)
    (h : delivery s = .acknowledge chip irq) (he : ¬ Endless s.master s.slave) :
    measure (follow s chip irq).master (follow s chip irq).slave < measure s.master s.slave := by
  cases chip with
  | master =>
    obtain ⟨hm, hn⟩ := delivery_master_iff.mp h
    exact measure_master (m := withOutput s.master (s.getIRQ .master).isSome) hm hn he
  | slave =>
    obtain ⟨hm, hs⟩ := delivery_slave_iff.mp h
    exact measure_slave (m := withOutput s.master (s.getIRQ .master).isSome) hedge hm hs he

/-- A cascade that is not endless ends within the measure. -/
theorem chain_ends {fuel : Nat} (hedge : ¬ On s.master.elcr 2) (he : ¬ Endless s.master s.slave)
    (hfuel : measure s.master s.slave < fuel) : (loop chain fuel s).isSome = true := by
  induction fuel generalizing s with
  | zero => omega
  | succ fuel ih =>
    cases hd : delivery s with
    | quiet => rw [loop, chain, hd]; rfl
    | spurious => rw [loop, chain, hd]; rfl
    | acknowledge chip irq =>
      have hnext : chain s = .next (follow s chip irq) := by rw [chain, hd]
      have hless := measure_follow hedge hd he
      rw [loop_next hnext]
      exact ih ((follow_elcr chip irq).symm ▸ hedge) (mt (endless_follow hedge hd).mp he) (by omega)

/-- An endless one is never left. -/
theorem chain_endless (hedge : ¬ On s.master.elcr 2) (he : Endless s.master s.slave) (fuel : Nat) :
    loop chain fuel s = none := by
  have hstep (t : State) (ht : ¬ On t.master.elcr 2 ∧ Endless t.master t.slave) :
      ∃ u, chain t = .next u ∧ ¬ On u.master.elcr 2 ∧ Endless u.master u.slave := by
    obtain ⟨hedge, he⟩ := ht
    obtain ⟨n, hn, hcascade⟩ := he.acknowledges
    have hd : ∃ chip irq, delivery t = .acknowledge chip irq := by
      by_cases h2 : n = 2
      · obtain ⟨k, hk⟩ := hcascade h2
        exact ⟨.slave, k, delivery_slave_iff.mpr ⟨h2 ▸ hn, hk⟩⟩
      · exact ⟨.master, n, delivery_master_iff.mpr ⟨hn, h2⟩⟩
    obtain ⟨chip, irq, hd⟩ := hd
    refine ⟨follow t chip irq, by rw [chain, hd], ?_, (endless_follow hedge hd).mpr he⟩
    exact (follow_elcr chip irq).symm ▸ hedge
  exact loop_none_of_invariant hstep ⟨hedge, he⟩ fuel

/-- The depth of calls that is enough for every cascade that ends. -/
def callDepth : Nat := 81

theorem updateIRQ_of_not_endless (hedge : ¬ On s.master.elcr 2)
    (he : ¬ Endless s.master s.slave) : (updateIRQ 80 s .master).isSome = true := by
  have hfuel : measure s.master s.slave < 40 := (measure_le s.master s.slave).trans_lt (by decide)
  exact updateIRQ_of_loop (chain_ends hedge he hfuel)

theorem updateIRQ_of_endless (hedge : ¬ On s.master.elcr 2) (he : Endless s.master s.slave)
    (depth : Nat) : updateIRQ depth s .master = none := by
  by_contra h
  have hloop := loop_of_updateIRQ (Option.isSome_iff_ne_none.mpr h)
  rw [chain_endless hedge he] at hloop
  cases hloop

end Chain

/-! ## Operations -/

/-- Line 2 of the master is edge-triggered. -/
def CascadeEdge (s : State) : Prop := ¬ On s.master.elcr 2

instance (s : State) : Decidable (CascadeEdge s) := inferInstanceAs (Decidable (¬ _))

section Edge

variable {s : State}

theorem CascadeEdge.set {chip : Chip} {c : Controller} (h : CascadeEdge s)
    (hc : c.elcr = (s.get chip).elcr) : CascadeEdge (s.set chip c) := by
  cases chip with
  | master =>
    rw [CascadeEdge, State.set, hc]
    exact h
  | slave => exact h

theorem cascaded_keeps (hs : CascadeEdge s) : CascadeEdge (cascaded s) := by
  have helcr : (s.master.latch 2 (s.getIRQ .slave).isSome).elcr = s.master.elcr :=
    (latch_holding s.master 2 _ .master).2.2.1
  rw [CascadeEdge, cascaded, State.set, helcr]
  exact hs

theorem CascadeEdge.updateIRQ {depth : Nat} {t : State} {chip : Chip}
    (h : updateIRQ depth s chip = some t) (hs : CascadeEdge s) : CascadeEdge t := by
  refine updateIRQ_invariant (I := CascadeEdge) ?_ ?_ ?_ ?_ h hs
  · intro s chip hs
    exact hs.set (by cases chip <;> rfl)
  · intro s e hs
    exact hs
  · intro s chip irq hs
    exact hs.set (c := (s.get chip).acknowledge irq) (by rw [acknowledge_eq])
  · intro s hs
    exact cascaded_keeps hs

end Edge

/-- The states an access goes through have a property. -/
def AccessKeeps {α : Type} (I : State → Prop) : Access α → Prop
  | .done _ s => I s
  | .update s _ after => I s ∧ ∀ t, I t → I (after t).2

theorem AccessKeeps.andThen {α β : Type} {I : State → Prop} {a : Access α}
    {f : α → State → β × State} (h : AccessKeeps I a) (hf : ∀ r t, I t → I (f r t).2) :
    AccessKeeps I (a.andThen f) := by
  cases a with
  | done r t => exact hf r t h
  | update t chip after => exact ⟨h.1, fun u hu => hf _ _ (h.2 u hu)⟩

section Keeps

variable {s : State} (hs : CascadeEdge s)
include hs

theorem setIRQ_keeps (chip : Chip) (index : Line) (asserted : Bool) :
    AccessKeeps CascadeEdge (setIRQ s chip index asserted) :=
  ⟨hs.set (latch_holding _ index asserted .master).2.2.1, fun _ h => h⟩

theorem acknowledgeIRQ_keeps (chip : Chip) (irq : Line) :
    AccessKeeps CascadeEdge (acknowledgeIRQ s chip irq) :=
  ⟨hs.set (c := (s.get chip).acknowledge irq) (by rw [acknowledge_eq]), fun _ h => h⟩

theorem poll_keeps (chip : Chip) : AccessKeeps CascadeEdge (poll s chip) := by
  have hpoll : CascadeEdge (s.set chip { s.get chip with poll := false }) := hs.set rfl
  rw [poll]
  dsimp only
  split
  · exact (acknowledgeIRQ_keeps (s := State.log _ _) hpoll chip _).andThen fun _ _ h => h
  · exact hpoll

theorem commandRead_keeps (chip : Chip) : AccessKeeps CascadeEdge (commandRead s chip) := by
  rw [commandRead]
  split
  · exact poll_keeps hs chip
  · exact hs

theorem dataRead_keeps (chip : Chip) : AccessKeeps CascadeEdge (dataRead s chip) := by
  rw [dataRead]
  split
  · exact poll_keeps hs chip
  · exact hs

theorem endService_keeps (chip : Chip) (irq : Line) : CascadeEdge (s.endService chip irq) :=
  hs.set (c := { s.get chip with isr := (s.get chip).isr &&& ~~~bit irq }) rfl

theorem rotate_keeps (chip : Chip) (add : Line) : CascadeEdge (s.rotate chip add) := hs.set rfl

theorem ocw2_keeps (chip : Chip) (value : Word) (command : Nat) :
    AccessKeeps CascadeEdge (ocw2 s chip value command) := by
  rw [ocw2.eq_def]
  split
  · exact hs.set rfl
  · exact hs.set rfl
  · dsimp only
    split
    · exact hs
    · exact ⟨endService_keeps hs chip _, fun _ h => h⟩
  · dsimp only
    split
    · exact hs
    · exact ⟨rotate_keeps (endService_keeps hs chip _) chip _, fun _ h => h⟩
  · exact ⟨endService_keeps hs chip _, fun _ h => h⟩
  · exact ⟨rotate_keeps hs chip _, fun _ h => h⟩
  · exact ⟨rotate_keeps (endService_keeps hs chip _) chip _, fun _ h => h⟩
  · exact hs

theorem commandWrite_keeps (chip : Chip) (value : Word) :
    AccessKeeps CascadeEdge (commandWrite s chip value) := by
  rw [commandWrite]
  split
  · have hreset : AccessKeeps CascadeEdge (resetChip s chip) :=
      ⟨hs.set (c := .cleared (s.get chip).elcr) rfl, fun _ h => h⟩
    exact hreset.andThen fun _ _ h => h.set rfl
  split
  · exact hs.set rfl
  · exact ocw2_keeps hs chip value _

theorem dataWrite_keeps (chip : Chip) (value : Word) :
    AccessKeeps CascadeEdge (dataWrite s chip value) := by
  rw [dataWrite]
  split
  · exact ⟨hs.set rfl, fun _ h => h⟩
  · exact hs.set rfl
  · exact hs.set rfl
  · exact hs.set rfl

/-- The trigger mode of line 2 cannot be set. -/
theorem elcrWrite_keeps (chip : Chip) (value : Word) : CascadeEdge (elcrWrite s chip value) := by
  cases chip with
  | master =>
    rw [CascadeEdge, elcrWrite, State.set, On, BitVec.getLsbD_setWidth, BitVec.getLsbD_and]
    simp [elcrMask]
  | slave => exact hs

theorem access_keeps (op : Op) : AccessKeeps CascadeEdge (access s op) := by
  cases op with
  | handleIRQ irqNum level =>
    refine AccessKeeps.andThen ?_ fun _ _ h => h
    rw [handleIRQ]
    split
    · exact setIRQ_keeps hs .master _ level
    · exact setIRQ_keeps hs .slave _ level
  | ioRead port =>
    rw [access, ioRead]
    split
    · exact (commandRead_keeps hs .master).andThen fun _ _ h => h
    split
    · exact (commandRead_keeps hs .slave).andThen fun _ _ h => h
    split
    · exact (dataRead_keeps hs .master).andThen fun _ _ h => h
    split
    · exact (dataRead_keeps hs .slave).andThen fun _ _ h => h
    split
    · exact hs
    split
    · exact hs
    · exact hs
  | ioWrite port value =>
    refine AccessKeeps.andThen ?_ fun _ _ h => h
    rw [ioWrite]
    split
    · exact commandWrite_keeps hs .master value
    split
    · exact commandWrite_keeps hs .slave value
    split
    · exact dataWrite_keeps hs .master value
    split
    · exact dataWrite_keeps hs .slave value
    split
    · exact elcrWrite_keeps hs .master value
    split
    · exact elcrWrite_keeps hs .slave value
    · exact hs

end Keeps

/-- The access starts a cascade without end. -/
def Lasting {α : Type} : Access α → Prop
  | .done _ _ => False
  | .update s .master _ => Endless s.master s.slave
  | .update s .slave _ => Endless (cascaded s).master (cascaded s).slave

instance {α : Type} (a : Access α) : Decidable (Lasting a) :=
  match a with
  | .done _ _ => inferInstanceAs (Decidable False)
  | .update s .master _ => inferInstanceAs (Decidable (Endless s.master s.slave))
  | .update s .slave _ => inferInstanceAs (Decidable (Endless (cascaded s).master (cascaded s).slave))

theorem run_of_not_lasting {α : Type} {a : Access α} (h : AccessKeeps CascadeEdge a)
    (hl : ¬ Lasting a) : (a.run (updateIRQ callDepth)).isSome = true := by
  cases a with
  | done r s => rfl
  | update s chip after =>
    rw [Access.run, Option.isSome_map]
    cases chip with
    | master =>
      obtain ⟨t, ht⟩ := Option.isSome_iff_exists.mp (updateIRQ_of_not_endless h.1 hl)
      rw [callDepth, updateIRQ_succ ht]
      rfl
    | slave =>
      rw [callDepth, updateIRQ_slave]
      exact updateIRQ_of_not_endless (cascaded_keeps h.1) hl

theorem run_of_lasting {α : Type} {a : Access α} (h : AccessKeeps CascadeEdge a) (hl : Lasting a)
    (depth : Nat) : a.run (updateIRQ depth) = none := by
  cases a with
  | done r s => exact absurd hl id
  | update s chip after =>
    rw [Access.run, Option.map_eq_none_iff]
    cases chip with
    | master => exact updateIRQ_of_endless h.1 hl depth
    | slave =>
      cases depth with
      | zero => rfl
      | succ depth =>
        rw [updateIRQ_slave]
        exact updateIRQ_of_endless (cascaded_keeps h.1) hl depth

/-- An operation with the depth of calls that is enough; `none` when it does not return. -/
def step (s : State) (op : Op) : Option State := perform callDepth s op

/-- The operation returns, after finitely many nested calls. -/
def Returns (s : State) (op : Op) : Prop := ∃ depth, (perform depth s op).isSome = true

/-- An operation returns unless it starts a cascade without end. -/
theorem returns_iff {s : State} (hs : CascadeEdge s) (op : Op) :
    Returns s op ↔ ¬ Lasting (access s op) := by
  constructor
  · rintro ⟨depth, h⟩ hl
    rw [perform, run_of_lasting (access_keeps hs op) hl] at h
    cases h
  · intro hl
    refine ⟨callDepth, ?_⟩
    rw [perform, Option.isSome_map]
    exact run_of_not_lasting (access_keeps hs op) hl

theorem perform_mono {m n : Nat} {s t : State} {op : Op} (h : perform m s op = some t)
    (hle : m ≤ n) : perform n s op = some t := by
  obtain ⟨r, hr, rfl⟩ := Option.map_eq_some_iff.mp h
  exact Option.map_eq_some_iff.mpr ⟨r, Access.run_mono (fun s chip t ht => updateIRQ_mono ht hle) hr, rfl⟩

/-- The result of an operation, whatever depth it needs. -/
theorem step_eq_some_iff {s t : State} (hs : CascadeEdge s) (op : Op) :
    step s op = some t ↔ ∃ depth, perform depth s op = some t := by
  constructor
  · intro h
    exact ⟨callDepth, h⟩
  · intro h'
    obtain ⟨depth, h⟩ := h'
    have hret := (returns_iff hs op).mp ⟨depth, Option.isSome_iff_exists.mpr ⟨t, h⟩⟩
    have hrun := run_of_not_lasting (access_keeps hs op) hret
    obtain ⟨r, hr⟩ := Option.isSome_iff_exists.mp hrun
    have hstep : step s op = some r.2 := Option.map_eq_some_iff.mpr ⟨r, hr, rfl⟩
    have hmax := perform_mono h (Nat.le_max_left depth callDepth)
    rw [perform_mono hstep (Nat.le_max_right depth callDepth)] at hmax
    exact hstep.trans hmax

theorem step_keeps {s t : State} {op : Op} (hs : CascadeEdge s) (h : step s op = some t) :
    CascadeEdge t := by
  obtain ⟨r, hr, rfl⟩ := Option.map_eq_some_iff.mp h
  have hkeeps := access_keeps hs op
  cases ha : access s op with
  | done v u =>
    rw [ha] at hr hkeeps
    obtain rfl := Option.some.inj hr
    exact hkeeps
  | update u chip after =>
    rw [ha] at hr hkeeps
    obtain ⟨t, ht, rfl⟩ := Option.map_eq_some_iff.mp hr
    exact hkeeps.2 t (hkeeps.1.updateIRQ ht)

theorem initial_keeps : CascadeEdge .initial := by decide

/-- In every run of accesses and requests from reset on, all operations return exactly
when none of them starts a cascade without end. -/
theorem operations_return_iff (ops : List Op) :
    Guarded step Returns .initial ops ↔
      Guarded step (fun s op => ¬ Lasting (access s op)) .initial ops :=
  guarded_congr (I := CascadeEdge) (fun _ op hs => returns_iff hs op)
    (fun _ _ _ hs _ h => step_keeps hs h) initial_keeps

/-- The controllers initialised as in a PC, the master in automatic EOI mode, and line 3
level-triggered. -/
def levelAutoEOI : List Op :=
  [.ioWrite 0x20 0x11, .ioWrite 0x21 0x08, .ioWrite 0x21 0x04, .ioWrite 0x21 0x03,
    .ioWrite 0x4D0 0x08]

/-- The request of line 3 is then acknowledged for ever. -/
theorem level_request_never_returns :
    ¬ Guarded step Returns .initial (levelAutoEOI ++ [.handleIRQ 3 true]) := by
  intro h
  have hlast := ((((((h.2 _ rfl).2 _ rfl).2 _ rfl).2 _ rfl).2 _ rfl).1)
  exact (returns_iff (by decide) _).mp hlast (by decide)

end OpenXbox.Pic.Termination
