import OpenXbox.Pic.Operations

/-!
# The order of delivery

The vector of a request is passed to the CPU when the calls its acknowledgement has made
have returned. So an operation that makes several calls of `Cpu::Interrupt` passes the
vectors in the reverse of the order in which the requests were acknowledged.
-/

namespace OpenXbox.Pic.DeliveryOrder

open OpenXbox.Lib.Run OpenXbox.Pic.Device OpenXbox.Pic.Priority OpenXbox.Pic.Acknowledge
  OpenXbox.Pic.Cascade OpenXbox.Pic.Termination OpenXbox.Pic.Operations

/-- The line of a vector; a spurious interrupt is none of a request. -/
def request (v : Vector) : Option (Chip × Line) := if v.spurious then none else some (v.chip, v.irq)

/-- The vectors that are passed to `Cpu::Interrupt`, in order. -/
def passed : List Event → List Vector
  | [] => []
  | .interrupt v :: es => v :: passed es
  | .acknowledge _ _ :: es | .polled _ _ :: es | .ended _ _ :: es | .reset _ :: es => passed es

/-- The requests that are acknowledged for the CPU, in order; the one that a poll resolves
to is not. -/
def requests : List Event → List (Chip × Line)
  | [] => []
  | .polled _ _ :: .acknowledge _ _ :: es => requests es
  | .acknowledge chip irq :: es => (chip, irq) :: requests es
  | _ :: es => requests es

/-- What happens between two states. -/
def logged (s t : State) : List Event := t.events.drop s.events.length

/-- The vectors are passed in the order in which their requests were acknowledged, and the
first is that of the first request. -/
structure InOrder (es : List Event) : Prop where
  order : (passed es).filterMap request = requests es
  first : ∀ r ∈ (requests es).head?, ((passed es).map request).head? = some (some r)

theorem inOrder_iff (es : List Event) : InOrder es ↔ (passed es).filterMap request = requests es ∧
    ∀ r ∈ (requests es).head?, ((passed es).map request).head? = some (some r) :=
  ⟨fun h => ⟨h.1, h.2⟩, fun h => ⟨h.1, h.2⟩⟩

instance (es : List Event) : Decidable (InOrder es) := decidable_of_iff _ (inOrder_iff es).symm

/-! ## The events of a cascade -/

/-- The events of a cascade that acknowledges the requests: what an acknowledgement has
caused comes between it and its interrupt. -/
inductive Nested : List (Chip × Line) → List Event → Prop
  | quiet : Nested [] []
  | spurious (base : Byte) : Nested [] [.interrupt ⟨.slave, 7, base, true⟩]
  | acknowledge (chip : Chip) (irq : Line) (base : Byte) {rs : List (Chip × Line)} {es : List Event}
      (h : Nested rs es) :
    Nested ((chip, irq) :: rs) (.acknowledge chip irq :: (es ++ [.interrupt ⟨chip, irq, base, false⟩]))

theorem passed_append (es es' : List Event) : passed (es ++ es') = passed es ++ passed es' := by
  induction es with
  | nil => rfl
  | cons e es ih => cases e <;> simp [passed, ih]

theorem requests_interrupt (es : List Event) (v : Vector) :
    requests (es ++ [.interrupt v]) = requests es := by
  fun_induction requests es with
  | case1 => rfl
  | case2 _ _ _ _ es ih => exact ih
  | case3 chip irq es ih => exact congrArg (List.cons (chip, irq)) ih
  | case4 e es hpolled hack ih =>
    cases e with
    | acknowledge chip irq => exact absurd rfl (hack chip irq)
    | interrupt _ | ended _ _ | reset _ => exact ih
    | polled chip irq =>
      cases es with
      | nil => rfl
      | cons e es =>
        cases e with
        | acknowledge chip' irq' => exact absurd rfl (hpolled chip irq chip' irq' es rfl)
        | interrupt _ | ended _ _ | reset _ | polled _ _ => exact ih

theorem Nested.requests_eq {rs : List (Chip × Line)} {es : List Event} (h : Nested rs es) :
    requests es = rs := by
  induction h with
  | quiet => rfl
  | spurious base => rfl
  | acknowledge chip irq base _ ih =>
    rw [requests, requests_interrupt, ih]

/-- The interrupts come in reverse, after a spurious one of the slave if there is any. -/
theorem Nested.passed_eq {rs : List (Chip × Line)} {es : List Event} (h : Nested rs es) :
    ∃ ends, (ends = [] ∨ ends = [none]) ∧ (passed es).map request = ends ++ rs.reverse.map some := by
  induction h with
  | quiet => exact ⟨[], .inl rfl, rfl⟩
  | spurious base => exact ⟨[none], .inr rfl, rfl⟩
  | acknowledge chip irq base _ ih =>
    obtain ⟨ends, hends, heq⟩ := ih
    refine ⟨ends, hends, ?_⟩
    simp [passed, passed_append, heq, request]

/-- Several vectors do not start with that of the first request. -/
theorem Nested.not_inOrder {rs : List (Chip × Line)} {es : List Event} (h : Nested rs es)
    (hrs : rs.Nodup) (hcalls : 2 ≤ (passed es).length) : ¬ InOrder es := by
  intro hin
  obtain ⟨ends, hends, heq⟩ := h.passed_eq
  have hlen := congrArg List.length heq
  simp only [List.length_map, List.length_append, List.length_reverse] at hlen
  have hfirst := hin.first
  rw [h.requests_eq, heq] at hfirst
  cases rs with
  | nil =>
    have hone : ends.length ≤ 1 := by rcases hends with rfl | rfl <;> simp
    simp only [List.length_nil] at hlen
    omega
  | cons r rs =>
    have hhead := hfirst r rfl
    rcases hends with rfl | rfl
    · -- the last request is another one
      rcases List.eq_nil_or_concat rs with rfl | ⟨init, last, rfl⟩
      · simp at hlen
        omega
      · simp at hhead
        simp [hhead] at hrs
    · cases hhead

/-! ## What is still to come -/

/-- The cascade can come to the line: it can be delivered, and no spurious interrupt of the
slave ends the cascade before it. -/
def Upcoming (m sl : Controller) : Chip → Line → Prop
  | .master, n => n ≠ 2 ∧ Deliverable .master m n ∧
    (Deliverable .master m 2 → getIRQ .slave sl = none → prio m.priorityAdd n < prio m.priorityAdd 2)
  | .slave, k => Deliverable .slave sl k

section Upcoming

variable {chip : Chip} {c m sl : Controller} {n k x : Line}

/-- An acknowledged line can be delivered again only where acknowledgements repeat. -/
theorem deliverable_acknowledge (hn : getIRQ chip c = some n) (hcascade : chip = .master → n ≠ 2)
    (hd : Deliverable chip (c.acknowledge n) x) :
    Deliverable chip c x ∧ (x = n → Repeats chip c ∧ On c.elcr n) := by
  cases ha : c.autoEOI with
  | false => exact absurd hd (not_deliverable_of_service hn ha hcascade)
  | true =>
    by_cases hr : Repeats chip c
    · obtain ⟨hold, helcr⟩ := (deliverable_of_repeats hr).mp hd
      exact ⟨hold, fun hx => ⟨hr, helcr hx⟩⟩
    · obtain ⟨hrot, hhold⟩ := Classical.not_imp.mp fun h => hr ⟨ha, h⟩
      obtain ⟨hold, hne⟩ := (deliverable_of_rotate hn ha hrot hhold).mp hd
      exact ⟨hold, fun hx => absurd hx hne⟩

/-- The lines behind the acknowledged one stay in order. -/
theorem prio_of_acknowledge (hn : getIRQ .master m = some n) (hx : On m.pending x) (hne : x ≠ n)
    (h2 : Deliverable .master m 2) (hn2 : n ≠ 2)
    (hlt : prio (m.acknowledge n).priorityAdd x < prio (m.acknowledge n).priorityAdd 2) :
    prio m.priorityAdd x < prio m.priorityAdd 2 := by
  have hfirst := (getIRQ_eq_some_iff.mp hn).2
  have hbehind (y : Line) (hy : On m.pending y) (hyn : y ≠ n) :
      prio m.priorityAdd n < prio m.priorityAdd y :=
    lt_of_le_of_ne (hfirst y hy) fun h => hyn (prio_injective h).symm
  have hnx := hbehind x hx hne
  have hnc := hbehind 2 h2.1 hn2.symm
  rw [acknowledge_eq] at hlt
  dsimp only at hlt
  split at hlt
  · rw [prio_rotate hnx, prio_rotate hnc] at hlt
    omega
  · exact hlt

theorem upcoming_master (hn : getIRQ .master m = some n) (hn2 : n ≠ 2) (he : ¬ Endless m sl)
    (hx : Upcoming (m.acknowledge n) sl chip x) : Upcoming m sl chip x ∧ (chip, x) ≠ (.master, n) := by
  cases chip with
  | slave => exact ⟨hx, fun h => Chip.noConfusion (congrArg Prod.fst h)⟩
  | master =>
    obtain ⟨hx2, hd, hspurious⟩ := hx
    obtain ⟨hold, hagain⟩ := deliverable_acknowledge hn (fun _ => hn2) hd
    obtain ⟨hdn, hfirst⟩ := getIRQ_eq_some_iff.mp hn
    have hne : x ≠ n := by
      intro hxn
      obtain ⟨hr, hl⟩ := hagain hxn
      -- the line comes round again, behind the spurious interrupt
      refine he (.inr ⟨hr, n, hn2, hdn, hl, fun h2 hnone => ?_⟩)
      have hahead : prio m.priorityAdd n < prio m.priorityAdd 2 :=
        lt_of_le_of_ne (hfirst 2 h2.1) fun h => hn2 (prio_injective h)
      refine ⟨Bool.eq_false_iff.mpr fun hrot => ?_, hahead⟩
      have hlt := hspurious ((deliverable_of_autoEOI hn hr.1 hn2.symm).mpr h2) hnone
      rw [hxn, acknowledge_eq, hr.1, hrot] at hlt
      have hlast := prio_rotate_before m.priorityAdd (le_refl (prio m.priorityAdd n))
      have h8 := prio_lt (lineOf (n + 1) 0) 2
      simp only [Bool.and_self, if_true] at hlt
      omega
    refine ⟨⟨hx2, hold, fun h2 hnone => ?_⟩, fun h => hne (congrArg Prod.snd h)⟩
    refine prio_of_acknowledge hn hold.1 hne h2 hn2 (hspurious ?_ hnone)
    cases ha : m.autoEOI with
    | false => exact absurd hd (not_deliverable_of_service hn ha fun _ => hn2)
    | true => exact (deliverable_of_autoEOI hn ha hn2.symm).mpr h2

theorem upcoming_slave (hedge : ¬ On m.elcr 2) (hm : getIRQ .master m = some 2)
    (hs : getIRQ .slave sl = some k) (he : ¬ Endless m sl)
    (hx : Upcoming (m.latch 2 (getIRQ .slave (sl.acknowledge k)).isSome) (sl.acknowledge k) chip x) :
    Upcoming m sl chip x ∧ (chip, x) ≠ (.slave, k) := by
  have hd2 := (getIRQ_eq_some_iff.mp hm).1
  cases chip with
  | master =>
    obtain ⟨hx2, hd, -⟩ := hx
    have hon : On m.irr 2 := ((on_pending_iff m 2).mp hd2.1).1
    have hold := ((deliverable_latch_iff hedge hon _ x).mp hd).1
    refine ⟨⟨hx2, hold, fun _ hnone => ?_⟩, fun h => Chip.noConfusion (congrArg Prod.fst h)⟩
    rw [hs] at hnone
    cases hnone
  | slave =>
    obtain ⟨hold, hagain⟩ := deliverable_acknowledge hs (fun h => by cases h) hx
    refine ⟨hold, fun h => ?_⟩
    obtain ⟨hr, hl⟩ := hagain (congrArg Prod.snd h)
    exact he (.inl ⟨hd2, .inr hm, hr, k, (getIRQ_eq_some_iff.mp hs).1, hl⟩)

theorem upcoming_withOutput_iff (out : Bool) :
    Upcoming m (withOutput sl out) chip x ↔ Upcoming m sl chip x := by
  cases chip with
  | master =>
    have hslave : getIRQ .slave (withOutput sl out) = getIRQ .slave sl := rfl
    rw [Upcoming, Upcoming, hslave]
  | slave => exact Iff.rfl

theorem upcoming_master_withOutput_iff (out : Bool) :
    Upcoming (withOutput m out) sl chip x ↔ Upcoming m sl chip x := by
  cases chip with
  | master => exact Iff.rfl
  | slave => exact Iff.rfl

end Upcoming

section Cascade

variable {s t : State} {chip other : Chip} {irq x : Line}

theorem upcoming_of_delivery (h : delivery s = .acknowledge chip irq) :
    Upcoming s.master s.slave chip irq := by
  cases chip with
  | master =>
    obtain ⟨hm, hn⟩ := delivery_master_iff.mp h
    obtain ⟨hd, hfirst⟩ := getIRQ_eq_some_iff.mp hm
    exact ⟨hn, hd, fun h2 _ => lt_of_le_of_ne (hfirst 2 h2.1) fun he => hn (prio_injective he)⟩
  | slave => exact (getIRQ_eq_some_iff.mp (delivery_slave_iff.mp h).2).1

theorem upcoming_follow (hedge : CascadeEdge s) (he : ¬ Endless s.master s.slave)
    (h : delivery s = .acknowledge chip irq)
    (hx : Upcoming (follow s chip irq).master (follow s chip irq).slave other x) :
    Upcoming s.master s.slave other x ∧ (other, x) ≠ (chip, irq) := by
  cases chip with
  | master =>
    obtain ⟨hm, hn⟩ := delivery_master_iff.mp h
    exact upcoming_master (m := withOutput s.master (s.getIRQ .master).isSome) hm hn he hx
  | slave =>
    obtain ⟨hm, hs⟩ := delivery_slave_iff.mp h
    rw [(follow_slave irq).1, (follow_slave irq).2, upcoming_withOutput_iff] at hx
    rw [← upcoming_master_withOutput_iff (s.getIRQ .master).isSome]
    exact upcoming_slave (m := withOutput s.master (s.getIRQ .master).isSome) hedge hm hs he hx

/-- The cascade acknowledges each of the requests it comes to once. `Q` is what else relates
the states and the requests. -/
theorem updateIRQ_nested {Q : State → List (Chip × Line) → State → Prop}
    (hquiet : ∀ s, Q s [] (s.output .master))
    (hlog : ∀ s rs t v, Q s rs t → Q s rs (t.log (.interrupt v)))
    (hack : ∀ s chip irq rs t, delivery s = .acknowledge chip irq → Q (follow s chip irq) rs t →
      Q s ((chip, irq) :: rs) t)
    {depth : Nat} (h : updateIRQ depth s .master = some t) (hedge : CascadeEdge s) :
    ∃ rs es, t.events = s.events ++ es ∧ Nested rs es ∧ rs.Nodup ∧
      (∀ r ∈ rs, Upcoming s.master s.slave r.1 r.2) ∧ Q s rs t := by
  have hends : ¬ Endless s.master s.slave := by
    intro he
    rw [updateIRQ_of_endless hedge he] at h
    cases h
  refine updateIRQ_rec (R := fun s t => CascadeEdge s → ¬ Endless s.master s.slave →
    ∃ rs es, t.events = s.events ++ es ∧ Nested rs es ∧ rs.Nodup ∧
      (∀ r ∈ rs, Upcoming s.master s.slave r.1 r.2) ∧ Q s rs t) ?_ ?_ ?_ h hedge hends
  · intro s _ _ _
    exact ⟨[], [], (List.append_nil _).symm, .quiet, .nil, by simp, hquiet s⟩
  · intro s _ _ _
    exact ⟨[], _, rfl, .spurious s.slave.base, .nil, by simp, hlog s [] _ _ (hquiet s)⟩
  · intro s chip irq t hd ih hedge he
    have hfollow : CascadeEdge (follow s chip irq) := by
      rw [CascadeEdge, follow_elcr]
      exact hedge
    obtain ⟨rs, es, hev, hnested, hnodup, hup, hq⟩ := ih hfollow (mt (endless_follow hedge hd).mp he)
    have hcome (r : Chip × Line) (hr : r ∈ rs) := upcoming_follow hedge he hd (hup r hr)
    refine ⟨_, _, ?_, .acknowledge chip irq (t.get chip).base hnested, ?_, ?_, ?_⟩
    · rw [interrupted, State.log, hev]
      cases chip <;> simp [follow, acknowledged, cascaded, State.log, State.set, State.output]
    · exact List.nodup_cons.mpr ⟨fun hmem => (hcome _ hmem).2 rfl, hnodup⟩
    · intro r hr
      rcases List.mem_cons.mp hr with rfl | hr
      · exact upcoming_of_delivery hd
      · exact (hcome r hr).1
    · exact hlog s _ t _ (hack s chip irq rs t hd hq)

theorem logged_eq {es : List Event} (h : t.events = s.events ++ es) : logged s t = es := by
  rw [logged, h, List.drop_left]

/-- What an operation logs before it calls `UpdateIRQ` is of no account. -/
theorem inOrder_cause {op : Op} {c : Controller} {before : List Event}
    (hcause : Cause s op chip c before) (es : List Event) :
    (InOrder (before ++ es) ↔ InOrder es) ∧ passed (before ++ es) = passed es := by
  have hsame : passed (before ++ es) = passed es ∧ requests (before ++ es) = requests es := by
    cases hcause <;> exact ⟨rfl, rfl⟩
  rw [inOrder_iff, inOrder_iff, hsame.1, hsame.2]
  exact ⟨Iff.rfl, rfl⟩

theorem updateIRQ_logged_master {depth : Nat} (h : updateIRQ depth s .master = some t)
    (hedge : CascadeEdge s) : ∃ rs es, t.events = s.events ++ es ∧ Nested rs es ∧ rs.Nodup := by
  obtain ⟨rs, es, hev, hnested, hnodup, -⟩ := updateIRQ_nested (Q := fun _ _ _ => True)
    (fun _ => trivial) (fun _ _ _ _ _ => trivial) (fun _ _ _ _ _ _ _ => trivial) h hedge
  exact ⟨rs, es, hev, hnested, hnodup⟩

theorem updateIRQ_logged {depth : Nat} (h : updateIRQ depth s chip = some t) (hedge : CascadeEdge s) :
    ∃ rs es, t.events = s.events ++ es ∧ Nested rs es ∧ rs.Nodup := by
  cases chip with
  | master => exact updateIRQ_logged_master h hedge
  | slave =>
    have hmore := updateIRQ_succ h
    rw [updateIRQ_slave] at hmore
    obtain ⟨rs, es, hev, hnested, hnodup⟩ := updateIRQ_logged_master hmore (cascaded_keeps hedge)
    exact ⟨rs, es, hev, hnested, hnodup⟩

end Cascade

/-! ## Operations -/

section Operations

variable {s t : State} {op : Op}

/-- An operation that passes several vectors to the CPU does not pass them in order. -/
theorem step_not_inOrder (hedge : CascadeEdge s) (h : step s op = some t)
    (hcalls : 2 ≤ (passed (logged s t)).length) : ¬ InOrder (logged s t) := by
  cases step_effect h with
  | @settings chip c _ _ _ =>
    have hsilent : (s.set chip c).events = s.events ++ [] := by
      rw [set_events, List.append_nil]
    rw [logged_eq hsilent] at hcalls
    cases hcalls
  | @update chip c before u _ hcause hu hend =>
    obtain ⟨rs, es, hev, hnested, hnodup⟩ := updateIRQ_logged hu (hcause.edge hedge)
    have hall : t.events = s.events ++ (before ++ es) := by
      rw [hend.events, hev, recorded, set_events, List.append_assoc]
    obtain ⟨hiff, hpassed⟩ := inOrder_cause hcause es
    rw [logged_eq hall] at hcalls ⊢
    rw [hpassed] at hcalls
    rw [hiff]
    exact hnested.not_inOrder hnodup hcalls

end Operations

/-- From reset on, no operation that returns and makes several calls of `Cpu::Interrupt`
passes the vectors in the order in which their requests were acknowledged. -/
theorem several_not_in_order (ops : List Op) {s t : State} (op : Op)
    (hs : exec step .initial ops = some s) (ht : step s op = some t)
    (hcalls : 2 ≤ (passed (logged s t)).length) : ¬ InOrder (logged s t) :=
  step_not_inOrder (exec_invariant (fun _ _ _ => step_keeps) initial_keeps hs) ht hcalls

/-- The controllers initialised as in a PC; lines 8 and 3 are raised while the master is
masked. -/
def twoMasked : List Op :=
  [.ioWrite 0x20 0x11, .ioWrite 0x21 0x08, .ioWrite 0x21 0x04, .ioWrite 0x21 0x01,
    .ioWrite 0xA0 0x11, .ioWrite 0xA1 0x70, .ioWrite 0xA1 0x02, .ioWrite 0xA1 0x01,
    .ioWrite 0x21 0xFF, .handleIRQ 8 true, .handleIRQ 3 true]

/-- When the mask is cleared both are delivered, in one operation. -/
theorem unmasked_not_in_order : ∃ s t, exec step .initial twoMasked = some s ∧
    step s (.ioWrite 0x21 0x00) = some t ∧ ¬ InOrder (logged s t) :=
  ⟨_, _, rfl, rfl, several_not_in_order twoMasked (.ioWrite 0x21 0x00) rfl rfl (by decide)⟩

/-- Line 8 is the first to be acknowledged, and the last to be passed to the CPU. -/
theorem first_passed_last : ∃ s t, exec step .initial twoMasked = some s ∧
    step s (.ioWrite 0x21 0x00) = some t ∧ requests (logged s t) = [(.slave, 0), (.master, 3)] ∧
      (passed (logged s t)).map Vector.number = [0x0B, 0x70] ∧ ¬ InOrder (logged s t) := by
  refine ⟨_, _, rfl, rfl, ?_, ?_, ?_⟩
  · decide
  · decide
  · decide

end OpenXbox.Pic.DeliveryOrder
