import OpenXbox.Pic.Termination

/-!
# Lines in service

Which lines are in service, told from the vectors that are passed to the CPU and from the commands
that end them alone, and when an interrupt respects them. The in-service registers of the two
controllers fall behind this: they miss the line of the master that the slave is behind.
-/

namespace OpenXbox.Pic.InService

open OpenXbox.Lib.Run OpenXbox.Pic.Device OpenXbox.Pic.Priority OpenXbox.Pic.Acknowledge
  OpenXbox.Pic.Cascade OpenXbox.Pic.Termination

/-! ## The order of the cascade -/

/-- The place of a line: 0, 1, the lines of the slave, line 2 of the master behind which these are,
then 3 to 7. -/
def cascadeRank : Chip → Line → Nat
  | .slave, irq => 2 + irq
  | .master, irq => if irq < 2 then irq else 8 + irq

/-- The lines that have been delivered and not ended since. -/
abbrev Service := Chip → Line → Bool

/-- Nothing is in service. -/
def Service.idle : Service := fun _ _ => false

def Service.put (held : Service) (chip : Chip) (irq : Line) (on : Bool) : Service :=
  fun other n => if other = chip ∧ n = irq then on else held other n

/-- The CPU takes a line of the slave through line 2 of the master: both are in service. -/
def Service.deliver (held : Service) : Chip → Line → Service
  | .master, irq => held.put .master irq true
  | .slave, irq => (held.put .slave irq true).put .master 2 true

/-- The first line in service of a controller is ended. -/
def Service.endFirst (held : Service) (chip : Chip) : Service :=
  fun other n => if other = chip ∧ ∀ m < n, held chip m = false then false else held other n

/-- An OCW2 ends the first line in service, or the one it names, or none. -/
def Service.ocw2 (held : Service) (chip : Chip) (value : Word) (command : Nat) : Service :=
  match command with
  | 1 | 5 => held.endFirst chip
  | 3 | 7 => held.put chip (lineOf (value &&& 7).toNat 0) false
  | _ => held

def Service.command (held : Service) (chip : Chip) (value : Word) : Service :=
  if value &&& 0x10 ≠ 0 then held
  else if value &&& 0x08 ≠ 0 then held
  else held.ocw2 chip value (value >>> 5).toNat

/-- The lines in service after the end of interrupt that an operation may be, told from the command
alone. -/
def Service.endBy (held : Service) : Op → Service
  | .ioWrite port value =>
    if port = 0x20 then held.command .master value
    else if port = 0xA0 then held.command .slave value
    else held
  | .handleIRQ _ _ | .ioRead _ => held

/-- The lines in service after an event. A spurious interrupt is none of a line, and which
in-service bit a command clears is not looked at. -/
def track (held : Service) : Event → Service
  | .acknowledge _ _ | .ended _ _ => held
  | .interrupt v => if v.spurious then held else held.deliver v.chip v.irq
  | .polled chip irq => held.put chip irq true
  | .reset chip => fun other n => if other = chip then false else held other n

/-- All lines in service come after this one. -/
def Leads (held : Service) (chip : Chip) (irq : Line) : Prop :=
  ∀ other n, held other n = true → cascadeRank chip irq < cascadeRank other n

/-- An interrupt that is passed to the CPU leads the lines in service. -/
def Admits (held : Service) : Event → Prop
  | .interrupt v => v.spurious = false → Leads held v.chip v.irq
  | _ => True

/-- The events, one after the other. -/
def listen (held : Service) (e : Event) : Option Service := some (track held e)

instance (held : Service) (chip : Chip) (irq : Line) : Decidable (Leads held chip irq) :=
  decidable_of_iff (∀ other ∈ [Chip.master, Chip.slave], ∀ n, held other n = true →
      cascadeRank chip irq < cascadeRank other n)
    ⟨fun h other => h other (by cases other <;> simp), fun h other _ => h other⟩

instance (held : Service) (e : Event) : Decidable (Admits held e) :=
  match e with
  | .interrupt v => inferInstanceAs (Decidable (v.spurious = false → _))
  | .acknowledge _ _ | .polled _ _ | .ended _ _ | .reset _ => inferInstanceAs (Decidable True)

/-! ### Ranks -/

theorem rank_master_iff (n m : Line) :
    cascadeRank .master n < cascadeRank .master m ↔ n < m := by
  revert n m
  decide

theorem rank_slave_iff (n m : Line) : cascadeRank .slave n < cascadeRank .slave m ↔ n < m := by
  revert n m
  decide

theorem rank_master_slave_iff (n m : Line) :
    cascadeRank .master n < cascadeRank .slave m ↔ n < 2 := by
  revert n m
  decide

theorem rank_slave_master_iff (n m : Line) :
    cascadeRank .slave n < cascadeRank .master m ↔ 2 ≤ m := by
  revert n m
  decide

/-! ### Events -/

theorem guarded_listen_cons (held : Service) (e : Event) (es : List Event) :
    Guarded listen Admits held (e :: es) ↔
      Admits held e ∧ Guarded listen Admits (track held e) es := by
  rw [Guarded, listen]
  simp

theorem exec_listen (held : Service) (es : List Event) :
    exec listen held es = some (es.foldl track held) := by
  induction es generalizing held with
  | nil => rfl
  | cons e es ih => exact ih (track held e)

theorem Leads.put {held : Service} {chip other : Chip} {n m : Line} (h : Leads held chip n)
    (hlt : cascadeRank chip n < cascadeRank other m) : Leads (held.put other m true) chip n := by
  intro c x hon
  rw [Service.put] at hon
  split at hon
  · next heq =>
    rw [heq.1, heq.2]
    exact hlt
  · exact h c x hon

theorem Service.put_comm {held : Service} {chip other : Chip} {n m : Line} {on on' : Bool}
    (hne : chip ≠ other) :
    (held.put chip n on).put other m on' = (held.put other m on').put chip n on := by
  funext c x
  rw [Service.put, Service.put, Service.put, Service.put]
  by_cases hc : c = chip
  · have hother : ¬ (c = other ∧ x = m) := fun h => hne (hc.symm.trans h.1)
    rw [if_neg hother, if_neg hother]
  · have hchip : ¬ (c = chip ∧ x = n) := fun h => hc h.1
    rw [if_neg hchip, if_neg hchip]

theorem Service.endFirst_eq_true_iff {held : Service} {chip : Chip} {n : Line} :
    held.endFirst chip chip n = true ↔ held chip n = true ∧ ∃ m < n, held chip m = true := by
  rw [Service.endFirst]
  split
  · next h =>
    refine iff_of_false Bool.false_ne_true ?_
    rintro ⟨-, m, hlt, hm⟩
    rw [h.2 m hlt] at hm
    exact Bool.false_ne_true hm
  · next h =>
    refine ⟨fun hn => ⟨hn, ?_⟩, fun hn => hn.1⟩
    by_contra hnone
    exact h ⟨rfl, fun m hlt => Bool.eq_false_iff.mpr fun hm => hnone ⟨m, hlt, hm⟩⟩

theorem Service.endFirst_of_ne {held : Service} {chip other : Chip} (hne : other ≠ chip) (n : Line) :
    held.endFirst chip other n = held other n := if_neg fun h => hne h.1

/-! ## The registers -/

/-- The lines in the in-service registers. -/
def service (s : State) : Service := fun chip n => (s.get chip).isr.getLsbD n

theorem service_congr {s t : State} (h : ∀ chip, (t.get chip).isr = (s.get chip).isr) :
    service t = service s := by
  funext chip n
  rw [service, service, h chip]

/-- One line is put in or out of service. -/
theorem service_set {s : State} {chip : Chip} {c : Controller} {irq : Line} {on : Bool}
    (h : ∀ n : Line, c.isr.getLsbD n = if n = irq then on else (s.get chip).isr.getLsbD n) :
    service (s.set chip c) = (service s).put chip irq on := by
  funext other n
  rw [service, get_set, Service.put, service]
  by_cases hc : other = chip
  · rw [if_pos hc, h, hc]
    simp only [true_and]
  · rw [if_neg hc, if_neg fun hboth => hc hboth.1]

/-- The registers hold the lines of the slave and lines 0 and 1 of the master. The other lines of the
master may be in service without them: line 2 is not set by a delivery of the slave, and the end of
interrupt for it ends another line. -/
structure Covers (held regs : Service) : Prop where
  slave : ∀ n, held .slave n = regs .slave n
  master : ∀ n, regs .master n = true → held .master n = true
  first : ∀ n, n < 2 → held .master n = true → regs .master n = true

section Covers

variable {held regs : Service}

theorem Covers.put (h : Covers held regs) (chip : Chip) (irq : Line) (on : Bool) :
    Covers (held.put chip irq on) (regs.put chip irq on) := by
  refine ⟨fun n => ?_, fun n => ?_, fun n hlt => ?_⟩
  · simp only [Service.put, h.slave n]
  · simp only [Service.put]
    split
    · exact id
    · exact h.master n
  · simp only [Service.put]
    split
    · exact id
    · exact h.first n hlt

/-- Line 2 is in service without its register. -/
theorem Covers.link (h : Covers held regs) : Covers (held.put .master 2 true) regs := by
  refine ⟨fun n => h.slave n, fun n hon => ?_, fun n hlt hon => ?_⟩
  · rw [Service.put]
    split
    · rfl
    · exact h.master n hon
  · have hne : ¬ (Chip.master = .master ∧ n = 2) := fun he => absurd (he.2 ▸ hlt) (by decide)
    rw [Service.put, if_neg hne] at hon
    exact h.first n hlt hon

theorem Covers.deliver (h : Covers held regs) (chip : Chip) (irq : Line) :
    Covers (held.deliver chip irq) (regs.put chip irq true) := by
  cases chip with
  | master => exact h.put .master irq true
  | slave => exact (h.put .slave irq true).link

theorem Covers.reset (h : Covers held regs) (chip : Chip) :
    Covers (track held (.reset chip)) (track regs (.reset chip)) := by
  refine ⟨fun n => ?_, fun n => ?_, fun n hlt => ?_⟩
  · simp only [track, h.slave n]
  · simp only [track]
    split
    · exact id
    · exact h.master n
  · simp only [track]
    split
    · exact id
    · exact h.first n hlt

/-- The first line of each is ended, which need not be the same for the master. -/
theorem Covers.endFirst (h : Covers held regs) (chip : Chip) :
    Covers (held.endFirst chip) (regs.endFirst chip) := by
  cases chip with
  | slave =>
    have hsame : held .slave = regs .slave := funext h.slave
    refine ⟨fun n => ?_, fun n => ?_, fun n hlt => ?_⟩
    · simp only [Service.endFirst, hsame]
    · rw [Service.endFirst_of_ne (by decide), Service.endFirst_of_ne (by decide)]
      exact h.master n
    · rw [Service.endFirst_of_ne (by decide), Service.endFirst_of_ne (by decide)]
      exact h.first n hlt
  | master =>
    refine ⟨fun n => ?_, fun n => ?_, fun n hlt => ?_⟩
    · rw [Service.endFirst_of_ne (by decide), Service.endFirst_of_ne (by decide)]
      exact h.slave n
    · rw [Service.endFirst_eq_true_iff, Service.endFirst_eq_true_iff]
      rintro ⟨hn, m, hm, hon⟩
      exact ⟨h.master n hn, m, hm, h.master m hon⟩
    · rw [Service.endFirst_eq_true_iff, Service.endFirst_eq_true_iff]
      rintro ⟨hn, m, hm, hon⟩
      exact ⟨h.first n hlt hn, m, hm, h.first m (hm.trans hlt) hon⟩

end Covers

/-- The events from one state to another account for the lines in service, and they are
fully nested exactly when `nested` holds. -/
def Traced (s : State) (held : Service) (t : State) (held' : Service) (nested : Prop) : Prop :=
  ∃ es, t.events = s.events ++ es ∧ es.foldl track held = held' ∧
    (Guarded listen Admits held es ↔ nested)

section Traced

variable {s t u : State} {held held' held'' : Service} {nested nested' : Prop}

theorem Traced.silent (he : t.events = s.events) (held : Service) : Traced s held t held True :=
  ⟨[], by simp [he], rfl, by simp⟩

theorem Traced.trans (h : Traced s held t held' nested) (h' : Traced t held' u held'' nested') :
    Traced s held u held'' (nested ∧ nested') := by
  obtain ⟨es, he, rfl, hg⟩ := h
  obtain ⟨es', he', rfl, hg'⟩ := h'
  refine ⟨es ++ es', ?_, List.foldl_append, ?_⟩
  · rw [he', he, List.append_assoc]
  · rw [guarded_append, hg, exec_listen, ← hg']
    simp

theorem Traced.congr (h : Traced s held t held' nested) (hiff : nested ↔ nested') :
    Traced s held t held' nested' := by
  obtain ⟨es, he, hx, hg⟩ := h
  exact ⟨es, he, hx, hg.trans hiff⟩

theorem Traced.after_silent (h : Traced s held t held' True) (h' : Traced t held' u held'' nested) :
    Traced s held u held'' nested :=
  (h.trans h').congr (iff_of_eq (true_and nested))

theorem Traced.then_silent (h : Traced s held t held' nested) (h' : Traced t held' u held'' True) :
    Traced s held u held'' nested :=
  (h.trans h').congr (iff_of_eq (and_true nested))

end Traced

/-! ## Fully nested mode -/

/-- What decides how a controller serves its requests. -/
def mode (c : Controller) : Bool × Bool × Bool × Line × Byte :=
  (c.autoEOI, c.specialMask, c.isSpecialFullyNestedMode, c.priorityAdd, c.elcr)

/-- Neither automatic EOI nor the special modes, no rotation, and edge-triggered lines. -/
structure Nominal (c : Controller) : Prop where
  autoEOI : c.autoEOI = false
  specialMask : c.specialMask = false
  specialNested : c.isSpecialFullyNestedMode = false
  rotation : c.priorityAdd = 0
  edge : c.elcr = 0

theorem nominal_iff (c : Controller) : Nominal c ↔ mode c = (false, false, false, 0, 0) := by
  simp only [mode, Prod.mk.injEq]
  exact ⟨fun h => ⟨h.1, h.2, h.3, h.4, h.5⟩, fun ⟨h1, h2, h3, h4, h5⟩ => ⟨h1, h2, h3, h4, h5⟩⟩

instance (c : Controller) : Decidable (Nominal c) := decidable_of_iff _ (nominal_iff c).symm

theorem Nominal.of_mode {c c' : Controller} (h : Nominal c) (hm : mode c' = mode c) : Nominal c' :=
  (nominal_iff c').mpr (hm.trans ((nominal_iff c).mp h))

theorem mode_latch (c : Controller) (n : Line) (out : Bool) : mode (c.latch n out) = mode c := by
  obtain ⟨irr, hlatch⟩ := latch_eq c n out
  rw [hlatch]
  rfl

theorem mode_acknowledge {c : Controller} (ha : c.autoEOI = false) (n : Line) :
    mode (c.acknowledge n) = mode c := by
  rw [acknowledge_eq]
  simp [mode, ha]

section Registers

variable {chip : Chip} {c : Controller}

theorem Nominal.on_holding_iff (h : Nominal c) (m : Line) : On (c.holding chip) m ↔ On c.isr m := by
  rw [Acknowledge.on_holding_iff, h.specialMask, h.specialNested]
  simp

theorem prio_zero (n : Line) : prio 0 n = n.val := by
  revert n
  decide

/-- A request is delivered when its line comes before the lines in service. -/
theorem Nominal.deliverable_iff (h : Nominal c) (n : Line) :
    Deliverable chip c n ↔ On c.pending n ∧ ∀ m, On c.isr m → n < m := by
  rw [Deliverable, h.rotation]
  simp only [h.on_holding_iff, prio_zero]
  exact Iff.rfl

/-- Before the first line that can be delivered no other is pending. -/
theorem Nominal.not_pending (h : Nominal c) {n m : Line} (hn : getIRQ chip c = some n) (hm : m < n) :
    ¬ On c.pending m := by
  intro hp
  have hle := (getIRQ_eq_some_iff.mp hn).2 m hp
  rw [h.rotation, prio_zero, prio_zero] at hle
  exact absurd hle (Nat.not_le.mpr hm)

/-- Nothing can be delivered after an acknowledgement. -/
theorem Nominal.getIRQ_acknowledge (h : Nominal c) {n : Line} (hn : getIRQ chip c = some n)
    (hcascade : chip = .master → n ≠ 2) : getIRQ chip (c.acknowledge n) = none :=
  getIRQ_eq_none_iff.mpr fun _ => not_deliverable_of_service hn h.autoEOI hcascade

end Registers

/-! ## Changes of the lines in service -/

theorem getLsbD_set (mask : Byte) (irq n : Line) :
    (mask ||| bit irq).getLsbD n = if n = irq then true else mask.getLsbD n := by
  rw [BitVec.getLsbD_or, getLsbD_bit]
  by_cases hn : n = irq
  · simp [hn]
  · simp [hn]

theorem getLsbD_clear (mask : Byte) (irq n : Line) :
    (mask &&& ~~~bit irq).getLsbD n = if n = irq then false else mask.getLsbD n := by
  rw [BitVec.getLsbD_and, BitVec.getLsbD_not, getLsbD_bit, decide_eq_true n.isLt]
  by_cases hn : n = irq
  · simp [hn]
  · simp [hn]

theorem service_output (s : State) (chip : Chip) : service (s.output chip) = service s :=
  service_congr fun other => by cases chip <;> cases other <;> rfl

theorem service_acknowledged (s : State) (chip : Chip) (ha : (s.get chip).autoEOI = false)
    (irq : Line) : service (acknowledged s chip irq) = (service s).put chip irq true := by
  refine service_set (s := s) (c := (s.get chip).acknowledge irq) fun n => ?_
  rw [acknowledge_eq, ha]
  exact getLsbD_set _ irq n

theorem latch_isr (c : Controller) (n : Line) (out : Bool) : (c.latch n out).isr = c.isr := by
  obtain ⟨irr, hlatch⟩ := latch_eq c n out
  rw [hlatch]

theorem service_endService (s : State) (chip : Chip) (irq : Line) :
    service (s.endService chip irq) = (service s).put chip irq false :=
  service_set fun n => getLsbD_clear _ irq n

/-- Without a line in service there is none to end. -/
theorem service_endFirst_of_none {s : State} {chip : Chip}
    (h : getPriority (s.get chip).priorityAdd (s.get chip).isr = 8) :
    (service s).endFirst chip = service s := by
  funext other n
  by_cases hc : other = chip
  · subst hc
    have hnone := (eq_zero_iff _).mp (getPriority_eq_eight_iff.mp h) n
    have hoff : service s other n = false := Bool.eq_false_iff.mpr hnone
    rw [Service.endFirst, hoff]
    exact ite_self false
  · exact Service.endFirst_of_ne hc n

/-- The first line in service is the one of the highest priority. -/
theorem service_endFirst {s : State} {chip : Chip} (hnominal : Nominal (s.get chip))
    (h : getPriority (s.get chip).priorityAdd (s.get chip).isr ≠ 8) :
    service (s.endService chip
        (lineOf (getPriority (s.get chip).priorityAdd (s.get chip).isr) (s.get chip).priorityAdd)) =
      (service s).endFirst chip := by
  obtain ⟨n, hn, hfirst⟩ := exists_first (s.get chip).priorityAdd (mt getPriority_eq_eight_iff.mpr h)
  rw [getPriority_eq hn hfirst, lineOf_prio, service_endService]
  rw [hnominal.rotation] at hfirst
  simp only [prio_zero] at hfirst
  funext other m
  by_cases hc : other = chip
  · subst hc
    rw [Bool.eq_iff_iff, Service.endFirst_eq_true_iff, Service.put]
    constructor
    · intro hm
      by_cases hmn : other = other ∧ m = n
      · rw [if_pos hmn] at hm
        exact absurd hm Bool.false_ne_true
      · rw [if_neg hmn] at hm
        have hne : n ≠ m := fun he => hmn ⟨rfl, he.symm⟩
        exact ⟨hm, n, lt_of_le_of_ne (hfirst m hm) hne, hn⟩
    · rintro ⟨hm, k, hlt, hk⟩
      have hne : ¬ (other = other ∧ m = n) := fun he =>
        absurd (hfirst k hk) (Nat.not_le.mpr (he.2 ▸ hlt))
      rw [if_neg hne]
      exact hm
  · rw [Service.endFirst_of_ne hc, Service.put, if_neg fun hboth => hc hboth.1]

theorem service_cascaded (s : State) : service (cascaded s) = service s :=
  service_congr fun other => by
    cases other with
    | master => exact latch_isr s.master 2 _
    | slave => rfl

end OpenXbox.Pic.InService
