import OpenXbox.Pic.DeliveryOrder

/-!
# Edge-triggered lines

What is seen of a line from outside: the level that is presented on it, how often that
has gone from low to high, and how often its vector has been passed to the CPU or has
been returned by a poll. Without level triggering a request bit stands for an edge that
has neither been acknowledged nor withdrawn, so there is no acknowledgement without one.
-/

namespace OpenXbox.Pic.EdgeTriggered

open OpenXbox.Lib.Run OpenXbox.Pic.Device OpenXbox.Pic.Priority OpenXbox.Pic.Acknowledge
  OpenXbox.Pic.Cascade OpenXbox.Pic.Termination OpenXbox.Pic.Operations OpenXbox.Pic.DeliveryOrder

/-! ## A line from outside -/

/-- A line since its controller was initialised. -/
structure Wire where
  /-- The controller has been initialised. -/
  watched : Bool
  level : Bool
  /-- Transitions from low to high. -/
  edges : Nat
  /-- The last of them is neither acknowledged nor withdrawn. -/
  requested : Bool
  /-- Vectors of the line that are passed to the CPU, and polls that return it. -/
  delivered : Nat

/-- Nothing is known of the line yet. -/
def Wire.unwatched : Wire := ⟨false, false, 0, false, 0⟩

/-- An ICW1 forgets the level. -/
def Wire.fresh : Wire := ⟨true, false, 0, false, 0⟩

def Wire.drive (w : Wire) (level : Bool) : Wire :=
  { w with
    level := level
    edges := if level && !w.level then w.edges + 1 else w.edges
    requested := level && (w.requested || !w.level) }

/-- The line is driven by `HandleIRQ` only. -/
def present (line : Chip × Line) (w : Wire) (op : Op) : Wire :=
  match presented op with
  | some (chip, irq, level) => if (chip, irq) = line then w.drive level else w
  | none => w

def hear (line : Chip × Line) (w : Wire) : Event → Wire
  | .acknowledge chip irq => if (chip, irq) = line then { w with requested := false } else w
  | .interrupt v => if (v.chip, v.irq) = line then { w with delivered := w.delivered + 1 } else w
  | .polled chip irq => if (chip, irq) = line then { w with delivered := w.delivered + 1 } else w
  | .ended _ _ => w
  | .reset chip => if chip = line.1 then .fresh else w

/-- An operation, and what is seen of the line. -/
def observe (line : Chip × Line) (x : State × Wire) (op : Op) : Option (State × Wire) :=
  (step x.1 op).map fun t => (t, (logged x.1 t).foldl (hear line) (present line x.2 op))

/-- The line is not masked when it is acknowledged, and its request stands. The masks are
not changed after an operation's first acknowledgement. -/
def Admits (line : Chip × Line) (t : State) (w : Wire) : Event → Prop
  | .acknowledge chip irq => (chip, irq) = line → w.watched = true →
    ¬ On (t.get chip).imr irq ∧ w.level = true ∧ w.requested = true
  | .interrupt _ | .polled _ _ | .ended _ _ | .reset _ => True

/-- The events, one after the other. -/
def listen (line : Chip × Line) (w : Wire) (e : Event) : Option Wire := some (hear line w e)

/-- Every acknowledgement of the line in an operation is admitted. -/
def Proper (line : Chip × Line) (x : State × Wire) (op : Op) : Prop :=
  ∀ t, step x.1 op = some t →
    Guarded (listen line) (Admits line t) (present line x.2 op) (logged x.1 t)

/-- All ELCR bits are clear. -/
def EdgeOnly (s : State) : Prop := ∀ chip, (s.get chip).elcr = 0

instance (s : State) : Decidable (EdgeOnly s) :=
  decidable_of_iff (s.master.elcr = 0 ∧ s.slave.elcr = 0)
    ⟨fun h chip => by cases chip <;> [exact h.1; exact h.2], fun h => ⟨h .master, h .slave⟩⟩

/-- Neither line 2 of the master, which is the slave's, nor one whose vector may be spurious. -/
def Genuine (line : Chip × Line) : Prop := line ≠ (.master, 2) ∧ line.2 ≠ 7

instance (line : Chip × Line) : Decidable (Genuine line) := inferInstanceAs (Decidable (_ ∧ _))

/-! ## Registers and wires -/

/-- The registers know no more of the line than has been seen. -/
structure Follows (c : Controller) (irq : Line) (w : Wire) : Prop where
  level : On c.previousIRR irq ↔ w.level = true
  request : On c.irr irq → w.requested = true
  standing : w.requested = true → w.level = true
  count : w.delivered + w.requested.toNat ≤ w.edges

def Tracks (line : Chip × Line) (s : State) (w : Wire) : Prop :=
  w.watched = true → Follows (s.get line.1) line.2 w

section Registers

variable {c c' : Controller} {irq n : Line} {w : Wire}

theorem Follows.congr (h : Follows c irq w) (hprev : On c'.previousIRR irq ↔ On c.previousIRR irq)
    (hirr : On c'.irr irq → On c.irr irq) : Follows c' irq w :=
  ⟨hprev.trans h.level, fun hon => h.request (hirr hon), h.standing, h.count⟩

/-- An acknowledgement takes the request away; then the vector is delivered. -/
theorem Follows.serve (h : Follows c irq w) (hreq : w.requested = true)
    (hprev : On c'.previousIRR irq ↔ On c.previousIRR irq) (hirr : ¬ On c'.irr irq) :
    Follows c' irq { w with requested := false, delivered := w.delivered + 1 } := by
  have hcount := h.count
  rw [hreq] at hcount
  exact ⟨hprev.trans h.level, fun hon => absurd hon hirr, fun hlow => absurd hlow Bool.false_ne_true,
    hcount⟩

theorem on_latch_irr_true_iff (hedge : ¬ On c.elcr irq) :
    On (c.latch irq true).irr irq ↔ On c.irr irq ∨ ¬ On c.previousIRR irq := by
  have hmode : ¬ (c.elcr &&& bit irq ≠ 0) := not_not.mpr ((and_bit_eq_zero_iff _ _).mpr hedge)
  rw [Controller.latch, if_neg hmode, if_pos rfl]
  dsimp only
  split
  · next hlow =>
    have hprev := (and_bit_eq_zero_iff _ _).mp hlow
    simp [hprev]
  · next hhigh =>
    have hprev := not_not.mp (mt (and_bit_eq_zero_iff _ _).mpr hhigh)
    simp [hprev]

/-- A request is set by an edge and withdrawn by a low level. -/
theorem Follows.latch (h : Follows c irq w) (hedge : ¬ On c.elcr irq) (level : Bool) :
    Follows (c.latch irq level) irq (w.drive level) := by
  have hcount := h.count
  refine ⟨?_, fun hon => ?_, fun hreq => ?_, ?_⟩
  · rw [on_latch_previous_iff, if_pos rfl]
    rfl
  · cases level with
    | false => exact absurd hon (not_on_latch_irr c irq)
    | true =>
      rcases (on_latch_irr_true_iff hedge).mp hon with hirr | hlow
      · simp [Wire.drive, h.request hirr]
      · have hlevel : w.level = false := Bool.eq_false_iff.mpr (mt h.level.mpr hlow)
        simp [Wire.drive, hlevel]
  · exact (Bool.and_eq_true _ _ ▸ hreq).1
  · cases level with
    | false =>
      simp only [Wire.drive, Bool.false_and, Bool.false_eq_true, if_false, Bool.toNat_false]
      omega
    | true =>
      cases hlevel : w.level with
      | false =>
        simp only [Wire.drive, hlevel, Bool.not_false, Bool.and_self, Bool.or_true, if_true,
          Bool.toNat_true]
        omega
      | true =>
        simp only [Wire.drive, hlevel, Bool.not_true, Bool.and_false, Bool.or_false, Bool.true_and,
          Bool.false_eq_true, if_false]
        exact hcount

theorem Follows.latch_other (h : Follows c irq w) (hne : irq ≠ n) (level : Bool) :
    Follows (c.latch n level) irq w := by
  refine h.congr ?_ (on_latch_irr_of_ne hne c level).mp
  rw [on_latch_previous_iff, if_neg hne]

theorem follows_fresh (helcr : Byte) : Follows (.cleared helcr) irq .fresh := by
  have hnone : ¬ On 0 irq := (eq_zero_iff 0).mp rfl irq
  refine ⟨iff_of_false hnone Bool.false_ne_true, fun hon => absurd hon hnone, fun h => h, le_rfl⟩

end Registers

/-! ## The events of a cascade -/

section Events

variable {line : Chip × Line} {rs : List (Chip × Line)} {es : List Event} {t : State}

theorem guarded_listen_cons (w : Wire) (e : Event) (es : List Event) :
    Guarded (listen line) (Admits line t) w (e :: es) ↔
      Admits line t w e ∧ Guarded (listen line) (Admits line t) (hear line w e) es := by
  rw [Guarded, listen]
  simp

theorem exec_listen (w : Wire) (es : List Event) : exec (listen line) w es = some (es.foldl (hear line) w) := by
  induction es generalizing w with
  | nil => rfl
  | cons e es ih => exact ih (hear line w e)

/-- A line is delivered once if it is among the requests, and otherwise not at all. -/
theorem hear_nested (hline : Genuine line) (h : Nested rs es) (hnodup : rs.Nodup) (w : Wire) :
    es.foldl (hear line) w =
      if line ∈ rs then { w with requested := false, delivered := w.delivered + 1 } else w := by
  induction h generalizing w with
  | quiet => rfl
  | spurious base =>
    have hne : ¬ (Chip.slave, (7 : Line)) = line := fun he => hline.2 (he ▸ rfl)
    simp [hear, hne]
  | @acknowledge chip irq base rs es _ ih =>
    obtain ⟨hnew, hrest⟩ := List.nodup_cons.mp hnodup
    rw [List.foldl_cons, List.foldl_append, ih hrest]
    by_cases he : (chip, irq) = line
    · rw [he] at hnew
      simp [hear, he, hnew]
    · have hne : ¬ line = (chip, irq) := fun h => he h.symm
      simp [hear, he, hne]

/-- What stands at the start of a cascade stands when it is acknowledged. -/
theorem admits_nested (h : Nested rs es) (hnodup : rs.Nodup) {w : Wire}
    (hstand : line ∈ rs → w.watched = true →
      ¬ On (t.get line.1).imr line.2 ∧ w.level = true ∧ w.requested = true) :
    Guarded (listen line) (Admits line t) w es := by
  induction h generalizing w with
  | quiet => exact trivial
  | spurious base => exact (guarded_listen_cons w _ []).mpr ⟨trivial, trivial⟩
  | @acknowledge chip irq base rs es _ ih =>
    obtain ⟨hnew, hrest⟩ := List.nodup_cons.mp hnodup
    have hnext : line ∈ rs → (hear line w (.acknowledge chip irq)).watched = true →
        ¬ On (t.get line.1).imr line.2 ∧ (hear line w (.acknowledge chip irq)).level = true ∧
          (hear line w (.acknowledge chip irq)).requested = true := by
      intro hmem hwatched
      have hne : ¬ (chip, irq) = line := fun he => hnew (he ▸ hmem)
      rw [hear, if_neg hne] at hwatched ⊢
      exact hstand (List.mem_cons_of_mem _ hmem) hwatched
    refine (guarded_listen_cons w _ _).mpr ⟨?_, ?_⟩
    · rintro rfl hwatched
      exact hstand List.mem_cons_self hwatched
    · refine guarded_append.mpr ⟨ih hrest hnext, fun u _ => ?_⟩
      exact (guarded_listen_cons u _ []).mpr ⟨trivial, trivial⟩

end Events

/-! ## The registers in a cascade -/

/-- What a cascade leaves as it is. -/
def still (line : Chip × Line) (s : State) : Bool × Byte × Byte :=
  ((s.get line.1).previousIRR.getLsbD line.2, (s.get line.1).imr, (s.get line.1).elcr)

section Cascade

variable {line : Chip × Line} {s t : State}

theorem still_output (line : Chip × Line) (s : State) (chip : Chip) :
    still line (s.output chip) = still line s := by
  obtain ⟨c, n⟩ := line
  cases c <;> cases chip <;> rfl

theorem still_acknowledged (line : Chip × Line) (s : State) (chip : Chip) (irq : Line) :
    still line (acknowledged s chip irq) = still line s := by
  have hack (c : Controller) : (c.acknowledge irq).previousIRR = c.previousIRR ∧
      (c.acknowledge irq).imr = c.imr ∧ (c.acknowledge irq).elcr = c.elcr := by
    rw [acknowledge_eq]
    exact ⟨rfl, rfl, rfl⟩
  have hsame (c : Controller) (n : Line) :
      ((c.acknowledge irq).previousIRR.getLsbD n, (c.acknowledge irq).imr, (c.acknowledge irq).elcr) =
        (c.previousIRR.getLsbD n, c.imr, c.elcr) := by
    obtain ⟨hprev, himr, helcr⟩ := hack c
    rw [hprev, himr, helcr]
  obtain ⟨c, n⟩ := line
  cases c with
  | master =>
    cases chip with
    | master => exact hsame s.master n
    | slave => rfl
  | slave =>
    cases chip with
    | master => rfl
    | slave => exact hsame s.slave n

theorem still_cascaded (hne : line ≠ (.master, 2)) (s : State) : still line (cascaded s) = still line s := by
  obtain ⟨c, n⟩ := line
  cases c with
  | slave => rfl
  | master =>
    have hn : n ≠ 2 := fun h => hne (h ▸ rfl)
    have hprev := on_latch_previous_iff s.master 2 n (s.getIRQ .slave).isSome
    rw [if_neg hn] at hprev
    have himr : (s.master.latch 2 (s.getIRQ .slave).isSome).imr = s.master.imr := by
      obtain ⟨irr, hlatch⟩ := latch_eq s.master 2 (s.getIRQ .slave).isSome
      rw [hlatch]
    have helcr := (latch_holding s.master 2 (s.getIRQ .slave).isSome .master).2.2.1
    exact Prod.ext (Bool.eq_iff_iff.mpr hprev) (Prod.ext himr helcr)

theorem still_updateIRQ (hne : line ≠ (.master, 2)) {depth : Nat} {chip : Chip}
    (h : updateIRQ depth s chip = some t) : still line t = still line s := by
  refine updateIRQ_invariant (I := fun u => still line u = still line s) ?_ ?_ ?_ ?_ h rfl
  · exact fun u chip hu => (still_output line u chip).trans hu
  · exact fun u e hu => hu
  · exact fun u chip irq hu => (still_acknowledged line u chip irq).trans hu
  · exact fun u hu => (still_cascaded hne u).trans hu

theorem still_follow (hne : line ≠ (.master, 2)) (s : State) (chip : Chip) (irq : Line) :
    still line (follow s chip irq) = still line s := by
  have hack := (still_acknowledged line (s.output .master) chip irq).trans (still_output line s .master)
  cases chip with
  | master => exact hack
  | slave => exact (still_cascaded hne _).trans hack

/-- A request that is left has not been acknowledged, unless it is level-triggered. -/
theorem irr_follow (hne : line ≠ (.master, 2)) {chip : Chip} {irq : Line}
    (hon : On ((follow s chip irq).get line.1).irr line.2) :
    On (s.get line.1).irr line.2 ∧ (line = (chip, irq) → On (s.get line.1).elcr line.2) := by
  obtain ⟨c, n⟩ := line
  cases chip with
  | master =>
    cases c with
    | slave => exact ⟨hon, fun h => Chip.noConfusion (congrArg Prod.fst h)⟩
    | master =>
      obtain ⟨hirr, helcr⟩ := (on_acknowledge_irr_iff (withOutput s.master _) irq n).mp hon
      refine ⟨hirr, fun h => ?_⟩
      obtain rfl : n = irq := congrArg Prod.snd h
      exact helcr rfl
  | slave =>
    cases c with
    | master =>
      have hn : n ≠ 2 := fun h => hne (h ▸ rfl)
      refine ⟨?_, fun h => Chip.noConfusion (congrArg Prod.fst h)⟩
      exact (on_latch_irr_of_ne hn (withOutput s.master (s.getIRQ .master).isSome) _).mp hon
    | slave =>
      obtain ⟨hirr, helcr⟩ := (on_acknowledge_irr_iff s.slave irq n).mp hon
      refine ⟨hirr, fun h => ?_⟩
      obtain rfl : n = irq := congrArg Prod.snd h
      exact helcr rfl

/-- What is left of the line's requests, when these have been acknowledged. -/
def Spent (line : Chip × Line) (s : State) (rs : List (Chip × Line)) (t : State) : Prop :=
  (s.get line.1).elcr = 0 → On (t.get line.1).irr line.2 → On (s.get line.1).irr line.2 ∧ line ∉ rs

theorem spent_output (line : Chip × Line) (s : State) : Spent line s [] (s.output .master) := by
  intro _ hon
  obtain ⟨c, n⟩ := line
  cases c <;> exact ⟨hon, List.not_mem_nil⟩

theorem Spent.log {rs : List (Chip × Line)} (h : Spent line s rs t) (e : Event) :
    Spent line s rs (t.log e) := by
  intro helcr hon
  obtain ⟨c, n⟩ := line
  cases c <;> exact h helcr hon

theorem Spent.acknowledge (hne : line ≠ (.master, 2)) {chip : Chip} {irq : Line} {rs : List (Chip × Line)}
    (h : Spent line (follow s chip irq) rs t) : Spent line s ((chip, irq) :: rs) t := by
  intro helcr hon
  have helcr' : ((follow s chip irq).get line.1).elcr = 0 :=
    (congrArg (fun r => r.2.2) (still_follow hne s chip irq)).trans helcr
  obtain ⟨hirr, hrs⟩ := h helcr' hon
  obtain ⟨hirr', hlevel⟩ := irr_follow hne hirr
  refine ⟨hirr', fun hmem => ?_⟩
  rcases List.mem_cons.mp hmem with heq | hmem
  · exact (eq_zero_iff 0).mp rfl line.2 (helcr ▸ hlevel heq)
  · exact hrs hmem

/-- After a cascade the line has no request any more if it has been acknowledged. -/
theorem updateIRQ_served (hne : line ≠ (.master, 2)) {depth : Nat}
    (h : updateIRQ depth s .master = some t) (hedge : EdgeOnly s) :
    ∃ rs es, t.events = s.events ++ es ∧ Nested rs es ∧ rs.Nodup ∧
      (line ∈ rs → On (s.get line.1).pending line.2) ∧
      (On (t.get line.1).irr line.2 → On (s.get line.1).irr line.2 ∧ line ∉ rs) := by
  have hcascade : CascadeEdge s := by
    rw [CascadeEdge, show s.master.elcr = 0 from hedge .master]
    exact (eq_zero_iff 0).mp rfl 2
  obtain ⟨rs, es, hev, hnested, hnodup, hup, hspent⟩ := updateIRQ_nested (Q := Spent line)
    (spent_output line) (fun _ _ _ v hq => hq.log (.interrupt v)) (fun _ _ _ _ _ _ hq => hq.acknowledge hne)
    h hcascade
  refine ⟨rs, es, hev, hnested, hnodup, fun hmem => ?_, hspent (hedge line.1)⟩
  have hupcoming := hup line hmem
  obtain ⟨c, n⟩ := line
  cases c with
  | master => exact hupcoming.2.1.1
  | slave => exact hupcoming.1

/-- `UpdateIRQ(PIC_MASTER)` acknowledges what stands, and the registers keep up with it. -/
theorem tracks_cascade (hline : Genuine line) {depth : Nat} (h : updateIRQ depth s .master = some t)
    (hedge : EdgeOnly s) {w : Wire} (hw : Tracks line s w) :
    ∃ es, t.events = s.events ++ es ∧ Tracks line t (es.foldl (hear line) w) ∧
      ∀ u, (u.get line.1).imr = (s.get line.1).imr → Guarded (listen line) (Admits line u) w es := by
  obtain ⟨rs, es, hev, hnested, hnodup, hpending, hirr⟩ := updateIRQ_served hline.1 h hedge
  have hprev : On (t.get line.1).previousIRR line.2 ↔ On (s.get line.1).previousIRR line.2 :=
    Bool.eq_iff_iff.mp (congrArg Prod.fst (still_updateIRQ hline.1 h))
  refine ⟨es, hev, ?_, fun u himr => admits_nested hnested hnodup fun hmem hwatched => ?_⟩
  · rw [hear_nested hline hnested hnodup]
    split
    · next hmem =>
      intro hwatched
      have hfollows := hw hwatched
      have hon := ((on_pending_iff _ _).mp (hpending hmem)).1
      exact hfollows.serve (hfollows.request hon) hprev fun hleft => (hirr hleft).2 hmem
    · exact fun hwatched => (hw hwatched).congr hprev fun hleft => (hirr hleft).1
  · obtain ⟨hon, hmask⟩ := (on_pending_iff _ _).mp (hpending hmem)
    have hreq := (hw hwatched).request hon
    rw [himr]
    exact ⟨hmask, (hw hwatched).standing hreq, hreq⟩

theorem EdgeOnly.cascaded (hedge : EdgeOnly s) : EdgeOnly (cascaded s) := by
  intro chip
  cases chip with
  | master => exact (latch_holding s.master 2 _ .master).2.2.1.trans (hedge .master)
  | slave => exact hedge .slave

theorem Tracks.cascaded (hne : line ≠ (.master, 2)) {w : Wire} (hw : Tracks line s w) :
    Tracks line (cascaded s) w := by
  intro hwatched
  obtain ⟨c, n⟩ := line
  cases c with
  | slave => exact (hw hwatched).congr Iff.rfl id
  | master =>
    have hn : n ≠ 2 := fun h => hne (congrArg (Prod.mk Chip.master) h)
    exact (hw hwatched).latch_other hn _

/-- The same for both controllers. -/
theorem tracks_updateIRQ (hline : Genuine line) {depth : Nat} {chip : Chip}
    (h : updateIRQ depth s chip = some t) (hedge : EdgeOnly s) {w : Wire} (hw : Tracks line s w) :
    ∃ es, t.events = s.events ++ es ∧ Tracks line t (es.foldl (hear line) w) ∧
      ∀ u, (u.get line.1).imr = (s.get line.1).imr → Guarded (listen line) (Admits line u) w es := by
  cases chip with
  | master => exact tracks_cascade hline h hedge hw
  | slave =>
    have hmore := updateIRQ_succ h
    rw [updateIRQ_slave] at hmore
    obtain ⟨es, hev, htracks, hadmits⟩ := tracks_cascade hline hmore hedge.cascaded (hw.cascaded hline.1)
    have himr : ((cascaded s).get line.1).imr = (s.get line.1).imr :=
      congrArg (fun r => r.2.1) (still_cascaded hline.1 s)
    exact ⟨es, hev, htracks, fun u hu => hadmits u (hu.trans himr.symm)⟩

end Cascade

/-! ## Operations -/

section Operations

variable {line : Chip × Line} {s t : State} {op : Op} {chip : Chip} {c : Controller}
  {es : List Event} {w : Wire}

theorem present_none (hop : presented op = none) (w : Wire) : present line w op = w := by
  rw [present, hop]

theorem recorded_get (s : State) (es : List Event) (chip : Chip) :
    (recorded s es).get chip = s.get chip := by
  cases chip <;> rfl

/-- What is done to a controller is not seen of the other's lines. -/
theorem unseen_cause (hne : line.1 ≠ chip) (h : Cause s op chip c es) (w : Wire) :
    present line w op = w ∧ es.foldl (hear line) w = w ∧
      ∀ u, Guarded (listen line) (Admits line u) w es := by
  have hother (irq : Line) : ¬ (chip, irq) = line := fun h => hne (h ▸ rfl)
  have hchip : ¬ chip = line.1 := fun h => hne h.symm
  cases h with
  | request irq level hop =>
    refine ⟨?_, rfl, fun _ => trivial⟩
    simp [present, hop, hother]
  | poll irq hop =>
    refine ⟨present_none hop w, by simp [hear, hother], fun u => ?_⟩
    simp [guarded_listen_cons, Admits, hother]
  | initialise hop =>
    exact ⟨present_none hop w, by simp [hear, hchip],
      fun u => (guarded_listen_cons w _ []).mpr ⟨trivial, trivial⟩⟩
  | mask hop => exact ⟨present_none hop w, rfl, fun _ => trivial⟩
  | ended hop =>
    exact ⟨present_none hop w, rfl, fun u => (guarded_listen_cons w _ []).mpr ⟨trivial, trivial⟩⟩
  | rotate hop => exact ⟨present_none hop w, rfl, fun _ => trivial⟩

/-- What is done to the controller of the line is seen. -/
theorem follows_cause (hedge : EdgeOnly s) (hw : Tracks line s w) (h : Cause s op line.1 c es) :
    ((es.foldl (hear line) (present line w op)).watched = true →
      Follows c line.2 (es.foldl (hear line) (present line w op))) ∧
    ∀ u, (u.get line.1).imr = c.imr →
      Guarded (listen line) (Admits line u) (present line w op) es := by
  have helcr : ¬ On (s.get line.1).elcr line.2 := by
    rw [hedge]
    exact (eq_zero_iff 0).mp rfl line.2
  cases h with
  | request irq level hop =>
    refine ⟨fun hwatched => ?_, fun _ _ => trivial⟩
    rw [List.foldl_nil, present, hop] at hwatched ⊢
    dsimp only at hwatched ⊢
    by_cases hirq : (line.1, irq) = line
    · obtain rfl : irq = line.2 := congrArg Prod.snd hirq
      rw [if_pos hirq] at hwatched ⊢
      exact (hw hwatched).latch helcr level
    · rw [if_neg hirq] at hwatched ⊢
      have hne : line.2 ≠ irq := fun h => hirq (h ▸ rfl)
      exact (hw hwatched).latch_other hne level
  | poll irq hop hirq =>
    have hfields (c : Controller) : (c.acknowledge irq).previousIRR = c.previousIRR ∧
        (c.acknowledge irq).imr = c.imr := by
      rw [acknowledge_eq]
      exact ⟨rfl, rfl⟩
    obtain ⟨hprev, himr⟩ := hfields { s.get line.1 with poll := false }
    have hirr := on_acknowledge_irr_iff { s.get line.1 with poll := false } irq line.2
    rw [present_none hop]
    by_cases heq : (line.1, irq) = line
    · obtain rfl : irq = line.2 := congrArg Prod.snd heq
      obtain ⟨hon, hmask⟩ := (on_pending_iff _ _).mp (getIRQ_eq_some_iff.mp hirq).1.1
      refine ⟨fun hwatched => ?_, fun u hu => ?_⟩
      · simp only [List.foldl_cons, List.foldl_nil, hear, heq, if_true] at hwatched ⊢
        have hfollows := hw hwatched
        refine hfollows.serve (hfollows.request hon) (iff_of_eq (congrArg (On · line.2) hprev)) ?_
        exact fun hleft => helcr ((hirr.mp hleft).2 rfl)
      · refine (guarded_listen_cons _ _ _).mpr ⟨trivial, (guarded_listen_cons _ _ []).mpr ⟨?_, trivial⟩⟩
        intro _ hwatched
        simp only [hear, heq, if_true] at hwatched ⊢
        have hreq := (hw hwatched).request hon
        rw [hu, himr]
        exact ⟨hmask, (hw hwatched).standing hreq, hreq⟩
    · refine ⟨fun hwatched => ?_, fun u hu => ?_⟩
      · simp only [List.foldl_cons, List.foldl_nil, hear, heq, if_false] at hwatched ⊢
        exact (hw hwatched).congr (iff_of_eq (congrArg (On · line.2) hprev)) fun hleft => (hirr.mp hleft).1
      · simp [guarded_listen_cons, Admits, heq]
  | initialise hop =>
    refine ⟨fun _ => ?_, fun u _ => (guarded_listen_cons _ _ []).mpr ⟨trivial, trivial⟩⟩
    simp only [List.foldl_cons, List.foldl_nil, hear, if_true]
    exact follows_fresh _
  | mask hop =>
    rw [present_none hop]
    exact ⟨fun hwatched => (hw hwatched).congr Iff.rfl id, fun _ _ => trivial⟩
  | ended hop irq =>
    rw [present_none hop]
    exact ⟨fun hwatched => (hw hwatched).congr Iff.rfl id,
      fun u _ => (guarded_listen_cons w _ []).mpr ⟨trivial, trivial⟩⟩
  | rotate hop =>
    rw [present_none hop]
    exact ⟨fun hwatched => (hw hwatched).congr Iff.rfl id, fun _ _ => trivial⟩

theorem tracks_cause (hedge : EdgeOnly s) (hw : Tracks line s w) (h : Cause s op chip c es) :
    Tracks line (recorded (s.set chip c) es) (es.foldl (hear line) (present line w op)) ∧
    ∀ u, (u.get line.1).imr = ((recorded (s.set chip c) es).get line.1).imr →
      Guarded (listen line) (Admits line u) (present line w op) es := by
  rw [Tracks, recorded_get, get_set]
  by_cases hc : line.1 = chip
  · subst hc
    rw [if_pos rfl]
    exact follows_cause hedge hw h
  · obtain ⟨hpresent, hheard, hadmits⟩ := unseen_cause hc h w
    rw [if_neg hc, hpresent, hheard]
    exact ⟨hw, fun u _ => hadmits u⟩

theorem EdgeOnly.cause (hedge : EdgeOnly s) (h : Cause s op chip c es) :
    EdgeOnly (recorded (s.set chip c) es) := by
  intro other
  rw [recorded_get, get_set]
  split
  · exact h.elcr.trans (hedge chip)
  · exact hedge other

theorem Tracks.of_lines {u : State} (hw : Tracks line s w) (h : SameLines (s.get line.1) (u.get line.1)) :
    Tracks line u w := fun hwatched =>
  (hw hwatched).congr (iff_of_eq (congrArg (On · line.2) h.previousIRR)) fun hon => h.irr ▸ hon

/-- An operation acknowledges the line only for a request that stands. -/
theorem tracks_step (hline : Genuine line) (hedge : EdgeOnly s) (hw : Tracks line s w)
    (h : step s op = some t) :
    Tracks line t ((logged s t).foldl (hear line) (present line w op)) ∧
      Guarded (listen line) (Admits line t) (present line w op) (logged s t) := by
  cases step_effect h with
  | @settings chip c hop hlines _ =>
    have hsilent : (s.set chip c).events = s.events ++ [] := by rw [set_events, List.append_nil]
    rw [logged_eq hsilent, present_none hop]
    refine ⟨hw.of_lines ?_, trivial⟩
    rw [get_set]
    split
    · next heq => exact heq ▸ hlines
    · exact .refl _
  | @update chip c before u _ hcause hu hend =>
    obtain ⟨htracks, hbefore⟩ := tracks_cause hedge hw hcause
    obtain ⟨es, hev, hcascade, hduring⟩ := tracks_updateIRQ hline hu (hedge.cause hcause) htracks
    have hall : t.events = s.events ++ (before ++ es) := by
      rw [hend.events, hev, recorded, set_events, List.append_assoc]
    have himr : (t.get line.1).imr = ((recorded (s.set chip c) before).get line.1).imr :=
      (hend.lines line.1).imr.trans (congrArg (fun r => r.2.1) (still_updateIRQ hline.1 hu))
    rw [logged_eq hall, List.foldl_append]
    refine ⟨hcascade.of_lines (hend.lines line.1), guarded_append.mpr ⟨hbefore t himr, fun v hv => ?_⟩⟩
    rw [exec_listen] at hv
    obtain rfl := Option.some.inj hv
    exact hduring t himr

end Operations

/-- In every run of requests and accesses with all ELCR bits clear, from any state on, a line
other than 2, 7 and 15 is delivered no more often than it has gone from low to high since its
controller was initialised, and it is only acknowledged while it is not masked and its last
edge is neither withdrawn nor acknowledged. -/
theorem edge_triggered {line : Chip × Line} (hline : Genuine line) {s : State} {ops : List Op}
    (h : Always (observe line) (fun x => EdgeOnly x.1) (s, .unwatched) ops) :
    Always (observe line) (fun x => x.2.watched = true → x.2.delivered ≤ x.2.edges)
        (s, .unwatched) ops ∧
      Guarded (observe line) (Proper line) (s, .unwatched) ops := by
  have hstart : Tracks line s .unwatched := fun hwatched => absurd hwatched Bool.false_ne_true
  have hstep (x : State × Wire) (op : Op) (y : State × Wire) (hedge : EdgeOnly x.1)
      (hx : Tracks line x.1 x.2) (hy : observe line x op = some y) : Tracks line y.1 y.2 := by
    obtain ⟨t, ht, rfl⟩ := Option.map_eq_some_iff.mp hy
    exact (tracks_step hline hedge hx ht).1
  have hproper (x : State × Wire) (op : Op) (hedge : EdgeOnly x.1) (hx : Tracks line x.1 x.2) :
      Proper line x op := fun t ht => (tracks_step hline hedge hx ht).2
  obtain ⟨halways, hguarded⟩ := Always.invariant hstep hproper hstart h
  refine ⟨halways.mono fun x hx hwatched => ?_, hguarded⟩
  exact (Nat.le_add_right _ _).trans (hx hwatched).count

/-- Both controllers initialised as in a PC; line 1 is raised twice. -/
def raisedTwice : List Op :=
  [.ioWrite 0x20 0x11, .ioWrite 0x21 0x08, .ioWrite 0x21 0x04, .ioWrite 0x21 0x01,
    .ioWrite 0xA0 0x11, .ioWrite 0xA1 0x70, .ioWrite 0xA1 0x02, .ioWrite 0xA1 0x01,
    .handleIRQ 1 true, .handleIRQ 1 false, .handleIRQ 1 true]

/-- Line 1 is delivered no more often than that. -/
theorem raisedTwice_edge_triggered :
    Always (observe (.master, 1)) (fun x => x.2.watched = true → x.2.delivered ≤ x.2.edges)
        (.initial, .unwatched) raisedTwice ∧
      Guarded (observe (.master, 1)) (Proper (.master, 1)) (.initial, .unwatched) raisedTwice :=
  edge_triggered (by decide) (by decide)

end OpenXbox.Pic.EdgeTriggered
