import Mathlib.Data.Fintype.Card
import OpenXbox.Pic.Priority

/-!
# Acknowledged requests

What a controller can deliver after it has acknowledged the line `GetIRQ` has resolved
to: no new line, and the same line again only in automatic EOI mode. A line in service
holds back itself and all lines behind it.
-/

namespace OpenXbox.Pic.Acknowledge

open OpenXbox.Pic.Device OpenXbox.Pic.Priority

section Registers

variable (chip : Chip) (c : Controller) (n m : Line)

theorem on_pending_iff : On c.pending m ↔ On c.irr m ∧ ¬ On c.imr m := on_and_not_iff c.irr c.imr m

theorem on_holding_iff : On (c.holding chip) m ↔ On c.isr m ∧
    (c.specialMask = true → ¬ On c.imr m) ∧
    ¬ (c.isSpecialFullyNestedMode = true ∧ chip = .master ∧ m = 2) := by
  rw [Controller.holding]
  by_cases hs : c.specialMask = true
  · by_cases hf : c.isSpecialFullyNestedMode = true ∧ chip = .master
    · simp [hs, hf, and_assoc]
    · rw [if_neg hf, if_pos hs, on_and_not_iff]
      refine and_congr_right fun _ => ?_
      exact ⟨fun h => ⟨fun _ => h, fun h2 => hf ⟨h2.1, h2.2.1⟩⟩, fun h => h.1 hs⟩
  · by_cases hf : c.isSpecialFullyNestedMode = true ∧ chip = .master
    · simp [hs, hf]
    · rw [if_neg hf, if_neg hs]
      exact ⟨fun h => ⟨h, fun h2 => absurd h2 hs, fun h2 => hf ⟨h2.1, h2.2.1⟩⟩, fun h => h.1⟩

/-- The registers after an acknowledgement, in full. -/
theorem acknowledge_eq : c.acknowledge n =
    { c with
      irr := if c.elcr &&& bit n = 0 then c.irr &&& ~~~bit n else c.irr
      isr := if c.autoEOI then c.isr else c.isr ||| bit n
      priorityAdd := if c.autoEOI && c.rotateOnAutoEOI then lineOf (n + 1) 0 else c.priorityAdd } := by
  rw [Controller.acknowledge]
  by_cases ha : c.autoEOI = true
  · by_cases hr : c.rotateOnAutoEOI = true
    · have hboth : (c.autoEOI && c.rotateOnAutoEOI) = true := by rw [ha, hr, Bool.and_self]
      simp only [if_pos ha, if_pos hr, if_pos hboth]
      split <;> rfl
    · have hboth : ¬ (c.autoEOI && c.rotateOnAutoEOI) = true := by rw [ha, Bool.true_and]; exact hr
      simp only [if_pos ha, if_neg hr, if_neg hboth]
      split <;> rfl
  · have hboth : ¬ (c.autoEOI && c.rotateOnAutoEOI) = true := fun h =>
      ha (Bool.and_eq_true _ _ ▸ h).1
    simp only [if_neg ha, if_neg hboth]
    split <;> rfl

theorem on_acknowledge_irr_iff :
    On (c.acknowledge n).irr m ↔ On c.irr m ∧ (m = n → On c.elcr n) := by
  rw [acknowledge_eq]
  by_cases he : c.elcr &&& bit n = 0
  · have hn := (and_bit_eq_zero_iff _ _).mp he
    simp only [if_pos he, on_clear_iff]
    exact ⟨fun h => ⟨h.1, fun hm => absurd hm h.2⟩, fun h => ⟨h.1, fun hm => hn (h.2 hm)⟩⟩
  · have hn := not_not.mp (mt (and_bit_eq_zero_iff c.elcr n).mpr he)
    simp only [if_neg he]
    exact ⟨fun h => ⟨h, fun _ => hn⟩, fun h => h.1⟩

theorem on_acknowledge_pending_iff :
    On (c.acknowledge n).pending m ↔ On c.pending m ∧ (m = n → On c.elcr n) := by
  have himr : (c.acknowledge n).imr = c.imr := by rw [acknowledge_eq]
  rw [on_pending_iff, on_pending_iff, on_acknowledge_irr_iff, himr]
  exact and_right_comm

end Registers

/-! ## What can be delivered -/

/-- Acknowledgements do not move the lines in service closer: automatic EOI without
rotation, or with nothing in service. -/
def Repeats (chip : Chip) (c : Controller) : Prop :=
  c.autoEOI = true ∧ (c.rotateOnAutoEOI = true → c.holding chip = 0)

instance (chip : Chip) (c : Controller) : Decidable (Repeats chip c) :=
  inferInstanceAs (Decidable (_ ∧ _))

section Delivery

variable {chip : Chip} {c : Controller} {n m : Line}

theorem holding_of_autoEOI (ha : c.autoEOI = true) :
    (c.acknowledge n).holding chip = c.holding chip := by
  rw [acknowledge_eq, Controller.holding, Controller.holding, if_pos ha]

theorem repeats_acknowledge_iff : Repeats chip (c.acknowledge n) ↔ Repeats chip c := by
  have hfields : (c.acknowledge n).autoEOI = c.autoEOI ∧
      (c.acknowledge n).rotateOnAutoEOI = c.rotateOnAutoEOI := by
    rw [acknowledge_eq]
    exact ⟨rfl, rfl⟩
  rw [Repeats, Repeats, hfields.1, hfields.2]
  exact and_congr_right fun ha => by rw [holding_of_autoEOI ha]

/-- Without rotation the priorities stay. -/
theorem priorityAdd_acknowledge (hr : ¬ c.rotateOnAutoEOI = true) :
    (c.acknowledge n).priorityAdd = c.priorityAdd := by
  rw [acknowledge_eq]
  exact if_neg fun hb => hr (Bool.and_eq_true _ _ ▸ hb).2

/-- Where acknowledgements repeat, all that changes is the request of the line. -/
theorem deliverable_of_repeats (h : Repeats chip c) :
    Deliverable chip (c.acknowledge n) m ↔ Deliverable chip c m ∧ (m = n → On c.elcr n) := by
  rw [Deliverable, Deliverable, on_acknowledge_pending_iff, holding_of_autoEOI h.1]
  by_cases hr : c.rotateOnAutoEOI = true
  · have hnone := (eq_zero_iff _).mp (h.2 hr)
    exact ⟨fun hd => ⟨⟨hd.1.1, fun k hk => absurd hk (hnone k)⟩, hd.1.2⟩,
      fun hd => ⟨⟨hd.1.1, hd.2⟩, fun k hk => absurd hk (hnone k)⟩⟩
  · rw [priorityAdd_acknowledge hr]
    exact ⟨fun hd => ⟨⟨hd.1.1, hd.2⟩, hd.1.2⟩, fun hd => ⟨⟨hd.1.1, hd.2⟩, hd.1.2⟩⟩

/-- The lines behind the acknowledged one move up together with those in service. -/
theorem deliverable_of_rotate (hn : getIRQ chip c = some n) (ha : c.autoEOI = true)
    (hr : c.rotateOnAutoEOI = true) (hhold : c.holding chip ≠ 0) :
    Deliverable chip (c.acknowledge n) m ↔ Deliverable chip c m ∧ m ≠ n := by
  obtain ⟨⟨hpend, hbehind⟩, hfirst⟩ := getIRQ_eq_some_iff.mp hn
  have hadd : (c.acknowledge n).priorityAdd = lineOf (n + 1) 0 := by
    rw [acknowledge_eq, ha, hr]
    rfl
  have hmove (k : Line) (hk : prio c.priorityAdd n < prio c.priorityAdd k) :=
    prio_rotate (m := k) hk
  rw [Deliverable, Deliverable, on_acknowledge_pending_iff, holding_of_autoEOI ha, hadd]
  by_cases hm : m = n
  · have hlast : prio (lineOf (n + 1) 0) n = 7 := by
      rw [prio_rotate_before c.priorityAdd le_rfl]
      omega
    obtain ⟨k, hk, -⟩ := exists_first c.priorityAdd hhold
    refine iff_of_false (fun hd => ?_) fun hd => hd.2 hm
    have hlt := hd.2 k hk
    have hk8 := prio_lt (lineOf (n + 1) 0) k
    rw [hm, hlast] at hlt
    omega
  · have hpm (hp : On c.pending m) : prio c.priorityAdd n < prio c.priorityAdd m :=
      lt_of_le_of_ne (hfirst m hp) fun he => hm (prio_injective he).symm
    constructor
    · intro h
      obtain ⟨⟨hp, -⟩, hd⟩ := h
      refine ⟨⟨hp, fun k hk => ?_⟩, hm⟩
      have hlt := hd k hk
      have h1 := hpm hp
      have h2 := hbehind k hk
      rw [hmove m h1, hmove k h2] at hlt
      omega
    · intro h
      obtain ⟨⟨hp, hd⟩, -⟩ := h
      refine ⟨⟨hp, fun he => absurd he hm⟩, fun k hk => ?_⟩
      have h1 := hpm hp
      have h2 := hbehind k hk
      have h3 := hd k hk
      rw [hmove m h1, hmove k h2]
      omega

/-- In automatic EOI mode the other lines can be delivered as before. -/
theorem deliverable_of_autoEOI (hn : getIRQ chip c = some n) (ha : c.autoEOI = true)
    (hm : m ≠ n) : Deliverable chip (c.acknowledge n) m ↔ Deliverable chip c m := by
  by_cases hr : Repeats chip c
  · rw [deliverable_of_repeats hr]
    exact ⟨fun h => h.1, fun h => ⟨h, fun he => absurd he hm⟩⟩
  · obtain ⟨hrot, hhold⟩ := Classical.not_imp.mp fun h => hr ⟨ha, h⟩
    rw [deliverable_of_rotate hn ha hrot hhold]
    exact ⟨fun h => h.1, fun h => ⟨h, hm⟩⟩

/-- An acknowledged line is in service. -/
theorem on_holding_acknowledge (hn : getIRQ chip c = some n) (ha : c.autoEOI = false)
    (hcascade : chip = .master → n ≠ 2) : On ((c.acknowledge n).holding chip) n := by
  obtain ⟨⟨hpend, -⟩, -⟩ := getIRQ_eq_some_iff.mp hn
  rw [on_holding_iff, acknowledge_eq]
  refine ⟨?_, fun _ => ((on_pending_iff c n).mp hpend).2, fun h => hcascade h.2.1 h.2.2⟩
  simp [ha]

/-- A line that is in service holds back all that was pending with it. -/
theorem not_deliverable_of_service (hn : getIRQ chip c = some n) (ha : c.autoEOI = false)
    (hcascade : chip = .master → n ≠ 2) : ¬ Deliverable chip (c.acknowledge n) m := by
  obtain ⟨-, hfirst⟩ := getIRQ_eq_some_iff.mp hn
  intro hd
  have hheld := on_holding_acknowledge hn ha hcascade
  have hadd : (c.acknowledge n).priorityAdd = c.priorityAdd := by
    rw [acknowledge_eq, ha]
    rfl
  have hlt := hd.2 n hheld
  have hle := hfirst m (on_acknowledge_pending_iff c n m |>.mp hd.1).1
  rw [hadd] at hlt
  omega

/-! ## Weights -/

/-- The lines with a request; line 2 of the master is the slave's. -/
def requests (chip : Chip) (c : Controller) : Finset Line :=
  Finset.univ.filter fun n => On c.irr n ∧ (chip = .master → n ≠ 2)

/-- What is left to acknowledge: the place of the line in service, and the requests. -/
def weight (chip : Chip) (c : Controller) : Nat :=
  getPriority c.priorityAdd (c.holding chip) + (requests chip c).card

theorem getPriority_le (add : Line) (mask : Byte) : getPriority add mask ≤ 8 := by
  by_contra h
  have h8 := (lt_getPriority_iff.mp (Nat.not_le.mp h)).1
  omega

theorem weight_le (chip : Chip) (c : Controller) : weight chip c ≤ 16 := by
  have hpri := getPriority_le c.priorityAdd (c.holding chip)
  have hcard : (requests chip c).card ≤ 8 := Finset.card_le_univ _
  rw [weight]
  omega

theorem requests_acknowledge_subset (chip : Chip) (c : Controller) (n : Line) :
    requests chip (c.acknowledge n) ⊆ requests chip c := by
  intro m hm
  rw [requests, Finset.mem_filter] at hm ⊢
  exact ⟨hm.1, ((on_acknowledge_irr_iff c n m).mp hm.2.1).1, hm.2.2⟩

/-- The first line in service does not come later by an acknowledgement. -/
theorem getPriority_acknowledge (hn : getIRQ chip c = some n) (hcascade : chip = .master → n ≠ 2) :
    getPriority (c.acknowledge n).priorityAdd ((c.acknowledge n).holding chip) ≤
        getPriority c.priorityAdd (c.holding chip) ∧
      (¬ Repeats chip c →
        getPriority (c.acknowledge n).priorityAdd ((c.acknowledge n).holding chip) <
          getPriority c.priorityAdd (c.holding chip)) := by
  obtain ⟨hd, hfirst⟩ := getIRQ_eq_some_iff.mp hn
  have hcur : prio c.priorityAdd n < getPriority c.priorityAdd (c.holding chip) :=
    lt_getPriority_iff.mpr ⟨prio_lt _ _, hd.2⟩
  by_cases ha : c.autoEOI = true
  · rw [holding_of_autoEOI ha]
    by_cases hr : c.rotateOnAutoEOI = true
    · by_cases hz : c.holding chip = 0
      · rw [getPriority_eq_eight_iff.mpr hz, getPriority_eq_eight_iff.mpr hz]
        exact ⟨le_rfl, fun h => absurd ⟨ha, fun _ => hz⟩ h⟩
      · obtain ⟨k, hk, hkfirst⟩ := exists_first c.priorityAdd hz
        have hadd : (c.acknowledge n).priorityAdd = lineOf (n + 1) 0 := by
          rw [acknowledge_eq, ha, hr]
          rfl
        have hle := getPriority_le_prio (c.acknowledge n).priorityAdd hk
        rw [hadd, prio_rotate (hd.2 k hk)] at hle
        have hk8 := prio_lt c.priorityAdd k
        rw [hadd, getPriority_eq hk hkfirst]
        have hbehind := hd.2 k hk
        exact ⟨by omega, fun _ => by omega⟩
    · rw [priorityAdd_acknowledge hr]
      exact ⟨le_rfl, fun h => absurd ⟨ha, fun hrot => absurd hrot hr⟩ h⟩
  · have ha' : c.autoEOI = false := Bool.eq_false_iff.mpr ha
    have hadd : (c.acknowledge n).priorityAdd = c.priorityAdd := by
      rw [acknowledge_eq, ha']
      rfl
    have hle := getPriority_le_prio (c.acknowledge n).priorityAdd
      (on_holding_acknowledge hn ha' hcascade)
    rw [hadd] at hle ⊢
    exact ⟨by omega, fun _ => by omega⟩

theorem weight_acknowledge_le (hn : getIRQ chip c = some n) (hcascade : chip = .master → n ≠ 2) :
    weight chip (c.acknowledge n) ≤ weight chip c :=
  Nat.add_le_add (getPriority_acknowledge hn hcascade).1
    (Finset.card_le_card (requests_acknowledge_subset chip c n))

/-- Every acknowledgement that does not repeat lowers the weight. -/
theorem weight_acknowledge_lt (hn : getIRQ chip c = some n) (hcascade : chip = .master → n ≠ 2)
    (honce : Repeats chip c → ¬ On c.elcr n) : weight chip (c.acknowledge n) < weight chip c := by
  obtain ⟨hle, hlt⟩ := getPriority_acknowledge hn hcascade
  have hcard := Finset.card_le_card (requests_acknowledge_subset chip c n)
  rw [weight, weight]
  by_cases hr : Repeats chip c
  · have hin : n ∈ requests chip c := by
      rw [requests, Finset.mem_filter]
      obtain ⟨⟨hpend, -⟩, -⟩ := getIRQ_eq_some_iff.mp hn
      exact ⟨Finset.mem_univ n, ((on_pending_iff c n).mp hpend).1, hcascade⟩
    have hout : n ∉ requests chip (c.acknowledge n) := by
      rw [requests, Finset.mem_filter, on_acknowledge_irr_iff]
      exact fun h => honce hr (h.2.1.2 rfl)
    have hless := Finset.card_lt_card
      ((Finset.ssubset_iff_of_subset (requests_acknowledge_subset chip c n)).mpr ⟨n, hin, hout⟩)
    omega
  · have hless := hlt hr
    omega

end Delivery

end OpenXbox.Pic.Acknowledge
