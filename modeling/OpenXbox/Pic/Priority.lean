import OpenXbox.Pic.Device

/-!
# Priorities

The lines of a controller in the order in which it serves them, starting with the one
at `priorityAdd`. `GetIRQ` resolves to the first line with a pending request, if that
comes before every line in service that holds it back.
-/

namespace OpenXbox.Pic.Priority

open OpenXbox.Pic.Device

/-- The bit of the line is set. -/
def On (mask : Byte) (n : Line) : Prop := mask.getLsbD n = true

instance (mask : Byte) (n : Line) : Decidable (On mask n) := inferInstanceAs (Decidable (_ = _))

/-! ## Bits -/

theorem getLsbD_bit (n m : Line) : (bit n).getLsbD m = decide (m = n) := by
  revert n m
  decide

theorem ext_lines {x y : Byte} (h : ∀ n : Line, x.getLsbD n = y.getLsbD n) : x = y :=
  BitVec.eq_of_getLsbD_eq fun i hi => h ⟨i, hi⟩

theorem and_bit_eq_zero_iff (mask : Byte) (n : Line) : mask &&& bit n = 0 ↔ ¬ On mask n := by
  rw [On, Bool.not_eq_true]
  constructor
  · intro h
    have hn := congrArg (fun x : Byte => x.getLsbD n) h
    rw [BitVec.getLsbD_and, getLsbD_bit, decide_eq_true rfl, Bool.and_true] at hn
    exact hn.trans BitVec.getLsbD_zero
  · intro h
    apply ext_lines
    intro m
    rw [BitVec.getLsbD_and, getLsbD_bit]
    refine Eq.trans ?_ BitVec.getLsbD_zero.symm
    by_cases hm : m = n
    · rw [hm, h, Bool.false_and]
    · rw [decide_eq_false hm, Bool.and_false]

theorem eq_zero_iff (mask : Byte) : mask = 0 ↔ ∀ n, ¬ On mask n := by
  constructor
  · rintro rfl n hn
    rw [On, show (0 : Byte).getLsbD n = false from BitVec.getLsbD_zero] at hn
    cases hn
  · intro h
    apply ext_lines
    intro n
    have hn : mask.getLsbD n = false := Bool.eq_false_iff.mpr (h n)
    exact hn.trans BitVec.getLsbD_zero.symm

@[simp] theorem on_bit_iff (n m : Line) : On (bit n) m ↔ m = n := by
  rw [On, getLsbD_bit, decide_eq_true_eq]

@[simp] theorem on_set_iff (mask : Byte) (n m : Line) : On (mask ||| bit n) m ↔ On mask m ∨ m = n := by
  rw [On, BitVec.getLsbD_or, getLsbD_bit, Bool.or_eq_true, decide_eq_true_eq]
  rfl

theorem on_clear_iff (mask : Byte) (n m : Line) : On (mask &&& ~~~bit n) m ↔ On mask m ∧ m ≠ n := by
  rw [On, BitVec.getLsbD_and, BitVec.getLsbD_not, getLsbD_bit, Bool.and_eq_true,
    decide_eq_true m.isLt, Bool.true_and, Bool.not_eq_true', decide_eq_false_iff_not]
  rfl

@[simp] theorem on_and_not_iff (x y : Byte) (n : Line) : On (x &&& ~~~y) n ↔ On x n ∧ ¬ On y n := by
  rw [On, BitVec.getLsbD_and, BitVec.getLsbD_not, Bool.and_eq_true, decide_eq_true n.isLt,
    Bool.true_and, Bool.not_eq_true', On, On, Bool.not_eq_true]

/-! ## The order of the lines -/

/-- The place of a line, from 0 for the one that is served first. -/
def prio (add n : Line) : Nat := (n - add : Line).val

theorem prio_lt (add n : Line) : prio add n < 8 := (n - add).isLt

theorem lineOf_prio (add n : Line) : lineOf (prio add n) add = n := by
  revert add n
  decide

theorem prio_lineOf {p : Nat} (hp : p < 8) (add : Line) : prio add (lineOf p add) = p := by
  have hall : ∀ (q : Fin 8) (add : Line), prio add (lineOf q add) = q := by decide
  exact hall ⟨p, hp⟩ add

theorem prio_injective {add n m : Line} (h : prio add n = prio add m) : n = m := by
  rw [← lineOf_prio add n, h, lineOf_prio]

/-- After a rotation to the line behind `n`, the lines behind it move up. -/
theorem prio_rotate {add n m : Line} (h : prio add n < prio add m) :
    prio (lineOf (n + 1) 0) m = prio add m - prio add n - 1 := by
  have hall : ∀ add n m : Line, prio add n < prio add m →
      prio (lineOf (n + 1) 0) m = prio add m - prio add n - 1 := by decide
  exact hall add n m h

/-- The lines before it come after all of those. -/
theorem prio_rotate_before (add : Line) {n m : Line} (h : prio add m ≤ prio add n) :
    prio (lineOf (n + 1) 0) m = prio add m + 7 - prio add n := by
  have hall : ∀ add n m : Line, prio add m ≤ prio add n →
      prio (lineOf (n + 1) 0) m = prio add m + 7 - prio add n := by decide
  exact hall add n m h

/-! ## GetPriority -/

/-- The loop stops at the first set bit. -/
theorem priorityLoop_spec (add : Line) (mask : Byte) {turns p q : Nat} (hpq : p ≤ q)
    (hq : q < p + turns) (hon : On mask (lineOf q add))
    (hfirst : ∀ r, p ≤ r → r < q → ¬ On mask (lineOf r add)) :
    priorityLoop add mask turns p = q := by
  induction turns generalizing p with
  | zero => omega
  | succ turns ih =>
    rw [priorityLoop]
    by_cases heq : p = q
    · rw [heq, if_neg fun h => (and_bit_eq_zero_iff _ _).mp h hon]
    · rw [if_pos ((and_bit_eq_zero_iff _ _).mpr (hfirst p le_rfl (by omega)))]
      exact ih (by omega) (by omega) fun r hr hrq => hfirst r (by omega) hrq

/-- The place of the first set bit. -/
theorem getPriority_eq {add : Line} {mask : Byte} {n : Line} (hn : On mask n)
    (hfirst : ∀ m, On mask m → prio add n ≤ prio add m) : getPriority add mask = prio add n := by
  have hne : mask ≠ 0 := fun h => (eq_zero_iff mask).mp h n hn
  have hlt := prio_lt add n
  rw [getPriority, if_neg hne]
  refine priorityLoop_spec add mask (Nat.zero_le _) (by omega) ?_ ?_
  · rw [lineOf_prio]
    exact hn
  · intro r _ hr hon
    have hle := hfirst _ hon
    rw [prio_lineOf (by omega)] at hle
    omega

theorem exists_first (add : Line) {mask : Byte} (hne : mask ≠ 0) :
    ∃ n, On mask n ∧ ∀ m, On mask m → prio add n ≤ prio add m := by
  have hsome : ∃ p, ∃ n, On mask n ∧ prio add n = p := by
    by_contra hnone
    exact hne ((eq_zero_iff mask).mpr fun n hn => hnone ⟨_, n, hn, rfl⟩)
  classical
  obtain ⟨n, hn, hp⟩ := Nat.find_spec hsome
  exact ⟨n, hn, fun m hm => hp ▸ Nat.find_min' hsome ⟨m, hm, rfl⟩⟩

theorem lt_getPriority_iff {add : Line} {mask : Byte} {p : Nat} :
    p < getPriority add mask ↔ p < 8 ∧ ∀ n, On mask n → p < prio add n := by
  by_cases hz : mask = 0
  · rw [getPriority, if_pos hz]
    exact ⟨fun h => ⟨h, fun n hn => absurd hn ((eq_zero_iff mask).mp hz n)⟩, fun h => h.1⟩
  · obtain ⟨n, hn, hfirst⟩ := exists_first add hz
    rw [getPriority_eq hn hfirst]
    have hlt := prio_lt add n
    exact ⟨fun h => ⟨h.trans hlt, fun m hm => h.trans_le (hfirst m hm)⟩, fun h => h.2 n hn⟩

theorem getPriority_le_prio (add : Line) {mask : Byte} {n : Line} (hn : On mask n) :
    getPriority add mask ≤ prio add n := by
  by_contra h
  exact lt_irrefl _ ((lt_getPriority_iff.mp (Nat.not_le.mp h)).2 n hn)

theorem getPriority_eq_eight_iff {add : Line} {mask : Byte} : getPriority add mask = 8 ↔ mask = 0 := by
  constructor
  · intro h
    by_contra hne
    obtain ⟨n, hn, hfirst⟩ := exists_first add hne
    rw [getPriority_eq hn hfirst] at h
    exact absurd h (prio_lt add n).ne
  · intro h
    rw [getPriority, if_pos h]

/-! ## GetIRQ -/

section GetIRQ

variable {chip : Chip} {c : Controller}

/-- The request of the line is pending, and no line in service holds it back. -/
def Deliverable (chip : Chip) (c : Controller) (n : Line) : Prop :=
  On c.pending n ∧ ∀ m, On (c.holding chip) m → prio c.priorityAdd n < prio c.priorityAdd m

instance (chip : Chip) (c : Controller) (n : Line) : Decidable (Deliverable chip c n) :=
  inferInstanceAs (Decidable (_ ∧ ∀ _ : Line, _ → _))

/-- `GetIRQ` is the first line that can be delivered. -/
theorem getIRQ_eq_some_iff {n : Line} : getIRQ chip c = some n ↔
    Deliverable chip c n ∧ ∀ m, On c.pending m → prio c.priorityAdd n ≤ prio c.priorityAdd m := by
  rw [getIRQ]
  constructor
  · intro h
    split at h
    · cases h
    next hne =>
    split at h
    · next hlt =>
      obtain ⟨k, hk, hfirst⟩ := exists_first c.priorityAdd (mt getPriority_eq_eight_iff.mpr hne)
      rw [getPriority_eq hk hfirst] at h hlt
      obtain rfl : k = n := by
        rw [← lineOf_prio c.priorityAdd k]
        exact Option.some.inj h
      exact ⟨⟨hk, (lt_getPriority_iff.mp hlt).2⟩, hfirst⟩
    · cases h
  · intro h'
    obtain ⟨⟨hn, hhold⟩, hfirst⟩ := h'
    have hpri := getPriority_eq hn hfirst
    have hlt := prio_lt c.priorityAdd n
    rw [hpri, if_neg (by omega), if_pos (lt_getPriority_iff.mpr ⟨hlt, hhold⟩), lineOf_prio]

/-- There is a result whenever some line can be delivered. -/
theorem exists_getIRQ {n : Line} (h : Deliverable chip c n) : ∃ k, getIRQ chip c = some k := by
  have hne : c.pending ≠ 0 := fun hz => (eq_zero_iff _).mp hz n h.1
  obtain ⟨k, hk, hfirst⟩ := exists_first c.priorityAdd hne
  exact ⟨k, getIRQ_eq_some_iff.mpr
    ⟨⟨hk, fun m hm => (hfirst n h.1).trans_lt (h.2 m hm)⟩, hfirst⟩⟩

theorem getIRQ_eq_none_iff : getIRQ chip c = none ↔ ∀ n, ¬ Deliverable chip c n := by
  constructor
  · intro h n hn
    obtain ⟨k, hk⟩ := exists_getIRQ hn
    rw [h] at hk
    cases hk
  · intro h
    cases hk : getIRQ chip c with
    | none => rfl
    | some k => exact absurd (getIRQ_eq_some_iff.mp hk).1 (h k)

end GetIRQ

end OpenXbox.Pic.Priority
