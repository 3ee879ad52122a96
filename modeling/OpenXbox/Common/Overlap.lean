import OpenXbox.Common.IOMapper
import OpenXbox.Lib.Run

/-!
# When the mapper keeps its ranges apart

`mapDevice` sees an overlap with a mapped range only when one end of the new
range lies in the next range above the base, or in the range that starts just
below the last address and is not the lowest of the map. `Noticed` is the
condition on the map and the new range under which that test finds every
overlap. The results below say that it is exact, for one call and for runs.
-/

namespace OpenXbox.Common.Overlap

open OpenXbox.Lib OpenXbox.Common.IOMapper

variable {δ : Type*}

/-- The mapped range that starts highest at or below `last`. -/
def Top (m : IOMap δ) (last : Nat) (h : Nat × MappedDevice δ) : Prop :=
  h ∈ m ∧ h.1 ≤ last ∧ ∀ e ∈ m, e.1 ≤ last → e.1 ≤ h.1

/-- The two positions in which the overlap of `[base, last]` with the range `h`
that starts highest in it or below it is found. -/
def Noticed (m : IOMap δ) (base last : Nat) : Prop :=
  ∀ h, Top m last h → base ≤ h.2.lastAddress →
    (base < h.1 ∧ last ≤ h.2.lastAddress ∧ (h.1 < last ∨ ∀ e ∈ m, ¬ (base < e.1 ∧ e.1 < last))) ∨
    (h.1 ≤ base ∧ h.1 < last ∧ ∃ e ∈ m, e.1 < h.1)

/-- The overlap test of `mapDevice` as one proposition. -/
def Rejects (m : IOMap δ) (base last : Nat) : Prop :=
  (∃ pu, m.get? (m.upperBound base) = some pu ∧ touches base last pu = true) ∨
    ∃ pl, 2 ≤ m.lowerBound last ∧ m.get? (m.lowerBound last - 1) = some pl ∧
      touches base last pl = true

theorem last_eq {base size : Nat} (hs : 1 ≤ size) (hb : base + size ≤ 2 ^ 32) :
    sub32 (u32 (base + size)) 1 = base + size - 1 := by
  unfold sub32 u32
  omega

theorem mapDevice_eq {m : IOMap δ} {base size : Nat} (hs : 1 ≤ size)
    (hb : base + size ≤ 2 ^ 32) (device : δ) :
    (Rejects m base (base + size - 1) → mapDevice m base size device = (m, false)) ∧
    (¬ Rejects m base (base + size - 1) → mapDevice m base size device =
      (m.insert base ⟨base, base + size - 1, device⟩, true)) := by
  simp only [mapDevice, last_eq hs hb, Bool.and_eq_true, decide_eq_true_eq, Option.any_eq_true]
  generalize base + size - 1 = last
  have hpl : (((if m.lowerBound last ≠ 0 then m.lowerBound last - 1 else m.lowerBound last) ≠ 0 ∧
      ∃ x, m.get? (if m.lowerBound last ≠ 0 then m.lowerBound last - 1 else m.lowerBound last) =
        some x ∧ touches base last x = true) ↔
      ∃ pl, 2 ≤ m.lowerBound last ∧ m.get? (m.lowerBound last - 1) = some pl ∧
        touches base last pl = true) := by
    by_cases h0 : m.lowerBound last = 0
    · simp [h0]
    · simp only [ne_eq, h0, not_false_eq_true, if_true]
      constructor
      · intro h'
        obtain ⟨h1, pl, hg, ht⟩ := h'
        exact ⟨pl, by omega, hg, ht⟩
      · intro h'
        obtain ⟨pl, h1, hg, ht⟩ := h'
        exact ⟨by omega, pl, hg, ht⟩
  rw [Rejects]
  constructor
  · intro h
    by_cases h1 : ∃ x, m.get? (m.upperBound base) = some x ∧ touches base last x = true
    · rw [if_pos h1]
    · rw [if_neg h1, if_pos (hpl.mpr (h.resolve_left h1))]
  · intro h
    rw [not_or] at h
    rw [if_neg h.1, if_neg (hpl.not.mpr h.2)]

/-- A map with a range starting at or below `last` has a highest such range. -/
theorem exists_top {m : IOMap δ} {last : Nat} {e : Nat × MappedDevice δ} (he : e ∈ m)
    (hl : e.1 ≤ last) : ∃ h, Top m last h := by
  obtain ⟨i, hi⟩ := SortedMap.mem_iff_get?.mp he
  have hlt : i < m.upperBound last := by
    by_contra h
    have := (SortedMap.upperBound_le_iff hi).mp (Nat.le_of_not_lt h)
    omega
  have hlen := m.upperBound_le_length last
  obtain ⟨h, hh⟩ := SortedMap.get?_of_lt (m := m) (i := m.upperBound last - 1) (by omega)
  refine ⟨h, SortedMap.get?_mem hh, ?_, ?_⟩
  · by_contra hc
    have := (SortedMap.upperBound_le_iff hh).mpr (Nat.lt_of_not_le hc)
    omega
  · intro f hf hfl
    obtain ⟨j, hj⟩ := SortedMap.mem_iff_get?.mp hf
    have hjlt : j < m.upperBound last := by
      by_contra hc
      have := (SortedMap.upperBound_le_iff hj).mp (Nat.le_of_not_lt hc)
      omega
    by_contra hc
    have := (SortedMap.key_lt_iff hh hj).mp (Nat.lt_of_not_le hc)
    omega

/-- The new range meets a mapped one exactly when it meets the top one. -/
theorem intersects_iff_top {m : IOMap δ} (hm : Ranges m) {base last : Nat} (hbl : base ≤ last) :
    Intersects m base last ↔ ∃ h, Top m last h ∧ base ≤ h.2.lastAddress := by
  rw [intersects_iff hm hbl]
  constructor
  · intro h'
    obtain ⟨e, he, hl, hb⟩ := h'
    obtain ⟨h, hh⟩ := exists_top he hl
    refine ⟨h, hh, ?_⟩
    rcases Nat.lt_or_eq_of_le (hh.2.2 e he hl) with hlt | heq
    · have := hm.disjoint e he h hh.1 hlt
      have := hm.ordered h hh.1
      omega
    · rwa [← SortedMap.eq_of_key_eq he hh.1 heq]
  · intro h'
    obtain ⟨h, hh, hb⟩ := h'
    exact ⟨h, hh.1, hh.2.1, hb⟩

/-- A rejected range does meet a mapped one. -/
theorem intersects_of_rejects {m : IOMap δ} {base last : Nat} (hbl : base ≤ last)
    (h : Rejects m base last) : Intersects m base last := by
  have key : ∀ p ∈ m, touches base last p = true → Intersects m base last := by
    intro p hp ht
    rw [touches_iff] at ht
    rcases ht with hc | hc
    · exact ⟨p, hp, base, le_refl _, hbl, hc⟩
    · exact ⟨p, hp, last, hbl, le_refl _, hc⟩
  rcases h with ⟨pu, hg, ht⟩ | ⟨pl, _, hg, ht⟩
  · exact key pu (SortedMap.get?_mem hg) ht
  · exact key pl (SortedMap.get?_mem hg) ht

/-- The range `h` stands at the index `i` of the map; the ranges before it end below it, and those
after it start above `last`. -/
structure Stands (m : IOMap δ) (last : Nat) (h : Nat × MappedDevice δ) (i : Nat) : Prop where
  get : m.get? i = some h
  start : h.1 ≤ last
  ordered : h.1 ≤ h.2.lastAddress
  below : ∀ {j e}, m.get? j = some e → j < i → e.1 ≤ e.2.lastAddress ∧ e.2.lastAddress < h.1
  above : ∀ {j e}, m.get? j = some e → i < j → last < e.1

theorem Top.stands {m : IOMap δ} (hm : Ranges m) {last : Nat} {h : Nat × MappedDevice δ}
    (hh : Top m last h) : ∃ i, Stands m last h i := by
  obtain ⟨i, hi⟩ := SortedMap.mem_iff_get?.mp hh.1
  refine ⟨i, hi, hh.2.1, hm.ordered h hh.1, fun he hj => ?_, fun {j e} he hj => ?_⟩
  · have hkey := (SortedMap.key_lt_iff he hi).mpr hj
    exact ⟨hm.ordered _ (SortedMap.get?_mem he), hm.disjoint _ (SortedMap.get?_mem he) _ hh.1 hkey⟩
  · by_contra hc
    have hle := hh.2.2 e (SortedMap.get?_mem he) (Nat.le_of_not_lt hc)
    have hkey := (SortedMap.key_lt_iff hi he).mpr hj
    omega

namespace Stands

variable {m : IOMap δ} {base last i : Nat} {h : Nat × MappedDevice δ}

theorem upperBound_le (hs : Stands m last h i) : m.upperBound base ≤ i ↔ base < h.1 :=
  SortedMap.upperBound_le_iff hs.get

theorem lowerBound_le (hs : Stands m last h i) : m.lowerBound last ≤ i ↔ last ≤ h.1 :=
  SortedMap.lowerBound_le_iff hs.get

theorem lowerBound_eq_succ (hs : Stands m last h i) (hlt : h.1 < last) : m.lowerBound last = i + 1 := by
  have hpast : i < m.lowerBound last := by
    by_contra hc
    have hle := hs.lowerBound_le.mp (Nat.le_of_not_lt hc)
    omega
  have hlen := m.lowerBound_le_length last
  by_contra hne
  obtain ⟨e, he⟩ := SortedMap.get?_of_lt (m := m) (i := i + 1) (by omega)
  have hle := (SortedMap.lowerBound_le_iff (k := last) he).mpr (hs.above he (by omega)).le
  omega

theorem lowerBound_eq (hs : Stands m last h i) (heq : h.1 = last) : m.lowerBound last = i := by
  have hle : m.lowerBound last ≤ i := hs.lowerBound_le.mpr (by omega)
  have hlen := SortedMap.lt_length_of_get? hs.get
  by_contra hne
  obtain ⟨q, hq⟩ := SortedMap.get?_of_lt (m := m) (i := m.lowerBound last) (by omega)
  have hstart := (SortedMap.lowerBound_le_iff hq).mp (le_refl _)
  have hbelow := hs.below hq (by omega)
  omega

/-- Nothing starts strictly between exactly when `h` is the first range above the base. -/
theorem none_between_iff (hs : Stands m last h i) (hb : base < h.1) (heq : h.1 = last) :
    (∀ e ∈ m, ¬ (base < e.1 ∧ e.1 < last)) ↔ m.upperBound base = i := by
  have hle : m.upperBound base ≤ i := hs.upperBound_le.mpr hb
  have hlen := SortedMap.lt_length_of_get? hs.get
  constructor
  · intro hno
    obtain ⟨pu, hpu⟩ := SortedMap.get?_of_lt (m := m) (i := m.upperBound base) (by omega)
    have hbase : base < pu.1 := (SortedMap.upperBound_le_iff hpu).mp (le_refl _)
    by_contra hne
    have hbelow := hs.below hpu (by omega)
    exact hno pu (SortedMap.get?_mem hpu) ⟨hbase, by omega⟩
  · rintro hpi e he ⟨hbe, hel⟩
    obtain ⟨j, hj⟩ := SortedMap.mem_iff_get?.mp he
    have hfrom := (SortedMap.upperBound_le_iff hj).mpr hbe
    have hbefore := (SortedMap.key_lt_iff hj hs.get).mp (by omega)
    omega

/-- The last address falls inside `h`. -/
theorem rejects_inside (hs : Stands m last h i) (hb : base < h.1) (hl : last ≤ h.2.lastAddress)
    (hlt : h.1 < last) : Rejects m base last := by
  have htouch : touches base last h = true := touches_iff.mpr (.inr ⟨hs.start, hl⟩)
  have hle : m.upperBound base ≤ i := hs.upperBound_le.mpr hb
  have hlow := hs.lowerBound_eq_succ hlt
  rcases Nat.eq_zero_or_pos i with hzero | hpos
  · have hup : m.upperBound base = i := by omega
    exact .inl ⟨h, by rw [hup]; exact hs.get, htouch⟩
  · exact .inr ⟨h, by omega, by rw [hlow]; exact hs.get, htouch⟩

/-- The last address is the first one of `h`. -/
theorem rejects_iff_at_start (hs : Stands m last h i) (hb : base < h.1) (heq : h.1 = last) :
    Rejects m base last ↔ ∀ e ∈ m, ¬ (base < e.1 ∧ e.1 < last) := by
  rw [hs.none_between_iff hb heq]
  have hle : m.upperBound base ≤ i := hs.upperBound_le.mpr hb
  have hlow := hs.lowerBound_eq heq
  constructor
  · rintro (⟨p, hp, ht⟩ | ⟨p, htwo, hp, ht⟩)
    · by_contra hne
      have hbelow := hs.below hp (by omega)
      have hbase := (SortedMap.upperBound_le_iff hp).mp (le_refl _)
      rcases touches_iff.mp ht with ⟨hstart, -⟩ | ⟨-, hend⟩
      · omega
      · omega
    · have hbelow := hs.below hp (by omega)
      rcases touches_iff.mp ht with ⟨hstart, -⟩ | ⟨-, hend⟩
      · by_contra hne
        have hpast := (SortedMap.upperBound_le_iff (k := base) hp).not.mpr (by omega)
        omega
      · omega
  · intro hpi
    have hl : last ≤ h.2.lastAddress := heq ▸ hs.ordered
    exact .inl ⟨h, by rw [hpi]; exact hs.get, touches_iff.mpr (.inr ⟨hs.start, hl⟩)⟩

/-- The range `h` lies strictly inside the new range. -/
theorem not_rejects_within (hs : Stands m last h i) (hb : base < h.1) (hl : h.2.lastAddress < last) :
    ¬ Rejects m base last := by
  have hord := hs.ordered
  rintro (⟨p, hp, ht⟩ | ⟨p, -, hp, ht⟩)
  · have hbase := (SortedMap.upperBound_le_iff hp).mp (le_refl _)
    have hnot : ¬ Covers p base := fun hc => Nat.not_le.mpr hbase hc.1
    have hend := ((touches_iff.mp ht).resolve_left hnot).2
    rcases Nat.lt_or_eq_of_le (hs.upperBound_le.mpr hb) with hlt | heq
    · have hbelow := hs.below hp hlt
      omega
    · obtain rfl : p = h := Option.some.inj ((heq ▸ hp).symm.trans hs.get)
      omega
  · rw [hs.lowerBound_eq_succ (by omega)] at hp
    obtain rfl : p = h := Option.some.inj (hp.symm.trans hs.get)
    rcases touches_iff.mp ht with ⟨hstart, -⟩ | ⟨-, hend⟩
    · omega
    · omega

/-- The base falls inside `h`. -/
theorem rejects_iff_base (hs : Stands m last h i) (hb : h.1 ≤ base) (hbl : base ≤ last)
    (hbh : base ≤ h.2.lastAddress) :
    Rejects m base last ↔ h.1 < last ∧ ∃ e ∈ m, e.1 < h.1 := by
  have hup : i < m.upperBound base := by
    by_contra hc
    have hbase := hs.upperBound_le.mp (Nat.le_of_not_lt hc)
    omega
  constructor
  · rintro (⟨p, hp, ht⟩ | ⟨p, htwo, hp, ht⟩)
    · have habove := hs.above hp hup
      rcases touches_iff.mp ht with ⟨hstart, -⟩ | ⟨hstart, -⟩
      · omega
      · omega
    · by_cases hlt : h.1 < last
      · have hlow := hs.lowerBound_eq_succ hlt
        have hlen := SortedMap.lt_length_of_get? hs.get
        obtain ⟨e, he⟩ := SortedMap.get?_of_lt (m := m) (i := 0) (by omega)
        exact ⟨hlt, e, SortedMap.get?_mem he, (SortedMap.key_lt_iff he hs.get).mpr (by omega)⟩
      · have hlow : m.lowerBound last ≤ i := hs.lowerBound_le.mpr (by omega)
        have hbelow := hs.below hp (by omega)
        rcases touches_iff.mp ht with ⟨-, hend⟩ | ⟨-, hend⟩
        · omega
        · omega
  · rintro ⟨hlt, e, he, hbefore⟩
    obtain ⟨j, hj⟩ := SortedMap.mem_iff_get?.mp he
    have hindex := (SortedMap.key_lt_iff hj hs.get).mp hbefore
    have hlow := hs.lowerBound_eq_succ hlt
    exact .inr ⟨h, by omega, by rw [hlow]; exact hs.get, touches_iff.mpr (.inl ⟨hb, hbh⟩)⟩

end Stands

/-- With an overlap, the two neighbours show it exactly in the noticed positions. -/
theorem rejects_iff {m : IOMap δ} (hm : Ranges m) {base last : Nat} (hbl : base ≤ last)
    {h : Nat × MappedDevice δ} (hh : Top m last h) (hbh : base ≤ h.2.lastAddress) :
    Rejects m base last ↔
      (base < h.1 ∧ last ≤ h.2.lastAddress ∧
        (h.1 < last ∨ ∀ e ∈ m, ¬ (base < e.1 ∧ e.1 < last))) ∨
      (h.1 ≤ base ∧ h.1 < last ∧ ∃ e ∈ m, e.1 < h.1) := by
  obtain ⟨i, hs⟩ := hh.stands hm
  by_cases hb : base < h.1
  · by_cases hl : last ≤ h.2.lastAddress
    · by_cases hlt : h.1 < last
      · exact iff_of_true (hs.rejects_inside hb hl hlt) (.inl ⟨hb, hl, .inl hlt⟩)
      · have heq : h.1 = last := Nat.le_antisymm hs.start (Nat.le_of_not_lt hlt)
        rw [hs.rejects_iff_at_start hb heq]
        simp only [hb, hl, hlt, false_or, true_and, Nat.not_le.mpr hb, false_and, or_false]
    · exact iff_of_false (hs.not_rejects_within hb (Nat.lt_of_not_le hl)) (by omega)
  · have hb : h.1 ≤ base := Nat.le_of_not_lt hb
    rw [hs.rejects_iff_base hb hbl hbh]
    simp only [hb, Nat.not_lt.mpr hb, false_and, false_or, true_and]

end OpenXbox.Common.Overlap
