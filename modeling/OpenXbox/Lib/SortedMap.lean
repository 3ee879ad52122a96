import Mathlib.Data.List.Basic
import Mathlib.Order.Lattice
import Mathlib.Data.List.Pairwise

/-!
# An ordered map with positional iterators

The map keeps its entries in strictly increasing key order. An iterator is a
position in that order: `0` is the first entry and `entries.length` the end.
`lowerBound` and `upperBound` are the positions of the first key not below and
the first key above a bound, as in the C++ `std::map`.
-/

namespace OpenXbox.Lib

/-- Entries in strictly increasing key order. -/
structure SortedMap (κ ν : Type*) [LinearOrder κ] where
  entries : List (κ × ν)
  sorted : entries.Pairwise fun a b => a.1 < b.1

namespace SortedMap

variable {κ ν : Type*} [LinearOrder κ]

def empty : SortedMap κ ν := ⟨[], List.Pairwise.nil⟩

instance : Membership (κ × ν) (SortedMap κ ν) := ⟨fun m e => e ∈ m.entries⟩

/-- The entry an iterator points at; `none` at the end. -/
def get? (m : SortedMap κ ν) (i : Nat) : Option (κ × ν) := m.entries[i]?

def lowerBound (m : SortedMap κ ν) (k : κ) : Nat := m.entries.findIdx fun e => decide (k ≤ e.1)

def upperBound (m : SortedMap κ ν) (k : κ) : Nat := m.entries.findIdx fun e => decide (k < e.1)

/-- `map[k] = v`: the entry of `k` is replaced, or a new one put in its place. -/
def insert (m : SortedMap κ ν) (k : κ) (v : ν) : SortedMap κ ν where
  entries := m.entries.filter (fun e => decide (e.1 < k)) ++
    (k, v) :: m.entries.filter (fun e => decide (k < e.1))
  sorted := by
    rw [List.pairwise_append, List.pairwise_cons]
    refine ⟨m.sorted.filter _, ⟨?_, m.sorted.filter _⟩, ?_⟩
    · intro e he
      simpa using (List.mem_filter.mp he).2
    · intro a ha b hb
      have hak : a.1 < k := by simpa using (List.mem_filter.mp ha).2
      rcases List.mem_cons.mp hb with rfl | hb
      · exact hak
      · exact hak.trans (by simpa using (List.mem_filter.mp hb).2)

theorem mem_def {m : SortedMap κ ν} {e : κ × ν} : e ∈ m ↔ e ∈ m.entries := Iff.rfl

@[simp] theorem not_mem_empty (e : κ × ν) : e ∉ (empty : SortedMap κ ν) := List.not_mem_nil

@[simp] theorem mem_insert {m : SortedMap κ ν} {k : κ} {v : ν} {e : κ × ν} :
    e ∈ m.insert k v ↔ e = (k, v) ∨ (e ∈ m ∧ e.1 ≠ k) := by
  simp only [mem_def, insert, List.mem_append, List.mem_filter, List.mem_cons, decide_eq_true_eq]
  constructor
  · rintro (⟨h, hk⟩ | rfl | ⟨h, hk⟩)
    · exact .inr ⟨h, hk.ne⟩
    · exact .inl rfl
    · exact .inr ⟨h, hk.ne'⟩
  · rintro (rfl | ⟨h, hk⟩)
    · exact .inr (.inl rfl)
    · rcases lt_or_gt_of_ne hk with hk | hk
      · exact .inl ⟨h, hk⟩
      · exact .inr (.inr ⟨h, hk⟩)

/-- Positions order entries by key. -/
theorem key_lt_iff {m : SortedMap κ ν} {i j : Nat} {a b : κ × ν} (ha : m.get? i = some a)
    (hb : m.get? j = some b) : a.1 < b.1 ↔ i < j := by
  obtain ⟨hi, rfl⟩ := List.getElem?_eq_some_iff.mp ha
  obtain ⟨hj, rfl⟩ := List.getElem?_eq_some_iff.mp hb
  have hs := List.pairwise_iff_getElem.mp m.sorted
  constructor
  · intro h
    by_contra hij
    rcases Nat.lt_or_eq_of_le (Nat.le_of_not_lt hij) with hji | rfl
    · exact lt_asymm h (hs j i hj hi hji)
    · exact lt_irrefl _ h
  · exact hs i j hi hj

theorem mem_iff_get? {m : SortedMap κ ν} {e : κ × ν} : e ∈ m ↔ ∃ i, m.get? i = some e :=
  List.mem_iff_getElem?

theorem get?_mem {m : SortedMap κ ν} {i : Nat} {e : κ × ν} (h : m.get? i = some e) : e ∈ m :=
  mem_iff_get?.mpr ⟨i, h⟩

/-- Distinct entries have distinct keys. -/
theorem eq_of_key_eq {m : SortedMap κ ν} {a b : κ × ν} (ha : a ∈ m) (hb : b ∈ m)
    (h : a.1 = b.1) : a = b := by
  obtain ⟨i, hi⟩ := mem_iff_get?.mp ha
  obtain ⟨j, hj⟩ := mem_iff_get?.mp hb
  have h1 := (key_lt_iff hi hj).not.mp (by rw [h]; exact lt_irrefl _)
  have h2 := (key_lt_iff hj hi).not.mp (by rw [h]; exact lt_irrefl _)
  obtain rfl : i = j := by omega
  exact Option.some.inj (hi.symm.trans hj)

/-- A position is the first one with `p` among entries where `p` is upward closed. -/
private theorem findIdx_le_iff {m : SortedMap κ ν} {p : κ × ν → Bool}
    (hp : ∀ a b : κ × ν, a.1 < b.1 → p a = true → p b = true) {i : Nat} {e : κ × ν}
    (he : m.get? i = some e) : m.entries.findIdx p ≤ i ↔ p e = true := by
  obtain ⟨hi, rfl⟩ := List.getElem?_eq_some_iff.mp he
  constructor
  · intro h
    have hlt : m.entries.findIdx p < m.entries.length := by omega
    have hf : p (m.entries[m.entries.findIdx p]) = true := List.findIdx_getElem
    rcases Nat.lt_or_eq_of_le h with h | h
    · exact hp _ _ (List.pairwise_iff_getElem.mp m.sorted _ _ hlt hi h) hf
    · simpa only [h] using hf
  · intro h
    by_contra hlt
    have hf := List.not_of_lt_findIdx (Nat.lt_of_not_le hlt)
    exact Bool.false_ne_true (hf.symm.trans h)

theorem lowerBound_le_iff {m : SortedMap κ ν} {k : κ} {i : Nat} {e : κ × ν}
    (he : m.get? i = some e) : m.lowerBound k ≤ i ↔ k ≤ e.1 := by
  rw [lowerBound, findIdx_le_iff (fun a b hab ha => ?_) he, decide_eq_true_eq]
  simp only [decide_eq_true_eq] at ha ⊢
  exact ha.trans hab.le

theorem upperBound_le_iff {m : SortedMap κ ν} {k : κ} {i : Nat} {e : κ × ν}
    (he : m.get? i = some e) : m.upperBound k ≤ i ↔ k < e.1 := by
  rw [upperBound, findIdx_le_iff (fun a b hab ha => ?_) he, decide_eq_true_eq]
  simp only [decide_eq_true_eq] at ha ⊢
  exact ha.trans hab

theorem lowerBound_le_length (m : SortedMap κ ν) (k : κ) : m.lowerBound k ≤ m.entries.length :=
  List.findIdx_le_length

theorem upperBound_le_length (m : SortedMap κ ν) (k : κ) : m.upperBound k ≤ m.entries.length :=
  List.findIdx_le_length

theorem get?_of_lt {m : SortedMap κ ν} {i : Nat} (h : i < m.entries.length) :
    ∃ e, m.get? i = some e := ⟨_, List.getElem?_eq_getElem h⟩

theorem lt_length_of_get? {m : SortedMap κ ν} {i : Nat} {e : κ × ν} (h : m.get? i = some e) :
    i < m.entries.length := (List.getElem?_eq_some_iff.mp h).1

end SortedMap

end OpenXbox.Lib
