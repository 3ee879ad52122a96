import Mathlib.Data.List.Basic

/-!
# The last match in a list

A search that does not stop at a match keeps what it found last.
-/

namespace OpenXbox.Lib.LastMatch

variable {α β : Type*} {p : α → Bool} {l : List α} {x : α}

def lastMatch (p : α → Bool) (l : List α) : Option α := l.reverse.find? p

@[simp] theorem lastMatch_nil : lastMatch p [] = none := rfl

theorem lastMatch_cons :
    lastMatch p (x :: l) = (lastMatch p l).or (if p x then some x else none) := by
  rw [lastMatch, List.reverse_cons, List.find?_append, List.find?_singleton]
  rfl

theorem lastMatch_eq_none : lastMatch p l = none ↔ ∀ x ∈ l, ¬ p x := by
  simp [lastMatch]

theorem lastMatch_some (h : lastMatch p l = some x) : x ∈ l ∧ p x :=
  ⟨List.mem_reverse.mp (List.mem_of_find?_eq_some h), List.find?_some h⟩

/-- A match later in the list is kept, and the first element counts when there is none. -/
theorem elim_lastMatch_cons (f : α → β) (b : β) :
    (lastMatch p (x :: l)).elim b f = (lastMatch p l).elim (if p x then f x else b) f := by
  rw [lastMatch_cons]
  cases lastMatch p l with
  | some y => rfl
  | none => cases h : p x <;> rfl

/-- What is overwritten at every match is left as the last of them has it. -/
theorem foldl_overwrite {σ : Type*} (read : σ → β) (write : σ → α → σ) {f : α → β}
    (hwrite : ∀ s x, read (write s x) = if p x then f x else read s) (l : List α) (s : σ) :
    read (l.foldl write s) = (lastMatch p l).elim (read s) f := by
  induction l generalizing s with
  | nil => rfl
  | cons x l ih => rw [List.foldl_cons, ih, elim_lastMatch_cons, hwrite]

end OpenXbox.Lib.LastMatch
