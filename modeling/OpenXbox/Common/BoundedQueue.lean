import OpenXbox.Common.FifoContents
import OpenXbox.Lib.Mealy

/-!
# The ring buffer is a bounded queue

A queue of a capacity is a list of at most that many elements. The ring buffer answers every sequence
of calls as the queue does, wherever its head is.
-/

namespace OpenXbox.Common

open OpenXbox.Lib

/-- The elements, the oldest in front. -/
structure BoundedQueue (α : Type*) (capacity : Nat) where
  elements : List α
  length_le : elements.length ≤ capacity

/-- The calls that change a `Fifo<T>`. -/
inductive FifoOp (α : Type*)
  | push (x : α)
  | pop
  | discard
  | clear

/-- What a call returns, and what `Count`, `IsEmpty` and `IsFull` say after it. -/
structure FifoAnswer (α : Type*) where
  accepted : Bool
  popped : Option α
  count : Nat
  isEmpty : Bool
  isFull : Bool

namespace BoundedQueue

variable {α : Type*} {capacity : Nat}

def empty : BoundedQueue α capacity := ⟨[], Nat.zero_le _⟩

def push (q : BoundedQueue α capacity) (x : α) : BoundedQueue α capacity × Bool :=
  if h : q.elements.length < capacity then
    (⟨q.elements ++ [x], by rw [List.length_append, List.length_singleton]; omega⟩, true)
  else (q, false)

/-- The oldest element and the queue without it. -/
def pop (q : BoundedQueue α capacity) : BoundedQueue α capacity × Option α :=
  (⟨q.elements.tail, by rw [List.length_tail]; exact (Nat.sub_le _ _).trans q.length_le⟩, q.elements.head?)

@[simp] theorem elements_pop (q : BoundedQueue α capacity) : q.pop.1.elements = q.elements.tail := rfl

@[simp] theorem popped (q : BoundedQueue α capacity) : q.pop.2 = q.elements.head? := rfl

theorem push_of_lt {q : BoundedQueue α capacity} (h : q.elements.length < capacity) (x : α) :
    (q.push x).1.elements = q.elements ++ [x] ∧ (q.push x).2 = true := by
  rw [push, dif_pos h]
  exact ⟨rfl, rfl⟩

theorem push_of_full {q : BoundedQueue α capacity} (h : ¬ q.elements.length < capacity) (x : α) :
    q.push x = (q, false) := dif_neg h

def answer (q : BoundedQueue α capacity) (accepted : Bool) (popped : Option α) : FifoAnswer α :=
  ⟨accepted, popped, q.elements.length, q.elements.isEmpty, q.elements.length == capacity⟩

def step (q : BoundedQueue α capacity) : FifoOp α → BoundedQueue α capacity × FifoAnswer α
  | .push x => ((q.push x).1, (q.push x).1.answer (q.push x).2 none)
  | .pop => (q.pop.1, q.pop.1.answer q.pop.2.isSome q.pop.2)
  | .discard => (q.pop.1, q.pop.1.answer q.pop.2.isSome none)
  | .clear => (empty, (empty : BoundedQueue α capacity).answer true none)

end BoundedQueue

namespace Fifo

variable {α : Type*}

def answer (f : Fifo α) (accepted : Bool) (popped : Option α) : FifoAnswer α :=
  ⟨accepted, popped, f.count, f.isEmpty, f.isFull⟩

def step (f : Fifo α) : FifoOp α → Fifo α × FifoAnswer α
  | .push x => ((f.push x).1, (f.push x).1.answer (f.push x).2 none)
  | .pop => (f.pop.1, f.pop.1.answer f.pop.2.isSome f.pop.2)
  | .discard => (f.discard.1, f.discard.1.answer f.discard.2 none)
  | .clear => (f.clear, f.clear.answer true none)

/-- The place of the array that a call reads or writes. -/
def accessed (f : Fifo α) : FifoOp α → Option Nat
  | .push _ => if f.num = f.capacity then none else some (u32 (f.head + f.num) % f.capacity)
  | .pop => if f.num = 0 then none else some f.head
  | .discard => none
  | .clear => none

section Accesses

variable {f : Fifo α}

/-- Nothing is written but the place accessed. -/
theorem data_step (f : Fifo α) (op : FifoOp α) {i : Nat} (h : f.accessed op ≠ some i) :
    (f.step op).1.data i = f.data i := by
  cases op with
  | push x =>
    rw [accessed] at h
    rw [step, push]
    split
    · rfl
    · next hroom =>
      rw [if_neg hroom] at h
      exact if_neg fun hi => h (congrArg some hi.symm)
  | pop =>
    rw [step, pop]
    split <;> rfl
  | discard =>
    rw [step, discard]
    split <;> rfl
  | clear => rfl

/-- The element popped is the one at the place accessed. -/
theorem popped_step (f : Fifo α) : (f.step .pop).2.popped = (f.accessed .pop).map f.data := by
  rw [step, accessed, answer, pop]
  split <;> rfl

theorem accessed_lt (h : WellFormed f) {op : FifoOp α} {i : Nat} (hi : f.accessed op = some i) :
    i < f.capacity := by
  have hhead := h.head_lt
  cases op with
  | push x =>
    rw [accessed] at hi
    split at hi
    · cases hi
    · rw [← Option.some.inj hi]
      exact Nat.mod_lt _ (by omega)
  | pop =>
    rw [accessed] at hi
    split at hi
    · cases hi
    · rwa [← Option.some.inj hi]
  | discard => cases hi
  | clear => cases hi

end Accesses

section Refinement

variable {f : Fifo α} {capacity : Nat} {q : BoundedQueue α capacity}

/-- The ring buffer holds what the queue does. -/
structure Refines (f : Fifo α) (q : BoundedQueue α capacity) : Prop where
  wellFormed : WellFormed f
  capacity : f.capacity = capacity
  contents : f.contents = q.elements

theorem Refines.num (h : Refines f q) : f.num = q.elements.length := by
  rw [← h.contents, length_contents]

theorem Refines.answer (h : Refines f q) (accepted : Bool) (popped : Option α) :
    f.answer accepted popped = q.answer accepted popped := by
  have hempty : f.isEmpty = q.elements.isEmpty := by
    rw [isEmpty, h.num]
    cases q.elements <;> rfl
  rw [Fifo.answer, BoundedQueue.answer, count, hempty, isFull, h.num, h.capacity]

theorem refines_push (h : Refines f q) (x : α) :
    Refines (f.push x).1 (q.push x).1 ∧ (f.push x).2 = (q.push x).2 := by
  have hnum := h.num
  have hcapacity := h.capacity
  have hle := q.length_le
  by_cases hroom : q.elements.length < capacity
  · obtain ⟨helements, haccepted⟩ := BoundedQueue.push_of_lt hroom x
    have hf : (f.push x).2 = true := by rw [push, if_neg (by omega)]
    have hfull : f.num < f.capacity := by omega
    refine ⟨⟨wellFormed_push h.wellFormed x, ?_, ?_⟩, ?_⟩
    · rw [push_eq h.wellFormed hfull]
      exact hcapacity
    · rw [contents_push h.wellFormed hfull, h.contents, helements]
    · rw [hf, haccepted]
  · have hf : f.push x = (f, false) := by rw [push, if_pos (by omega)]
    rw [BoundedQueue.push_of_full hroom, hf]
    exact ⟨h, rfl⟩

theorem refines_pop (h : Refines f q) : Refines f.pop.1 q.pop.1 ∧ f.pop.2 = q.pop.2 := by
  by_cases hempty : f.num = 0
  · have hf : f.pop = (f, none) := by rw [pop, if_pos hempty]
    have hnil : q.elements = [] := by rw [← h.contents, contents_eq_nil_iff, hempty]
    rw [hf]
    refine ⟨⟨h.wellFormed, h.capacity, ?_⟩, ?_⟩
    · rw [h.contents, BoundedQueue.elements_pop, hnil, List.tail_nil]
    · rw [BoundedQueue.popped, hnil, List.head?_nil]
  · obtain ⟨x, hx, hcontents⟩ := contents_pop h.wellFormed hempty
    rw [h.contents] at hcontents
    refine ⟨⟨wellFormed_pop h.wellFormed, ?_, ?_⟩, ?_⟩
    · rw [pop_eq h.wellFormed hempty]
      exact h.capacity
    · rw [BoundedQueue.elements_pop, hcontents, List.tail_cons]
    · rw [hx, BoundedQueue.popped, hcontents, List.head?_cons]

theorem discard_accepted (f : Fifo α) : f.discard.2 = f.pop.2.isSome := by
  rw [discard, pop]
  split <;> rfl

/-- One call keeps the refinement and gets the same answer. -/
theorem refines_step (h : Refines f q) (op : FifoOp α) :
    Refines (f.step op).1 (q.step op).1 ∧ (f.step op).2 = (q.step op).2 := by
  cases op with
  | push x =>
    obtain ⟨hnext, hresult⟩ := refines_push h x
    refine ⟨hnext, ?_⟩
    rw [step, BoundedQueue.step, hnext.answer, hresult]
  | pop =>
    obtain ⟨hnext, hresult⟩ := refines_pop h
    refine ⟨hnext, ?_⟩
    rw [step, BoundedQueue.step, hnext.answer, hresult]
  | discard =>
    obtain ⟨hnext, hresult⟩ := refines_pop h
    rw [← discard_eq_pop] at hnext
    refine ⟨hnext, ?_⟩
    rw [step, BoundedQueue.step, hnext.answer, discard_accepted, hresult]
  | clear =>
    have hnext : Refines f.clear (BoundedQueue.empty : BoundedQueue α capacity) :=
      ⟨wellFormed_clear h.wellFormed, h.capacity, contents_clear f⟩
    exact ⟨hnext, hnext.answer true none⟩

theorem refines_new (data : Nat → α) (hpos : 0 < capacity) (hle : capacity ≤ 2 ^ 31) :
    Refines (new data capacity) (BoundedQueue.empty : BoundedQueue α capacity) :=
  ⟨wellFormed_new data hpos hle, rfl, rfl⟩

theorem refines_run (h : Refines f q) (ops : List (FifoOp α)) :
    Refines (Mealy.run step f ops).1 (Mealy.run BoundedQueue.step q ops).1 ∧
      (Mealy.run step f ops).2 = (Mealy.run BoundedQueue.step q ops).2 := by
  have hstep (f : Fifo α) (q : BoundedQueue α capacity) (op : FifoOp α) (_ : True) (_ : True)
      (hrel : Refines f q) : Refines (f.step op).1 (q.step (id op)).1 ∧ (f.step op).2 = (q.step (id op)).2 :=
    refines_step hrel op
  have hrun := Mealy.run_lockstep hstep h (fun op (_ : op ∈ ops) => trivial) fun _ _ => trivial
  rwa [List.map_id] at hrun

/-- From its construction on the ring buffer answers as a queue of its capacity, which holds the same
elements, and no call accesses the array out of its bounds. -/
theorem run_refines_queue (data : Nat → α) (capacity : Nat) (hpos : 0 < capacity)
    (hle : capacity ≤ 2 ^ 31) (ops : List (FifoOp α)) :
    let f := Mealy.run step (new data capacity) ops
    let q := Mealy.run BoundedQueue.step (BoundedQueue.empty : BoundedQueue α capacity) ops
    f.2 = q.2 ∧ f.1.contents = q.1.elements ∧ ∀ op i, f.1.accessed op = some i → i < capacity := by
  obtain ⟨hrefines, hanswers⟩ := refines_run (refines_new data hpos hle) ops
  refine ⟨hanswers, hrefines.contents, fun op i hi => ?_⟩
  rw [← hrefines.capacity]
  exact accessed_lt hrefines.wellFormed hi

/-- A fifo of three elements that goes round the end of its array: what is put in when it is full is
refused, and the others come out in order. -/
theorem run_refines_queue_three :
    let ops : List (FifoOp Nat) := [.push 5, .push 6, .pop, .push 7, .push 8, .push 9, .pop, .pop, .pop, .pop]
    (Mealy.run step (new (fun _ => 0) 3) ops).2 =
      [⟨true, none, 1, false, false⟩, ⟨true, none, 2, false, false⟩, ⟨true, some 5, 1, false, false⟩,
        ⟨true, none, 2, false, false⟩, ⟨true, none, 3, false, true⟩, ⟨false, none, 3, false, true⟩,
        ⟨true, some 6, 2, false, false⟩, ⟨true, some 7, 1, false, false⟩, ⟨true, some 8, 0, true, false⟩,
        ⟨false, none, 0, true, false⟩] :=
  (run_refines_queue (fun _ => 0) 3 (by decide) (by decide)
    [.push 5, .push 6, .pop, .push 7, .push 8, .push 9, .pop, .pop, .pop, .pop]).1.trans rfl

end Refinement

end Fifo

end OpenXbox.Common
