import Mathlib.Data.List.Basic

/-!
# Linked lists

Nodes are linked by a function that a memory defines; a list ends where a link is
null. What can be followed from a head is determined by it, and no node is met twice.
-/

namespace OpenXbox.Lib.LinkedList

variable {α : Type*} {link link' : α → α} {null head a : α} {as bs : List α}

/-- Following the links from `head` gives these nodes and ends at `null`. -/
def Linked (link : α → α) (null : α) : α → List α → Prop
  | head, [] => head = null
  | head, a :: as => head = a ∧ a ≠ null ∧ Linked link null (link a) as

def decideLinked [DecidableEq α] (link : α → α) (null : α) :
    ∀ (head : α) (as : List α), Decidable (Linked link null head as)
  | head, [] => inferInstanceAs (Decidable (head = null))
  | head, a :: as =>
    have : Decidable (Linked link null (link a) as) := decideLinked link null (link a) as
    inferInstanceAs (Decidable (head = a ∧ a ≠ null ∧ Linked link null (link a) as))

instance [DecidableEq α] (head : α) (as : List α) : Decidable (Linked link null head as) :=
  decideLinked link null head as

@[simp] theorem linked_nil : Linked link null head [] ↔ head = null := Iff.rfl

@[simp] theorem linked_cons :
    Linked link null head (a :: as) ↔ head = a ∧ a ≠ null ∧ Linked link null (link a) as := Iff.rfl

/-- Only the links of the nodes in the list matter. -/
theorem Linked.congr (h : Linked link null head as) (hl : ∀ b ∈ as, link' b = link b) :
    Linked link' null head as := by
  induction as generalizing head with
  | nil => exact h
  | cons a as ih =>
    obtain ⟨rfl, h0, hrest⟩ := h
    rw [List.forall_mem_cons] at hl
    refine ⟨rfl, h0, ?_⟩
    rw [hl.1]
    exact ih hrest hl.2

/-- A node that links to the head is put before the list. -/
theorem Linked.push (h : Linked link null head as) (h0 : a ≠ null) (ha : link' a = head)
    (hl : ∀ b ∈ as, link' b = link b) : Linked link' null a (a :: as) := by
  rw [← ha] at h
  exact ⟨rfl, h0, h.congr hl⟩

theorem Linked.unique (h : Linked link null head as) (h' : Linked link null head bs) : as = bs := by
  induction as generalizing head bs with
  | nil =>
    obtain rfl : head = null := h
    cases bs with
    | nil => rfl
    | cons b bs =>
      obtain ⟨rfl, h0, -⟩ := h'
      exact absurd rfl h0
  | cons a as ih =>
    obtain ⟨rfl, h0, hrest⟩ := h
    cases bs with
    | nil => exact absurd h' h0
    | cons b bs =>
      obtain ⟨rfl, -, hrest'⟩ := h'
      rw [ih hrest hrest']

/-- The rest of a list is followed from its first node. -/
theorem Linked.of_append (h : Linked link null head (as ++ a :: bs)) :
    Linked link null a (a :: bs) := by
  induction as generalizing head with
  | nil =>
    obtain ⟨-, h0, hrest⟩ := h
    exact ⟨rfl, h0, hrest⟩
  | cons b as ih => exact ih h.2.2

/-- A node that came again would be followed by the same nodes again, for ever. -/
theorem Linked.nodup (h : Linked link null head as) : as.Nodup := by
  induction as generalizing head with
  | nil => exact List.nodup_nil
  | cons a as ih =>
    refine List.nodup_cons.mpr ⟨fun hmem => ?_, ih h.2.2⟩
    obtain ⟨pre, post, hsplit⟩ := List.append_of_mem hmem
    obtain ⟨rfl, h0, hrest⟩ := h
    have hagain : Linked link null head (head :: post) := by
      rw [hsplit] at hrest
      exact hrest.of_append
    have heq : head :: as = head :: post := Linked.unique ⟨rfl, h0, hrest⟩ hagain
    have hlen := congrArg List.length heq
    rw [hsplit, List.length_cons, List.length_cons, List.length_append, List.length_cons] at hlen
    omega

end OpenXbox.Lib.LinkedList
