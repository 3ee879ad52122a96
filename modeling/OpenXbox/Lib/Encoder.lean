import OpenXbox.Lib.Buffer
import Mathlib.Data.List.Forall2

/-!
# Writers with a budget

A writer stores what it encodes at a place in memory when that fits in what is left there, and
answers with the number of places used, or with a negative number. `Encodes` says that this
is so and which list it is; writers in sequence encode the lists one after the other. `walk`
takes such a sequence apart again, when each part begins with its own length.
-/

namespace OpenXbox.Lib.Encoder

open OpenXbox.Lib.Buffer

variable {β : Type*}

/-- Called with the memory, the place to write at and the number of places left. -/
abbrev Writer (β : Type*) := (Nat → β) → (pos len : Nat) → Int × (Nat → β)

/-- How the places used are added up and taken off the budget; exact up to a limit. -/
structure Counter where
  add : Nat → Nat → Nat
  sub : Nat → Nat → Nat
  limit : Nat
  add_eq : ∀ a b, a + b ≤ limit → add a b = a + b
  sub_eq : ∀ a b, b ≤ a → a ≤ limit → sub a b = a - b

/-- One writer after the other; `done` of the `len` places are used. The first one that fails
ends the sequence. -/
def writeAll (c : Counter) : List (Writer β) → (Nat → β) → (base len done : Nat) → Int × (Nat → β)
  | [], dest, _, _, done => (done, dest)
  | w :: ws, dest, base, len, done =>
    let r := w dest (base + done) (c.sub len done)
    if r.1 < 0 then r else writeAll c ws r.2 base len (c.add done r.1.toNat)

/-- With a budget up to `limit` the writer encodes `bytes`, or fails and changes nothing
outside the budget. -/
structure Encodes (limit : Nat) (w : Writer β) (bytes : List β) : Prop where
  fits : ∀ dest pos len, len ≤ limit → bytes.length ≤ len →
    w dest pos len = ((bytes.length : Int), put dest pos bytes)
  full : ∀ dest pos len, len ≤ limit → len < bytes.length →
    (w dest pos len).1 = -1 ∧ ∀ i, i < pos ∨ pos + len ≤ i → (w dest pos len).2 i = dest i

section Sequence

variable {c : Counter} {ws vs : List (Writer β)}

theorem writeAll_cons (w : Writer β) (dest : Nat → β) (base len done : Nat) :
    writeAll c (w :: ws) dest base len done =
      if (w dest (base + done) (c.sub len done)).1 < 0 then w dest (base + done) (c.sub len done)
      else writeAll c ws (w dest (base + done) (c.sub len done)).2 base len
        (c.add done (w dest (base + done) (c.sub len done)).1.toNat) := rfl

/-- Two sequences in a row are one. -/
theorem writeAll_append (dest : Nat → β) (base len done : Nat) :
    writeAll c (ws ++ vs) dest base len done =
      if (writeAll c ws dest base len done).1 < 0 then writeAll c ws dest base len done
      else writeAll c vs (writeAll c ws dest base len done).2 base len
        (writeAll c ws dest base len done).1.toNat := by
  induction ws generalizing dest done with
  | nil =>
    have hdone : ¬ ((done : Int) < 0) := by omega
    rw [List.nil_append, writeAll, if_neg hdone, Int.toNat_natCast]
  | cons w ws ih =>
    rw [List.cons_append, writeAll_cons, writeAll_cons]
    by_cases hneg : (w dest (base + done) (c.sub len done)).1 < 0
    · rw [if_pos hneg, if_pos hneg, if_pos hneg]
    · rw [if_neg hneg, if_neg hneg, ih]

theorem writeAll_fits {parts : List (List β)} (h : List.Forall₂ (Encodes c.limit) ws parts)
    (dest : Nat → β) (base : Nat) {len done : Nat} (hlimit : len ≤ c.limit)
    (hlen : done + parts.flatten.length ≤ len) :
    writeAll c ws dest base len done =
      (((done + parts.flatten.length : Nat) : Int), put dest (base + done) parts.flatten) := by
  induction h generalizing dest done with
  | nil => rw [writeAll, List.flatten_nil, List.length_nil, Nat.add_zero, put_nil]
  | @cons w bytes ws parts hw _ ih =>
    rw [List.flatten_cons, List.length_append] at hlen
    have hsub : c.sub len done = len - done := c.sub_eq len done (by omega) hlimit
    have hone := hw.fits dest (base + done) (len - done) (by omega) (by omega)
    have hadd : c.add done bytes.length = done + bytes.length := c.add_eq _ _ (by omega)
    have hpos : ¬ ((bytes.length : Int) < 0) := by omega
    rw [writeAll_cons, hsub, hone, if_neg hpos, Int.toNat_natCast, hadd, ih _ (by omega),
      List.flatten_cons, List.length_append, put_append, Nat.add_assoc, Nat.add_assoc]

theorem writeAll_full {parts : List (List β)} (h : List.Forall₂ (Encodes c.limit) ws parts)
    (dest : Nat → β) (base : Nat) {len done : Nat} (hlimit : len ≤ c.limit) (hdone : done ≤ len)
    (hlen : len < done + parts.flatten.length) :
    (writeAll c ws dest base len done).1 = -1 ∧
      ∀ i, i < base + done ∨ base + len ≤ i → (writeAll c ws dest base len done).2 i = dest i := by
  induction h generalizing dest done with
  | nil =>
    rw [List.flatten_nil, List.length_nil] at hlen
    omega
  | @cons w bytes ws parts hw _ ih =>
    rw [List.flatten_cons, List.length_append] at hlen
    have hsub : c.sub len done = len - done := c.sub_eq len done hdone hlimit
    rw [writeAll_cons, hsub]
    by_cases hfit : bytes.length ≤ len - done
    · have hone := hw.fits dest (base + done) (len - done) (by omega) hfit
      have hadd : c.add done bytes.length = done + bytes.length := c.add_eq _ _ (by omega)
      have hpos : ¬ ((bytes.length : Int) < 0) := by omega
      rw [hone, if_neg hpos, Int.toNat_natCast, hadd]
      dsimp only
      have hused : done + bytes.length ≤ len := by omega
      obtain ⟨hrc, hrest⟩ := ih (put dest (base + done) bytes) hused (by omega)
      refine ⟨hrc, fun i hi => ?_⟩
      rw [hrest i (by omega)]
      rcases hi with hlt | hge
      · exact put_of_lt hlt
      · exact put_of_ge (by omega)
    · obtain ⟨hrc, hrest⟩ := hw.full dest (base + done) (len - done) (by omega) (by omega)
      have hneg : (w dest (base + done) (len - done)).1 < 0 := by
        rw [hrc]
        decide
      rw [if_pos hneg]
      exact ⟨hrc, fun i hi => hrest i (by omega)⟩

/-- A header, and what follows it. -/
theorem encodes_header {parts : List (List β)} (h : List.Forall₂ (Encodes c.limit) ws parts)
    (header : List β) :
    Encodes c.limit (fun dest pos len =>
      if len < header.length then (-1, dest)
      else writeAll c ws (put dest pos header) pos len header.length) (header ++ parts.flatten) := by
  constructor
  · intro dest pos len hlimit hlen
    rw [List.length_append] at hlen ⊢
    rw [if_neg (by omega), writeAll_fits h _ _ hlimit hlen, put_append]
  · intro dest pos len hlimit hlen
    rw [List.length_append] at hlen
    by_cases hshort : len < header.length
    · rw [if_pos hshort]
      exact ⟨rfl, fun i _ => rfl⟩
    · obtain ⟨hrc, hrest⟩ := writeAll_full h (put dest pos header) pos hlimit (by omega) hlen
      rw [if_neg hshort]
      refine ⟨hrc, fun i hi => ?_⟩
      rw [hrest i (by omega)]
      rcases hi with hlt | hge
      · exact put_of_lt hlt
      · exact put_of_ge (by omega)

theorem encodes_map {ι : Type*} {limit : Nat} {w : ι → Writer β} {bytes : ι → List β}
    (h : ∀ i, Encodes limit (w i) (bytes i)) (is : List ι) :
    List.Forall₂ (Encodes limit) (is.map w) (is.map bytes) := by
  rw [List.forall₂_map_left_iff, List.forall₂_map_right_iff, List.forall₂_same]
  exact fun i _ => h i

end Sequence

/-! ## Taking it apart -/

/-- The parts of a list, each as long as its first element says. -/
def walk (size : β → Nat) : List β → Option (List (List β))
  | [] => some []
  | b :: rest =>
    if 0 < size b ∧ size b ≤ rest.length + 1 then
      (walk size (rest.drop (size b - 1))).map ((b :: rest.take (size b - 1)) :: ·)
    else none
termination_by bytes => bytes.length
decreasing_by
  rw [List.length_drop, List.length_cons]
  omega

/-- The part says its own length. -/
def SelfSized (size : β → Nat) (part : List β) : Prop :=
  ∃ b rest, part = b :: rest ∧ size b = part.length

theorem walk_flatten {size : β → Nat} {parts : List (List β)}
    (h : ∀ part ∈ parts, SelfSized size part) : walk size parts.flatten = some parts := by
  induction parts with
  | nil => rw [List.flatten_nil, walk]
  | cons part parts ih =>
    obtain ⟨b, rest, rfl, hsize⟩ := h part List.mem_cons_self
    rw [List.length_cons] at hsize
    have hall := ih fun p hp => h p (List.mem_cons_of_mem _ hp)
    have hdrop : (rest ++ parts.flatten).drop (size b - 1) = parts.flatten := by
      rw [hsize, Nat.add_sub_cancel, List.drop_left]
    have htake : (rest ++ parts.flatten).take (size b - 1) = rest := by
      rw [hsize, Nat.add_sub_cancel, List.take_left]
    have hbound : 0 < size b ∧ size b ≤ (rest ++ parts.flatten).length + 1 := by
      rw [hsize, List.length_append]
      omega
    rw [List.flatten_cons, List.cons_append, walk, if_pos hbound, hdrop, htake, hall]
    rfl

end OpenXbox.Lib.Encoder
