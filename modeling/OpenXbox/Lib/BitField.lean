import OpenXbox.Lib.Bits

/-!
# Fields of a register

A field is given by its mask. It is read shifted down to its lowest bit; writing it
leaves the other bits of the register alone and drops what does not fit. A register can
have a mask of the bits that are written, and one of those that a 1 clears.
-/

namespace OpenXbox.Lib.BitField

variable {w : Nat}

/-- The bits of a mask, with the number of its lowest bit. -/
structure Field (w : Nat) where
  mask : BitVec w
  shift : Nat
  lowest : mask.getLsbD shift = true ∧ ∀ i < shift, mask.getLsbD i = false := by decide

/-- The value of the field. -/
def Field.get (f : Field w) (v : BitVec w) : BitVec w := (v &&& f.mask) >>> f.shift

/-- The register with a value in the field. -/
def Field.set (f : Field w) (v x : BitVec w) : BitVec w :=
  (v &&& ~~~f.mask) ||| ((x <<< f.shift) &&& f.mask)

/-- The value goes into the field. -/
def Field.Fits (f : Field w) (x : BitVec w) : Prop := x &&& (f.mask >>> f.shift) = x

instance (f : Field w) (x : BitVec w) : Decidable (f.Fits x) := inferInstanceAs (Decidable (_ = _))

theorem getLsbD_set_of_out {f : Field w} {i : Nat} (hi : f.mask.getLsbD i = false) (v x : BitVec w) :
    (f.set v x).getLsbD i = v.getLsbD i := by
  by_cases hlt : i < w
  · simp only [Field.set, BitVec.getLsbD_or, BitVec.getLsbD_and, BitVec.getLsbD_not, hi, hlt]
    simp
  · rw [BitVec.getLsbD_of_ge _ _ (Nat.le_of_not_lt hlt), BitVec.getLsbD_of_ge _ _ (Nat.le_of_not_lt hlt)]

/-- What is read back is what went into the field. -/
theorem get_set (f : Field w) (v x : BitVec w) : f.get (f.set v x) = x &&& (f.mask >>> f.shift) := by
  apply BitVec.eq_of_getLsbD_eq
  intro i hi
  simp only [Field.get, Field.set, BitVec.getLsbD_ushiftRight, BitVec.getLsbD_and,
    BitVec.getLsbD_or, BitVec.getLsbD_not, BitVec.getLsbD_shiftLeft]
  by_cases hlt : f.shift + i < w
  · cases f.mask.getLsbD (f.shift + i) with
    | false => simp
    | true => simp [hlt]
  · simp [BitVec.getLsbD_of_ge _ _ (Nat.le_of_not_lt hlt)]

/-- The bits of the register under the mask of the field written. -/
theorem set_and_mask (f : Field w) (v x : BitVec w) : f.set v x &&& f.mask = (x <<< f.shift) &&& f.mask :=
  Bits.and_not_or_and v (x <<< f.shift) f.mask

/-- A value shifted down beforehand keeps its place. -/
theorem set_ushiftRight_and_mask (f : Field w) (v x : BitVec w) :
    f.set v (x >>> f.shift) &&& f.mask = x &&& f.mask := by
  rw [set_and_mask]
  apply BitVec.eq_of_getLsbD_eq
  intro i hi
  rw [BitVec.getLsbD_and, BitVec.getLsbD_and, BitVec.getLsbD_shiftLeft, BitVec.getLsbD_ushiftRight]
  by_cases hlow : i < f.shift
  · rw [f.lowest.2 i hlow, Bool.and_false, Bool.and_false]
  · simp [hi, hlow, Nat.add_sub_cancel' (Nat.le_of_not_lt hlow)]

/-- The bits under an apart mask are as they were. -/
theorem set_and_of_apart {g : Field w} {m : BitVec w} (h : g.mask &&& m = 0#w) (v x : BitVec w) :
    g.set v x &&& m = v &&& m := by
  apply BitVec.eq_of_getLsbD_eq
  intro i _
  rw [BitVec.getLsbD_and, BitVec.getLsbD_and]
  rcases Bits.getLsbD_apart h i with hg | hm
  · rw [getLsbD_set_of_out hg]
  · rw [hm, Bool.and_false, Bool.and_false]

/-- Another field is as it was. -/
theorem get_set_of_apart {f g : Field w} (h : g.mask &&& f.mask = 0#w) (v x : BitVec w) :
    f.get (g.set v x) = f.get v :=
  congrArg (fun y : BitVec w => y >>> f.shift) (set_and_of_apart h v x)

/-! ## Registers that are written under a mask -/

/-- A write takes the writable bits over, and clears the others of a second mask where it has a 1. -/
def maskedWrite (writable clearable old v : BitVec w) : BitVec w :=
  ((old &&& ~~~writable) ||| (v &&& writable)) &&& ~~~(v &&& clearable)

theorem getLsbD_maskedWrite {writable clearable : BitVec w} (h : writable &&& clearable = 0#w)
    (old v : BitVec w) (j : Nat) :
    (maskedWrite writable clearable old v).getLsbD j =
      if writable.getLsbD j then v.getLsbD j
      else if clearable.getLsbD j then old.getLsbD j && !v.getLsbD j
      else old.getLsbD j := by
  by_cases hj : j < w
  · simp only [maskedWrite, BitVec.getLsbD_and, BitVec.getLsbD_or, BitVec.getLsbD_not, hj]
    rcases Bits.getLsbD_apart h j with hw | hc
    · cases hclear : clearable.getLsbD j <;> simp [hw]
    · cases hwrite : writable.getLsbD j <;> simp [hc]
  · simp [BitVec.getLsbD_of_ge _ _ (Nat.le_of_not_lt hj)]

end OpenXbox.Lib.BitField
