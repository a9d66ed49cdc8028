import Mathlib.Algebra.Ring.Nat

/-!
# How floats are unpacked

The bits of a float are a sign, an exponent and a fraction. What a float stands for depends on the
exponent: the greatest one is kept for what is infinite or no number, and the least one for zeros
and for the numbers without a leading bit.

* `UnpacksTo` — **the five kinds of floats**, each with the bits it has.
* `pack_unpack` — packing what was unpacked gives the bits back, because there is only one form of
  what is no number.
* `eq_of_unpack_eq` — so **floats that are unpacked alike are the same**.

The other modules about floats reason with `UnpacksTo` and `eq_of_unpack_eq`; bits are dealt with
here, and in the reading of signs and magnitudes.
-/

namespace ChartCompiler

open Float.Model

/-- The bits of a double. -/
abbrev DoubleBits : Type := BitVec Format.binary64.numBits

/-- The sign that the bits of a double give. -/
def signOf (b : DoubleBits) : UnpackedFloat.Sign := .ofBitVec (UnpackedFloat.unpackSign b)

/-- **What the bits of a double are unpacked to.** The kinds exclude each other by their exponents
and fractions. -/
inductive UnpacksTo (b : DoubleBits) : UnpackedFloat → Prop
  /-- With the greatest exponent and no fraction, the infinity of the sign. -/
  | infinity (exponent : UnpackedFloat.unpackExponent b = -1#_)
      (fraction : UnpackedFloat.unpackMantissa b = 0#_) : UnpacksTo b (.infinity (signOf b))
  /-- With the greatest exponent and any fraction, what is no number, whatever the sign. -/
  | notANumber (exponent : UnpackedFloat.unpackExponent b = -1#_)
      (fraction : UnpackedFloat.unpackMantissa b ≠ 0#_) : UnpacksTo b .notANumber
  /-- With the least exponent and no fraction, the zero of the sign. -/
  | zero (exponent : UnpackedFloat.unpackExponent b = 0#_)
      (fraction : UnpackedFloat.unpackMantissa b = 0#_) : UnpacksTo b (.zero (signOf b))
  /-- With the least exponent and a fraction, one of the numbers next to zero, which have no
  implicit leading bit. -/
  | subnormal (exponent : UnpackedFloat.unpackExponent b = 0#_)
      (pos : 0 < (UnpackedFloat.unpackMantissa b).toNat) :
      UnpacksTo b (.finite (signOf b) (UnpackedFloat.unpackMantissa b).toNat
        (((UnpackedFloat.unpackExponent b).toNat : Int) - (1023 + 52) + 1) pos)
  /-- With any other exponent, a number with a leading bit in front of the fraction. -/
  | normal (special : UnpackedFloat.unpackExponent b ≠ -1#_)
      (least : UnpackedFloat.unpackExponent b ≠ 0#_)
      (pos : 0 < (1#1 ++ UnpackedFloat.unpackMantissa b).toNat) :
      UnpacksTo b (.finite (signOf b) (1#1 ++ UnpackedFloat.unpackMantissa b).toNat
        (((UnpackedFloat.unpackExponent b).toNat : Int) - (1023 + 52)) pos)

/-- **There are no other kinds**: all bits are unpacked to one of the five. -/
theorem unpacksTo (b : DoubleBits) : UnpacksTo b (UnpackedFloat.unpack .binary64 b) := by
  unfold UnpackedFloat.unpack
  by_cases hspecial : UnpackedFloat.unpackExponent b = -1#_
  · rw [if_pos hspecial]
    by_cases hfraction : UnpackedFloat.unpackMantissa b = 0#_
    · rw [if_pos hfraction]
      exact .infinity hspecial hfraction
    · rw [if_neg hfraction]
      exact .notANumber hspecial hfraction
  · rw [if_neg hspecial]
    by_cases hleast : UnpackedFloat.unpackExponent b = 0#_
    · rw [if_pos hleast]
      by_cases hfraction : UnpackedFloat.unpackMantissa b = 0#_
      · rw [dif_pos hfraction]
        exact .zero hleast hfraction
      · rw [dif_neg hfraction]
        exact .subnormal hleast _
    · rw [if_neg hleast]
      exact .normal hspecial hleast _

/-! ## Packing -/

/-- The leading bit stands in front of the fraction. -/
theorem toNat_one_append (fraction : BitVec 52) :
    (1#1 ++ fraction).toNat = 2 ^ 52 + fraction.toNat := by
  rw [BitVec.toNat_append, ← Nat.shiftLeft_add_eq_or_of_lt fraction.isLt]
  rfl

/-- A significand with a leading bit has 53 bits. -/
theorem log2_one_append (fraction : BitVec 52) : (1#1 ++ fraction).toNat.log2 = 52 := by
  have hlt := fraction.isLt
  have hne : 2 ^ 52 + fraction.toNat ≠ 0 := by omega
  have hge : 52 ≤ (2 ^ 52 + fraction.toNat).log2 := (Nat.le_log2 hne).mpr (by omega)
  have hle : (2 ^ 52 + fraction.toNat).log2 < 53 := (Nat.log2_lt hne).mpr (by omega)
  rw [toNat_one_append]
  omega

/-- The three parts make up the bits, each in its own place. -/
theorem packComponents_parts (b : DoubleBits) :
    UnpackedFloat.packComponents .binary64 (signOf b) (UnpackedFloat.unpackExponent b)
      (UnpackedFloat.unpackMantissa b) = b := by
  have hsign : ∀ v : BitVec 1, (UnpackedFloat.Sign.ofBitVec v).toBitVec = v := by decide
  change (signOf b).toBitVec ++ UnpackedFloat.unpackExponent b ++ UnpackedFloat.unpackMantissa b = b
  rw [signOf, hsign]
  unfold UnpackedFloat.unpackSign UnpackedFloat.unpackExponent UnpackedFloat.unpackMantissa
  refine BitVec.eq_of_getLsbD_eq fun i (hi : i < 64) => ?_
  rw [BitVec.getLsbD_append, BitVec.getLsbD_append, BitVec.getLsbD_cast, BitVec.getLsbD_cast,
    BitVec.getLsbD_cast, BitVec.getLsbD_extractLsb, BitVec.getLsbD_extractLsb,
    BitVec.getLsbD_extractLsb]
  change (if i < 52 then decide (i < 52) && b.getLsbD (0 + i) else
    if i - 52 < 11 then decide (i - 52 < 11) && b.getLsbD (52 + (i - 52)) else
      decide (i - 52 - 11 < 1) && b.getLsbD (63 + (i - 52 - 11))) = b.getLsbD i
  by_cases hfraction : i < 52
  · simp [hfraction]
  · by_cases hexponent : i - 52 < 11
    · have hplace : 52 + (i - 52) = i := by omega
      simp [hfraction, hexponent, hplace]
    · have hlast : i - 52 - 11 < 1 := by omega
      have hplace : 63 + (i - 52 - 11) = i := by omega
      simp [hfraction, hexponent, hlast, hplace]

/-- A finite number keeps its exponent if its significand has a leading bit, and has the least one
otherwise. -/
theorem pack_finite (s : UnpackedFloat.Sign) (m : Nat) (e : Int) (hm : 0 < m) :
    UnpackedFloat.pack .binary64 (.finite s m e hm) =
      if 2 ^ 11 ≤ (e + 1023 + 52).toNat + 1 then UnpackedFloat.packedInfinity .binary64 s
      else if m.log2 + 1 = 53 then
        UnpackedFloat.packComponents .binary64 s (BitVec.ofNat 11 (e + 1023 + 52).toNat)
          (BitVec.ofNat 52 m)
      else UnpackedFloat.packComponents .binary64 s 0#11 (BitVec.ofNat 52 m) := rfl

/-- **Packing what was unpacked** gives the bits back, kind by kind. Where there is a leading bit,
packing drops it from the significand, and it keeps the exponent, which then is neither the greatest
nor the least. -/
theorem pack_unpack {b : DoubleBits} (hb : Format.binary64.Valid b) :
    UnpackedFloat.pack .binary64 (UnpackedFloat.unpack .binary64 b) = b := by
  have hparts := packComponents_parts b
  have hexponent : (UnpackedFloat.unpackExponent b).toNat < 2 ^ 11 :=
    (UnpackedFloat.unpackExponent b).isLt
  have hfraction : (UnpackedFloat.unpackMantissa b).toNat < 2 ^ 52 :=
    (UnpackedFloat.unpackMantissa b).isLt
  have hkind := unpacksTo b
  generalize UnpackedFloat.unpack .binary64 b = u at hkind ⊢
  cases hkind with
  | infinity hspecial hnone =>
    rw [hspecial, hnone] at hparts
    exact hparts
  | notANumber hspecial hsome => exact (hb.eq_packedNaN hspecial hsome).symm
  | zero hleast hnone =>
    rw [hleast, hnone] at hparts
    exact hparts
  | subnormal hleast hpos =>
    have hsmall : ¬ 2 ^ 11 ≤
        (((UnpackedFloat.unpackExponent b).toNat : Int) - (1023 + 52) + 1 + 1023 + 52).toNat + 1 := by
      rw [hleast]
      decide
    have hlog : ¬ (UnpackedFloat.unpackMantissa b).toNat.log2 + 1 = 53 := by
      have := (Nat.log2_lt (k := 52) (Nat.ne_of_gt hpos)).mpr hfraction
      omega
    rw [hleast] at hparts
    rw [pack_finite, if_neg hsmall, if_neg hlog, BitVec.ofNat_toNat]
    exact hparts
  | normal hspecial hleast hpos =>
    have hbiased :
        (((UnpackedFloat.unpackExponent b).toNat : Int) - (1023 + 52) + 1023 + 52).toNat =
          (UnpackedFloat.unpackExponent b).toNat := by omega
    have hsmall : ¬ 2 ^ 11 ≤ (UnpackedFloat.unpackExponent b).toNat + 1 := by
      intro hle
      have hmax : (UnpackedFloat.unpackExponent b).toNat = 2047 := by omega
      exact hspecial (BitVec.eq_of_toNat_eq hmax)
    have hsignificand : BitVec.ofNat 52 (1#1 ++ UnpackedFloat.unpackMantissa b).toNat =
        UnpackedFloat.unpackMantissa b := by
      apply BitVec.eq_of_toNat_eq
      rw [BitVec.toNat_ofNat, toNat_one_append]
      omega
    rw [pack_finite, hbiased, if_neg hsmall, if_pos (by rw [log2_one_append]), BitVec.ofNat_toNat,
      hsignificand]
    exact hparts

/-- **Floats that are unpacked alike are the same**: packing gives the bits of both of them back. -/
theorem eq_of_unpack_eq {x y : Float} (h : x.toModel.unpack = y.toModel.unpack) : x = y := by
  obtain ⟨⟨bits, hx⟩⟩ := x
  obtain ⟨⟨bits', hy⟩⟩ := y
  have hbits : bits.toBitVec = bits'.toBitVec := by
    rw [← pack_unpack hx, ← pack_unpack hy]
    exact congrArg _ h
  obtain rfl : bits = bits' := UInt64.toBitVec_inj.mp hbits
  rfl

end ChartCompiler
