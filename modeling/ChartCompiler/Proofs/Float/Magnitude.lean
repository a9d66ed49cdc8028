import ChartCompiler.Decimal.Rounding
import ChartCompiler.Proofs.Float.Value

/-!
# Signs and magnitudes of floats

Numbers are written from the bits of a float. What is read off these bits are the parts that the
float is unpacked to.

* `FloatParts` — **the sign and the magnitude of a finite float**; a zero has no magnitude.
* `floatParts` — every finite float has them, in the form that floats are kept in.
* `eq_of_ofFloat?_eq` — **a finite float is known by its sign and its magnitude**.

`Dyadic.isNegative` and `Dyadic.ofFloat?` compute with quotients and remainders of the bits as one
natural number; unpacking takes ranges of bits. The two are brought together first, part by part.
-/

namespace ChartCompiler

open Float.Model

/-! ## The parts of the bits -/

/-- The exponent as a quotient and remainder of the bits. -/
theorem toNat_unpackExponent (b : DoubleBits) :
    (UnpackedFloat.unpackExponent b).toNat = b.toNat / 2 ^ 52 % 2048 := by
  show (BitVec.extractLsb 62 52 b).toNat = _
  rw [BitVec.extractLsb_toNat, Nat.shiftRight_eq_div_pow]

/-- The fraction as a remainder of the bits. -/
theorem toNat_unpackMantissa (b : DoubleBits) :
    (UnpackedFloat.unpackMantissa b).toNat = b.toNat % 2 ^ 52 := by
  show (BitVec.extractLsb 51 0 b).toNat = _
  rw [BitVec.extractLsb_toNat]
  rfl

/-- The sign as a quotient of the bits. -/
theorem toNat_unpackSign (b : DoubleBits) :
    (UnpackedFloat.unpackSign b).toNat = b.toNat / 2 ^ 63 := by
  have hlt : b.toNat < 2 ^ 64 := b.isLt
  show (BitVec.extractLsb 63 63 b).toNat = _
  rw [BitVec.extractLsb_toNat, Nat.shiftRight_eq_div_pow]
  omega

/-- The bits of a float. -/
def bitsOf (x : Float) : DoubleBits := x.toModel.toBits.toBitVec

/-- The bits of a float are unpacked as the float is. -/
theorem unpacksTo_bitsOf (x : Float) : UnpacksTo (bitsOf x) x.toModel.unpack := unpacksTo _

/-- **A float carries a minus sign** if it is unpacked with one. -/
theorem isNegative_iff (x : Float) :
    Dyadic.isNegative x = true ↔ signOf (bitsOf x) = .negative := by
  have hone : ∀ v : BitVec 1, v.toNat = 1 ↔ v ≠ 0#1 := by decide
  show decide ((bitsOf x).toNat / 2 ^ 63 = 1) = true ↔ _
  rw [decide_eq_true_eq, ← toNat_unpackSign, hone]
  unfold signOf UnpackedFloat.Sign.ofBitVec
  split <;> simp_all

/-- The magnitude that the bits of a float give, in terms of its exponent and its fraction. -/
theorem ofFloat?_eq (x : Float) :
    Dyadic.ofFloat? x =
      if (UnpackedFloat.unpackExponent (bitsOf x)).toNat = 2047 then none
      else if (UnpackedFloat.unpackExponent (bitsOf x)).toNat = 0 then
        if (UnpackedFloat.unpackMantissa (bitsOf x)).toNat = 0 then none
        else some ⟨(UnpackedFloat.unpackMantissa (bitsOf x)).toNat, -1074⟩
      else some ⟨2 ^ 52 + (UnpackedFloat.unpackMantissa (bitsOf x)).toNat,
        -1074 + (UnpackedFloat.unpackExponent (bitsOf x)).toNat - 1⟩ := by
  rw [toNat_unpackExponent, toNat_unpackMantissa]
  rfl

/-! ## Finite floats -/

/-- **The sign and the magnitude of a finite float.** Both are given twice, as parts of the unpacked
float and as they are read off the bits. -/
inductive FloatParts (x : Float) : Prop
  /-- A zero has a sign and no magnitude. -/
  | zero (sign : UnpackedFloat.Sign) (unpacked : x.toModel.unpack = .zero sign)
      (negative : Dyadic.isNegative x = true ↔ sign = .negative)
      (magnitude : Dyadic.ofFloat? x = none)
  /-- Any other finite float has a sign, a significand and an exponent. They are in the form that
  floats are kept in, and the exponent is no greater than that of the greatest float. -/
  | finite (sign : UnpackedFloat.Sign) (m : Nat) (e : Int) (pos : 0 < m)
      (unpacked : x.toModel.unpack = .finite sign m e pos)
      (negative : Dyadic.isNegative x = true ↔ sign = .negative)
      (magnitude : Dyadic.ofFloat? x = some ⟨m, e⟩) (canonical : IsCanonical m e)
      (le : e ≤ 971)

/-- **Every finite float has a sign and a magnitude.** The cases are the kinds of unpacked floats;
those that are infinite or no number are not finite. -/
theorem floatParts {x : Float} (h : x.isFinite = true) : FloatParts x := by
  have hfinite : x.toModel.unpack.isFinite = true := h
  have hnegative := isNegative_iff x
  have hmagnitude := ofFloat?_eq x
  have hexponent : (UnpackedFloat.unpackExponent (bitsOf x)).toNat < 2 ^ 11 :=
    (UnpackedFloat.unpackExponent (bitsOf x)).isLt
  cases hunpack : x.toModel.unpack with
  | notANumber => rw [hunpack] at hfinite; cases hfinite
  | infinity _ => rw [hunpack] at hfinite; cases hfinite
  | zero s =>
    have hkind := unpacksTo_bitsOf x
    rw [hunpack] at hkind
    cases hkind with
    | zero hleast hnone =>
      rw [hleast, hnone] at hmagnitude
      exact .zero _ hunpack hnegative hmagnitude
  | finite s m e hm =>
    have hcanonical := isCanonical_of_unpack hunpack
    have hkind := unpacksTo_bitsOf x
    rw [hunpack] at hkind
    cases hkind with
    | subnormal hleast =>
      rw [hleast, if_neg (by decide), if_pos (by decide), if_neg (Nat.ne_of_gt hm)] at hmagnitude
      refine .finite _ _ _ hm hunpack hnegative ?_ hcanonical ?_ <;> rw [hleast]
      · exact hmagnitude
      · decide
    | normal hspecial hleast =>
      have hne : (UnpackedFloat.unpackExponent (bitsOf x)).toNat ≠ 2047 :=
        fun heq => hspecial (BitVec.eq_of_toNat_eq heq)
      have hpos : (UnpackedFloat.unpackExponent (bitsOf x)).toNat ≠ 0 :=
        fun heq => hleast (BitVec.eq_of_toNat_eq heq)
      rw [if_neg hne, if_neg hpos] at hmagnitude
      refine .finite _ _ _ hm hunpack hnegative ?_ hcanonical (by omega)
      rw [hmagnitude, toNat_one_append]
      congr 2
      omega

/-- **A finite float is known by its sign and its magnitude**, which decide how it is unpacked. -/
theorem eq_of_ofFloat?_eq {x y : Float} (hx : x.isFinite = true) (hy : y.isFinite = true)
    (hnegative : Dyadic.isNegative x = Dyadic.isNegative y)
    (hmagnitude : Dyadic.ofFloat? x = Dyadic.ofFloat? y) : x = y := by
  have hsign : ∀ {s s' : UnpackedFloat.Sign}, (Dyadic.isNegative x = true ↔ s = .negative) →
      (Dyadic.isNegative y = true ↔ s' = .negative) → s = s' := by
    intro s s' hs hs'
    rw [hnegative, hs'] at hs
    cases s <;> cases s' <;> simp_all
  apply eq_of_unpack_eq
  cases floatParts hx with
  | zero s hux hnx hmx =>
    cases floatParts hy with
    | zero s' huy hny hmy =>
      rw [hux, huy, hsign hnx hny]
    | finite s' m' e' hm' huy hny hmy =>
      rw [hmx, hmy] at hmagnitude
      cases hmagnitude
  | finite s m e hm hux hnx hmx =>
    cases floatParts hy with
    | zero s' huy hny hmy =>
      rw [hmx, hmy] at hmagnitude
      cases hmagnitude
    | finite s' m' e' hm' huy hny hmy =>
      rw [hmx, hmy, Option.some.injEq, Dyadic.mk.injEq] at hmagnitude
      obtain ⟨rfl, rfl⟩ := hmagnitude
      rw [hux, huy, hsign hnx hny]

end ChartCompiler
