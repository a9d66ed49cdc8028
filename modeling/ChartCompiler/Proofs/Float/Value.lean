import ChartCompiler.Proofs.Float.Equality
import Mathlib.Algebra.Order.Field.Rat
import Mathlib.Algebra.Order.Field.Power
import Mathlib.Tactic.Linarith
import Mathlib.Tactic.Positivity
import Mathlib.Tactic.Ring

/-!
# Values of floats

* `exactValue?` — **the number that a finite float is**, as a fraction.
* `IsCanonical` — the form that floats are kept in: the significand of a finite float has 53 bits
  unless its exponent is the least one, so a number has one significand and one exponent only.
* `beq_iff_exactValue?_eq` — **finite floats are equal exactly when they are the same number**.

So what a computation does with floats that it only compares can be said in terms of numbers. Sums
and products, which are rounded, are no subject of this module.
-/

namespace ChartCompiler

open Float.Model

/-! ## The value of a float -/

/-- The number that an unpacked float is, unless it is no number or infinite. Both zeros are the
number zero. -/
def unpackedValue? : UnpackedFloat → Option Rat
  | .finite s m e _ => some ((s.apply (m : Int) : Int) * (2 : Rat) ^ e)
  | .zero _ => some 0
  | _ => none

/-- **The number that a finite float is.** -/
def exactValue? (x : Float) : Option Rat := unpackedValue? x.toModel.unpack

/-! ## Significands and exponents -/

/-- A significand and an exponent in the form that floats are kept in. -/
structure IsCanonical (m : Nat) (e : Int) : Prop where
  /-- The significand has at most 53 bits. -/
  lt : m < 2 ^ 53
  /-- The exponent is not less than that of the least float. -/
  least : -1074 ≤ e
  /-- The significand has a leading bit, unless the exponent is the least one. -/
  le_or_least : 2 ^ 52 ≤ m ∨ e = -1074

/-- The least floats are in this form without a leading bit, since their exponent is the least
one. -/
theorem isCanonical_subnormal {exponent : BitVec 11} (fraction : BitVec 52) (h : exponent = 0) :
    IsCanonical fraction.toNat ((exponent.toNat : Int) - (1023 + 52) + 1) := by
  rw [h]
  have := fraction.isLt
  exact ⟨by omega, by decide, .inr (by decide)⟩

/-- All other floats are in this form, with a leading bit. -/
theorem isCanonical_normal {exponent : BitVec 11} (fraction : BitVec 52) (h : exponent ≠ 0) :
    IsCanonical (1#1 ++ fraction).toNat ((exponent.toNat : Int) - (1023 + 52)) := by
  have hpos : 0 < exponent.toNat := by
    rw [Nat.pos_iff_ne_zero]
    exact fun hzero => h (BitVec.eq_of_toNat_eq hzero)
  have := fraction.isLt
  rw [toNat_one_append]
  exact ⟨by omega, by omega, .inl (by omega)⟩

/-- **A float is unpacked into the form it is kept in.** -/
theorem isCanonical_of_unpack {b : DoubleBits} {s : UnpackedFloat.Sign} {m : Nat} {e : Int}
    {hm : 0 < m} (h : UnpackedFloat.unpack .binary64 b = .finite s m e hm) : IsCanonical m e := by
  have hkind := unpacksTo b
  rw [h] at hkind
  cases hkind with
  | subnormal hleast => exact isCanonical_subnormal _ hleast
  | normal _ hleast => exact isCanonical_normal _ hleast

/-- **A number has one significand and one exponent only.** Of two exponents the smaller one would
leave a significand of at least twice the other. -/
theorem IsCanonical.eq_of_mul_zpow_eq {m m' : Nat} {e e' : Int} (h : IsCanonical m e)
    (h' : IsCanonical m' e') (hm : 0 < m) (hle : e ≤ e')
    (heq : (m : Rat) * (2 : Rat) ^ e = (m' : Rat) * (2 : Rat) ^ e') : m = m' ∧ e = e' := by
  obtain ⟨k, rfl⟩ := Int.le.dest hle
  have hne : (2 : Rat) ^ e ≠ 0 := by positivity
  have hscaled : m = m' * 2 ^ k := by
    rw [zpow_add₀ (by norm_num), mul_left_comm, mul_comm (m : Rat)] at heq
    have := mul_left_cancel₀ hne heq
    exact_mod_cast this
  cases k with
  | zero => exact ⟨by simpa using hscaled, by simp⟩
  | succ k =>
    have hdouble : 2 * m' ≤ m := by
      calc 2 * m' ≤ 2 ^ k * (2 * m') := Nat.le_mul_of_pos_left _ (Nat.two_pow_pos k)
        _ = m := by rw [hscaled, Nat.pow_succ]; ring
    have hlt := h.lt
    have hleast := h.least
    rcases h'.le_or_least with hfull | hleast'
    · omega
    · omega

/-! ## Equality of values -/

/-- Finite floats with the same value have the same sign, significand and exponent. Values with
different signs lie on different sides of zero. -/
theorem finite_eq_of_value_eq {s s' : UnpackedFloat.Sign} {m m' : Nat} {e e' : Int}
    (h : IsCanonical m e) (h' : IsCanonical m' e') (hm : 0 < m) (hm' : 0 < m')
    (heq : ((s.apply (m : Int) : Int) : Rat) * (2 : Rat) ^ e =
      ((s'.apply (m' : Int) : Int) : Rat) * (2 : Rat) ^ e') : s = s' ∧ m = m' ∧ e = e' := by
  have hpos : (0 : Rat) < m * (2 : Rat) ^ e := by positivity
  have hpos' : (0 : Rat) < m' * (2 : Rat) ^ e' := by positivity
  have hsame : (m : Rat) * (2 : Rat) ^ e = m' * (2 : Rat) ^ e' → m = m' ∧ e = e' := by
    intro hvalue
    rcases Int.le_total e e' with hle | hle
    · exact h.eq_of_mul_zpow_eq h' hm hle hvalue
    · have := h'.eq_of_mul_zpow_eq h hm' hle hvalue.symm
      exact ⟨this.1.symm, this.2.symm⟩
  cases s with
  | positive =>
    cases s' with
    | positive => exact ⟨rfl, hsame (by simpa [UnpackedFloat.Sign.apply] using heq)⟩
    | negative =>
      simp only [UnpackedFloat.Sign.apply, Int.cast_neg, Int.cast_natCast, neg_mul] at heq
      linarith
  | negative =>
    simp only [UnpackedFloat.Sign.apply, Int.cast_neg, Int.cast_natCast, neg_mul] at heq
    cases s' with
    | positive =>
      simp only [Int.cast_natCast] at heq
      linarith
    | negative =>
      simp only [Int.cast_neg, Int.cast_natCast, neg_mul, neg_inj] at heq
      exact ⟨rfl, hsame heq⟩

/-- A finite unpacked float is not zero. -/
theorem value_finite_ne_zero (s : UnpackedFloat.Sign) {m : Nat} (e : Int) (hm : 0 < m) :
    ((s.apply (m : Int) : Int) : Rat) * (2 : Rat) ^ e ≠ 0 := by
  refine mul_ne_zero ?_ (by positivity)
  cases s <;> simp [UnpackedFloat.Sign.apply, hm.ne']

/-- **Finite floats are equal exactly when they are the same number.** Only one of the two is
assumed to be finite, since a float is not equal to what is infinite or no number unless it is so
itself. -/
theorem beq_iff_exactValue?_eq {x y : Float} {q : Rat} (hx : exactValue? x = some q) :
    (x == y) = true ↔ exactValue? y = some q := by
  rw [float_beq_iff]
  unfold exactValue? at hx ⊢
  constructor
  · rintro (⟨s, s', hux, huy⟩ | ⟨heq, -⟩)
    · rw [hux] at hx
      rw [huy]
      exact hx
    · rw [← heq]
      exact hx
  · intro hy
    -- Infinite floats and what is no number have no value; of the rest only zeros have the value 0.
    cases hux : x.toModel.unpack with
    | notANumber => rw [hux] at hx; cases hx
    | infinity s => rw [hux] at hx; cases hx
    | zero s =>
      rw [hux] at hx
      cases huy : y.toModel.unpack with
      | notANumber => rw [huy] at hy; cases hy
      | infinity s' => rw [huy] at hy; cases hy
      | zero s' => exact .inl ⟨s, s', rfl, rfl⟩
      | finite s' m' e' hm' =>
        rw [huy] at hy
        exact absurd (Option.some.inj (hy.trans hx.symm)) (value_finite_ne_zero s' e' hm')
    | finite s m e hm =>
      rw [hux] at hx
      cases huy : y.toModel.unpack with
      | notANumber => rw [huy] at hy; cases hy
      | infinity s' => rw [huy] at hy; cases hy
      | zero s' =>
        rw [huy] at hy
        exact absurd (Option.some.inj (hx.trans hy.symm)) (value_finite_ne_zero s e hm)
      | finite s' m' e' hm' =>
        rw [huy] at hy
        obtain ⟨rfl, rfl, rfl⟩ := finite_eq_of_value_eq (isCanonical_of_unpack hux)
          (isCanonical_of_unpack huy) hm hm' (Option.some.inj (hx.trans hy.symm))
        exact .inr ⟨rfl, nofun⟩

end ChartCompiler
