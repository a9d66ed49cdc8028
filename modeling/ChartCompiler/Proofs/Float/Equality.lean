import ChartCompiler.Proofs.Float.Unpacking

/-!
# Equality of floats

Floats are compared as numbers, not bit by bit: the two zeros are equal, and what is not a number is
equal to nothing, itself included.

* `float_beq_iff` — **when two floats are equal**: both are zeros, or they are the same number.
* `eq_of_float_beq` — equal floats that are not zeros are the same.
* `PartialEquivBEq Float` — so equality is symmetric and transitive, though not reflexive.

The comparison is made on unpacked floats, kind by kind. That floats which are unpacked alike are
the same is `eq_of_unpack_eq`.
-/

namespace ChartCompiler

open Float.Model

/-- Finite unpacked floats compare as equal when they agree in every part. Signs are compared first,
then exponents, then significands; for negative floats the outcome is turned round, which leaves
equality as it is. -/
theorem compare_finite_eq_iff (s s' : UnpackedFloat.Sign) (m m' : Nat) (e e' : Int) (hm : 0 < m)
    (hm' : 0 < m') :
    (UnpackedFloat.finite s m e hm).compare (.finite s' m' e' hm') = some .eq ↔
      s = s' ∧ m = m' ∧ e = e' := by
  cases s with
  | negative =>
    cases s' with
    | negative =>
      change some ((compare e e').then (compare m m')).swap = some .eq ↔ _
      simp [Ordering.then_eq_eq, and_comm]
    | positive =>
      change some Ordering.lt = some .eq ↔ _
      simp
  | positive =>
    cases s' with
    | negative =>
      change some Ordering.gt = some .eq ↔ _
      simp
    | positive =>
      change some ((compare e e').then (compare m m')) = some .eq ↔ _
      simp [Ordering.then_eq_eq, and_comm]

/-- Unpacked floats compare as equal exactly when both are zeros or they are the same number. -/
theorem compare_eq_some_eq_iff (a b : UnpackedFloat) :
    a.compare b = some .eq ↔
      (∃ s s', a = .zero s ∧ b = .zero s') ∨ (a = b ∧ a ≠ .notANumber) := by
  constructor
  · intro h
    cases a with
    | notANumber => cases h
    | infinity s =>
      cases b with
      | infinity s' => cases s <;> cases s' <;> first | exact .inr ⟨rfl, nofun⟩ | cases h
      | notANumber => cases h
      | zero s' => cases s <;> cases h
      | finite s' => cases s <;> cases h
    | zero s =>
      cases b with
      | zero s' => exact .inl ⟨s, s', rfl, rfl⟩
      | notANumber => cases h
      | infinity s' => cases s' <;> cases h
      | finite s' => cases s' <;> cases h
    | finite s m e hm =>
      cases b with
      | finite s' m' e' hm' =>
        obtain ⟨rfl, rfl, rfl⟩ := (compare_finite_eq_iff s s' m m' e e' hm hm').mp h
        exact .inr ⟨rfl, nofun⟩
      | notANumber => cases h
      | zero s' => cases s <;> cases h
      | infinity s' => cases s' <;> cases h
  · rintro (⟨s, s', rfl, rfl⟩ | ⟨rfl, hnumber⟩)
    · rfl
    · cases a with
      | notANumber => exact absurd rfl hnumber
      | infinity s => cases s <;> rfl
      | zero s => rfl
      | finite s m e hm => exact (compare_finite_eq_iff s s m m e e hm hm).mpr ⟨rfl, rfl, rfl⟩

/-- **When two floats are equal**: both are unpacked to a zero of some sign, or they are unpacked
alike, and not to what is no number. -/
theorem float_beq_iff (a b : Float) :
    (a == b) = true ↔
      (∃ s s', a.toModel.unpack = .zero s ∧ b.toModel.unpack = .zero s') ∨
        (a.toModel.unpack = b.toModel.unpack ∧ a.toModel.unpack ≠ .notANumber) := by
  rw [← compare_eq_some_eq_iff]
  show (a.toModel.unpack.compare b.toModel.unpack == some .eq) = true ↔ _
  exact beq_iff_eq

/-- The floats that are equal to zero are the zeros of either sign. -/
theorem float_beq_zero_iff (a : Float) :
    (a == 0) = true ↔ ∃ s, a.toModel.unpack = .zero s := by
  have hzero : (0 : Float).toModel.unpack = .zero .positive := rfl
  rw [float_beq_iff, hzero]
  constructor
  · rintro (⟨s, -, ha, -⟩ | ⟨ha, -⟩)
    · exact ⟨s, ha⟩
    · exact ⟨.positive, ha⟩
  · rintro ⟨s, ha⟩
    exact .inl ⟨s, .positive, ha, rfl⟩

/-- **Equal floats are the same**, unless they are zeros. -/
theorem eq_of_float_beq {a b : Float} (h : (a == b) = true) (hzero : (b == 0) = false) : a = b := by
  rcases (float_beq_iff a b).mp h with ⟨-, s, -, hb⟩ | ⟨hab, -⟩
  · rw [(float_beq_zero_iff b).mpr ⟨s, hb⟩] at hzero
    cases hzero
  · exact eq_of_unpack_eq hab

/-- **Equality of floats is symmetric and transitive.** It is not reflexive, so it is an equivalence
only among the floats that are numbers. -/
instance floatPartialEquiv : PartialEquivBEq Float where
  symm {a b} h := by
    rw [float_beq_iff] at h ⊢
    rcases h with ⟨s, s', ha, hb⟩ | ⟨hab, ha⟩
    · exact .inl ⟨s', s, hb, ha⟩
    · exact .inr ⟨hab.symm, hab ▸ ha⟩
  trans {a b c} h h' := by
    rw [float_beq_iff] at h h' ⊢
    rcases h with ⟨s, s', ha, hb⟩ | ⟨hab, ha⟩
    · rcases h' with ⟨t, t', hb', hc⟩ | ⟨hbc, -⟩
      · exact .inl ⟨s, t', ha, hc⟩
      · exact .inl ⟨s, s', ha, hbc ▸ hb⟩
    · rcases h' with ⟨t, t', hb, hc⟩ | ⟨hbc, -⟩
      · exact .inl ⟨t, t', hab.trans hb, hc⟩
      · exact .inr ⟨hab.trans hbc, ha⟩

end ChartCompiler
