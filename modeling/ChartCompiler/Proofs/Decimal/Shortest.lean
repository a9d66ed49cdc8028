import ChartCompiler.Decimal.Rounding
import ChartCompiler.Proofs.Float.Value

/-!
# The shortest decimal lies in the interval of its float

A float is written as the shortest decimal that reads back as it. What lies in the interval of one
float lies in no other, so two floats are never written as the same decimal.

* `Decimal.value` — the number that a decimal is.
* `Interval.Contains` — **the numbers of an interval**, and `Interval.holds_onGrid_iff`, which says
  that the test on a decimal grid finds these.
* `Decimal.contains_shortest` — **the search succeeds**: the last grid it tries is finer than the
  last bit of any float.
* `Decimal.eq_of_contains` — **the intervals of two floats do not meet**. Where they touch, one of
  the two significands is odd, and the end does not belong to its interval.

The search itself works on natural numbers. It scales the ends of the interval to one unit, and goes
through coarser and finer powers of ten until one of them has a multiple between the ends. It is
given a fixed number of grids, so it has to be shown that this is enough: the first grid is
estimated from the number of bits, and 24 places further on a multiple lies within a quarter of the
last bit. For this the powers of ten and of two are compared, by `10 ^ 3 ≤ 2 ^ 10` and by `2 ^ 33 ≤
10 ^ 10`, which are close enough for all exponents that floats have.

Nothing is said here of the decimal being shortest or nearest; what is proved is that it belongs to
its float and to no other.
-/

namespace ChartCompiler.Decimal

/-- **The number that a decimal is.** -/
def value (d : Decimal) : Rat := d.digits * (10 : Rat) ^ d.exponent

/-- A power with an exponent of either sign as a fraction of two powers with a natural one. The
search counts with the latter. -/
theorem zpow_mul_pow_toNat {b : Rat} (hb : b ≠ 0) (e : Int) :
    b ^ e * b ^ (-e).toNat = b ^ e.toNat := by
  rw [← zpow_natCast, ← zpow_natCast, ← zpow_add₀ hb]
  congr 1
  omega

namespace Interval

variable {i : Interval}

/-! ## The numbers of an interval -/

/-- **A number lies in an interval**, which is counted in units of `1 / unit`. Whether the ends
belong to it is part of the interval. -/
def Contains (i : Interval) (q : Rat) : Prop :=
  if i.closed then i.low ≤ q * i.unit ∧ q * i.unit ≤ i.high
  else i.low < q * i.unit ∧ q * i.unit < i.high

/-- A grid point is compared with a bound alike whether both are scaled to whole numbers or not. -/
theorem onGrid_mul_unit (e : Int) (c : Nat) :
    ((c * (i.onGrid e).unit : Nat) : Rat) =
      (c * (10 : Rat) ^ e * i.unit) * (10 : Rat) ^ (-e).toNat := by
  have hpow := zpow_mul_pow_toNat (b := 10) (by norm_num) e
  calc ((c * (i.onGrid e).unit : Nat) : Rat) = c * (i.unit * (10 : Rat) ^ e.toNat) := by
        simp [onGrid]
    _ = (c * (10 : Rat) ^ e * i.unit) * (10 : Rat) ^ (-e).toNat := by rw [← hpow]; ring

/-- **A point of a decimal grid is in the interval** if the number that it stands for is. The test
compares natural numbers, so both sides are scaled by the powers that the exponent leaves in a
denominator. -/
theorem holds_onGrid_iff {e : Int} {c : Nat} :
    (i.onGrid e).holds c = true ↔ i.Contains (c * (10 : Rat) ^ e) := by
  have hfine : (0 : Rat) < (10 : Rat) ^ (-e).toNat := by positivity
  have hpoint := i.onGrid_mul_unit e c
  have hscale : ∀ n : Nat, ((n * Nat.pow 10 (-e).toNat : Nat) : Rat) =
      (n : Rat) * (10 : Rat) ^ (-e).toNat := fun n => by simp
  unfold holds Contains
  show (if i.closed = true then _ else _) = true ↔ _
  split
  · rw [Bool.and_eq_true, decide_eq_true_eq, decide_eq_true_eq, ← Nat.cast_le (α := Rat),
      ← Nat.cast_le (α := Rat), hpoint]
    show ((i.low * Nat.pow 10 (-e).toNat : Nat) : Rat) ≤ _ ∧
      _ ≤ ((i.high * Nat.pow 10 (-e).toNat : Nat) : Rat) ↔ _
    rw [hscale, hscale, mul_le_mul_iff_left₀ hfine, mul_le_mul_iff_left₀ hfine]
  · rw [Bool.and_eq_true, decide_eq_true_eq, decide_eq_true_eq, ← Nat.cast_lt (α := Rat),
      ← Nat.cast_lt (α := Rat), hpoint]
    show ((i.low * Nat.pow 10 (-e).toNat : Nat) : Rat) < _ ∧
      _ < ((i.high * Nat.pow 10 (-e).toNat : Nat) : Rat) ↔ _
    rw [hscale, hscale, mul_lt_mul_iff_left₀ hfine, mul_lt_mul_iff_left₀ hfine]

/-! ## Picking a grid point -/

/-- The nearer one of two neighbours is one of them. -/
theorem nearer_eq (tie : Tie) (c : Nat) : i.nearer tie c = c ∨ i.nearer tie c = c + 1 := by
  unfold nearer
  cases tie <;> grind

/-- **What is picked is in the interval.** Of the two points next to the value only those that the
test lets through are considered. -/
theorem holds_of_pick? {tie : Tie} {c : Nat} (h : i.pick? tie = some c) : i.holds c = true := by
  unfold pick? at h
  generalize i.value / i.unit = n at h
  cases hn : i.holds n <;> cases hn' : i.holds (n + 1) <;> simp only [hn, hn'] at h
  · cases h
  · rwa [← Option.some.inj h]
  · rwa [← Option.some.inj h]
  · obtain rfl := Option.some.inj h
    rcases nearer_eq (i := i) tie n with heq | heq
    · rwa [heq]
    · rwa [heq]

/-- Something is picked if the grid point below the value is in the interval. -/
theorem exists_pick? (tie : Tie) (h : i.holds (i.value / i.unit) = true) :
    ∃ c, i.pick? tie = some c := by
  unfold pick?
  generalize i.value / i.unit = n at h ⊢
  cases hn' : i.holds (n + 1) <;> simp only [h, hn'] <;> exact ⟨_, rfl⟩

/-- **A grid that is fine enough has a point in the interval**: the one below the value. -/
theorem holds_div_unit (hunit : 0 < i.unit) (hlow : i.low + i.unit ≤ i.value)
    (hhigh : i.value < i.high) : i.holds (i.value / i.unit) = true := by
  have hle : i.value / i.unit * i.unit ≤ i.value := Nat.div_mul_le_self _ _
  have hlt : i.value < i.value / i.unit * i.unit + i.unit := Nat.lt_div_mul_add hunit
  unfold holds
  split <;> simp only [Bool.and_eq_true, decide_eq_true_eq] <;> omega

end Interval

/-! ## The search -/

/-- **The search finds a number of the interval** if one of the grids it tries is fine enough. A
coarser grid may have a point in the interval as well, and then this one is taken. -/
theorem contains_search {i : Interval} {tie : Tie} {tries : Nat} {e : Int} {k : Nat} (hk : k < tries)
    (h : (i.onGrid (e - k)).holds ((i.onGrid (e - k)).value / (i.onGrid (e - k)).unit) = true) :
    i.Contains (search i tie tries e).value := by
  induction tries generalizing e k with
  | zero => exact absurd hk (Nat.not_lt_zero k)
  | succ tries ih =>
    unfold search
    cases hpick : (i.onGrid e).pick? tie with
    | some c => exact Interval.holds_onGrid_iff.mp (Interval.holds_of_pick? hpick)
    | none =>
      cases k with
      | zero =>
        obtain ⟨c, hc⟩ := Interval.exists_pick? tie (by simpa using h)
        rw [hpick] at hc
        cases hc
      | succ k =>
        refine ih (k := k) (Nat.lt_of_succ_lt_succ hk) ?_
        rwa [show e - 1 - (k : Int) = e - ((k + 1 : Nat) : Int) by omega]

/-! ## Powers of ten and of two -/

/-- A power of ten is at most one of two that has ten bits for every three of its places. -/
theorem ten_pow_le_two_pow {k t : Nat} (h : 10 * k ≤ 3 * t) : 10 ^ k ≤ 2 ^ t := by
  -- The third power of ten is a little less than the tenth one of two.
  rw [← Nat.pow_le_pow_iff_left (n := 3) (by decide)]
  calc (10 ^ k) ^ 3 = (10 ^ 3) ^ k := by rw [← Nat.pow_mul, ← Nat.pow_mul, Nat.mul_comm]
    _ ≤ (2 ^ 10) ^ k := Nat.pow_le_pow_left (by decide) k
    _ = 2 ^ (10 * k) := by rw [← Nat.pow_mul]
    _ ≤ 2 ^ (3 * t) := Nat.pow_le_pow_right (by decide) h
    _ = (2 ^ t) ^ 3 := by rw [← Nat.pow_mul, Nat.mul_comm]

/-- A power of two is at most one of ten that has ten places for every 33 of its bits. -/
theorem two_pow_le_ten_pow {t k : Nat} (h : 10 * t ≤ 33 * k) : 2 ^ t ≤ 10 ^ k := by
  -- The tenth power of ten is a little more than the 33rd one of two.
  rw [← Nat.pow_le_pow_iff_left (n := 10) (by decide)]
  calc (2 ^ t) ^ 10 = 2 ^ (10 * t) := by rw [← Nat.pow_mul, Nat.mul_comm]
    _ ≤ 2 ^ (33 * k) := Nat.pow_le_pow_right (by decide) h
    _ = (2 ^ 33) ^ k := by rw [← Nat.pow_mul]
    _ ≤ (10 ^ 10) ^ k := Nat.pow_le_pow_left (by decide) k
    _ = (10 ^ k) ^ 10 := by rw [← Nat.pow_mul, ← Nat.pow_mul, Nat.mul_comm]

/-- **A grid of multiples of `10 ^ e` is finer than `2 ^ t`** if `e` is six less than the logarithm
says, for all exponents that floats have. Both sides are scaled to whole numbers. -/
theorem two_pow_mul_ten_pow_le {t e : Int} (hlow : -1100 ≤ t) (hhigh : t ≤ 1100)
    (h : 100000 * e ≤ 30103 * t - 600000) :
    2 ^ (-t).toNat * 10 ^ e.toNat ≤ 2 ^ t.toNat * 10 ^ (-e).toNat := by
  rcases Int.le_total 0 e with he | he
  · have ht : (-t).toNat = 0 := by omega
    have he' : (-e).toNat = 0 := by omega
    rw [ht, he', Nat.pow_zero, Nat.pow_zero, Nat.one_mul, Nat.mul_one]
    exact ten_pow_le_two_pow (by omega)
  · have he' : e.toNat = 0 := by omega
    rw [he', Nat.pow_zero, Nat.mul_one]
    calc 2 ^ (-t).toNat ≤ 10 ^ (-e).toNat := two_pow_le_ten_pow (by omega)
      _ ≤ 2 ^ t.toNat * 10 ^ (-e).toNat := Nat.le_mul_of_pos_left _ (Nat.two_pow_pos _)

/-! ## The interval of a float -/

section floats

variable {m m' : Nat} {e e' : Int}

/-- How far the interval reaches below its value, in quarters of the last bit. Below a power of two
the floats are twice as close, so the interval ends at half the distance there. -/
def below (m : Nat) (e : Int) : Nat :=
  if m = Dyadic.fractionUnit ∧ Dyadic.leastExponent < e then 1 else 2

/-- Where the search begins: four significands and two quarters fill at most 55 bits, the last of which
stands for `2 ^ (e - 2)`. -/
theorem topExponent_le (h : IsCanonical m e) (hm : 0 < m) :
    100000 * (Interval.ofDyadic ⟨m, e⟩).topExponent ≤ 30103 * (e + 53) + 100000 := by
  have hlt := h.lt
  have hhigh : (Interval.ofDyadic ⟨m, e⟩).high.log2 < 55 + (e - 2).toNat := by
    have hne : (4 * m + 2) * 2 ^ (e - 2).toNat ≠ 0 := by positivity
    refine (Nat.log2_lt hne).mpr ?_
    rw [Nat.pow_add]
    exact Nat.mul_lt_mul_of_pos_right (by omega) (Nat.two_pow_pos _)
  have hunit : (Interval.ofDyadic ⟨m, e⟩).unit.log2 = (2 - e).toNat := Nat.log2_two_pow
  unfold Interval.topExponent
  rw [hunit]
  omega

/-- The last grid that the search tries has a point in the interval. Wherever the search begins,
this grid is at least six places finer than the logarithm of a quarter of the last bit says. -/
theorem holds_lastGrid (h : IsCanonical m e) (hm : 0 < m) (he : e ≤ 971) {top : Int}
    (htop : 100000 * top ≤ 30103 * (e + 53) + 100000) :
    ((Interval.ofDyadic ⟨m, e⟩).onGrid (top - 24)).holds
      (((Interval.ofDyadic ⟨m, e⟩).onGrid (top - 24)).value /
        ((Interval.ofDyadic ⟨m, e⟩).onGrid (top - 24)).unit) = true := by
  have hleast := h.least
  have hgrid := two_pow_mul_ten_pow_le (t := e - 2) (e := top - 24) (by omega) (by omega) (by omega)
  rw [show -(e - 2) = 2 - e by omega] at hgrid
  have hscale : 0 < 2 ^ (e - 2).toNat * 10 ^ (-(top - 24)).toNat := by positivity
  have hbelow : 1 ≤ below m e ∧ below m e ≤ 4 * m := by unfold below; split <;> omega
  refine Interval.holds_div_unit ?_ ?_ ?_
  · show 0 < 2 ^ (2 - e).toNat * 10 ^ (top - 24).toNat
    positivity
  · show (4 * m - below m e) * 2 ^ (e - 2).toNat * 10 ^ (-(top - 24)).toNat +
      2 ^ (2 - e).toNat * 10 ^ (top - 24).toNat ≤
        4 * m * 2 ^ (e - 2).toNat * 10 ^ (-(top - 24)).toNat
    rw [Nat.mul_assoc, Nat.mul_assoc (4 * m)]
    generalize 2 ^ (e - 2).toNat * 10 ^ (-(top - 24)).toNat = scale at hgrid ⊢
    calc (4 * m - below m e) * scale + 2 ^ (2 - e).toNat * 10 ^ (top - 24).toNat
        ≤ (4 * m - below m e) * scale + below m e * scale :=
          Nat.add_le_add_left (hgrid.trans (Nat.le_mul_of_pos_left _ hbelow.1)) _
      _ = 4 * m * scale := by rw [← Nat.add_mul, Nat.sub_add_cancel hbelow.2]
  · show 4 * m * 2 ^ (e - 2).toNat * 10 ^ (-(top - 24)).toNat <
      (4 * m + 2) * 2 ^ (e - 2).toNat * 10 ^ (-(top - 24)).toNat
    rw [Nat.mul_assoc, Nat.mul_assoc (4 * m + 2)]
    exact Nat.mul_lt_mul_of_pos_right (by omega) hscale

/-- **The shortest decimal of a float lies in its interval**, for every float that is not zero and
either rule for ties. -/
theorem contains_shortest (h : IsCanonical m e) (hm : 0 < m) (he : e ≤ 971) (tie : Tie) :
    (Interval.ofDyadic ⟨m, e⟩).Contains (shortest tie ⟨m, e⟩).value :=
  contains_search (k := 24) (by decide) (holds_lastGrid h hm he (topExponent_le h hm))

/-! ## Two floats -/

/-- **The interval of a float, in quarters of its last bit.** The ends do not belong to it if the
significand is odd. -/
theorem bounds_of_contains {q : Rat} (h : (Interval.ofDyadic ⟨m, e⟩).Contains q) :
    ((4 * m - below m e : Nat) : Rat) ≤ q * (2 : Rat) ^ (2 - e) ∧
      q * (2 : Rat) ^ (2 - e) ≤ ((4 * m + 2 : Nat) : Rat) ∧
      (m % 2 = 1 → ((4 * m - below m e : Nat) : Rat) < q * (2 : Rat) ^ (2 - e) ∧
        q * (2 : Rat) ^ (2 - e) < ((4 * m + 2 : Nat) : Rat)) := by
  have hpos : (0 : Rat) < (2 : Rat) ^ (e - 2).toNat := by positivity
  have hscale : ∀ n : Nat, ((n * Nat.pow 2 (e - 2).toNat : Nat) : Rat) =
      (n : Rat) * (2 : Rat) ^ (e - 2).toNat := fun n => by simp
  have hunit : q * ((Nat.pow 2 (2 - e).toNat : Nat) : Rat) =
      q * (2 : Rat) ^ (2 - e) * (2 : Rat) ^ (e - 2).toNat := by
    have hpow := zpow_mul_pow_toNat (b := 2) (by norm_num) (2 - e)
    rw [show -(2 - e) = e - 2 by omega] at hpow
    rw [mul_assoc, hpow]
    simp
  have hread : if m % 2 = 0 then
      ((4 * m - below m e : Nat) : Rat) ≤ q * (2 : Rat) ^ (2 - e) ∧
        q * (2 : Rat) ^ (2 - e) ≤ ((4 * m + 2 : Nat) : Rat)
      else ((4 * m - below m e : Nat) : Rat) < q * (2 : Rat) ^ (2 - e) ∧
        q * (2 : Rat) ^ (2 - e) < ((4 * m + 2 : Nat) : Rat) := by
    have hcontains : if decide (m % 2 = 0) = true then
        (((4 * m - below m e) * Nat.pow 2 (e - 2).toNat : Nat) : Rat) ≤
            q * ((Nat.pow 2 (2 - e).toNat : Nat) : Rat) ∧
          q * ((Nat.pow 2 (2 - e).toNat : Nat) : Rat) ≤
            (((4 * m + 2) * Nat.pow 2 (e - 2).toNat : Nat) : Rat)
        else (((4 * m - below m e) * Nat.pow 2 (e - 2).toNat : Nat) : Rat) <
            q * ((Nat.pow 2 (2 - e).toNat : Nat) : Rat) ∧
          q * ((Nat.pow 2 (2 - e).toNat : Nat) : Rat) <
            (((4 * m + 2) * Nat.pow 2 (e - 2).toNat : Nat) : Rat) := h
    rw [hscale, hscale, hunit, mul_le_mul_iff_left₀ hpos, mul_le_mul_iff_left₀ hpos,
      mul_lt_mul_iff_left₀ hpos, mul_lt_mul_iff_left₀ hpos] at hcontains
    simpa using hcontains
  split at hread
  · next heven => exact ⟨hread.1, hread.2, fun hodd => by omega⟩
  · exact ⟨hread.1.le, hread.2.le, fun _ => hread⟩

/-- With the same exponent, the interval of the smaller significand lies below the other. They touch
if the significands are neighbours, but then one of these is odd. -/
theorem not_contains_of_lt (hlt : m < m') {q : Rat}
    (h : (Interval.ofDyadic ⟨m, e⟩).Contains q) (h' : (Interval.ofDyadic ⟨m', e⟩).Contains q) :
    False := by
  obtain ⟨-, hhigh, hodd⟩ := bounds_of_contains h
  obtain ⟨hlow', -, hodd'⟩ := bounds_of_contains h'
  have hbelow : below m' e ≤ 2 := by unfold below; split <;> omega
  have hle : 4 * m' - below m' e ≤ 4 * m + 2 := by exact_mod_cast hlow'.trans hhigh
  -- The two intervals can only touch where one of two neighbouring significands is odd.
  have htouch : m' = m + 1 ∧ 4 * m' - below m' e = 4 * m + 2 := by omega
  rcases Nat.mod_two_eq_zero_or_one m with heven | hmod
  · have hstrict := (hodd' (by omega)).1.trans_le hhigh
    rw [htouch.2] at hstrict
    exact lt_irrefl _ hstrict
  · have hstrict := hlow'.trans_lt (hodd hmod).2
    rw [htouch.2] at hstrict
    exact lt_irrefl _ hstrict

/-- The interval of a float with a smaller exponent lies below the other, too. -/
theorem not_contains_of_exponent_lt (h : IsCanonical m e) (h' : IsCanonical m' e') (hlt : e < e')
    {q : Rat} (hq : (Interval.ofDyadic ⟨m, e⟩).Contains q)
    (hq' : (Interval.ofDyadic ⟨m', e'⟩).Contains q) : False := by
  obtain ⟨k, hk⟩ := Int.le.dest (Int.add_one_le_of_lt hlt)
  obtain ⟨-, hhigh, hodd⟩ := bounds_of_contains hq
  obtain ⟨hlow', -, -⟩ := bounds_of_contains hq'
  have hm := h.lt
  have hleast := h.least
  have hfull : 2 ^ 52 ≤ m' := by
    rcases h'.le_or_least with hfull | hleast'
    · exact hfull
    · omega
  have hbottom : 2 ^ 54 ≤ 4 * m' - below m' e' + 1 := by
    unfold below
    split
    · omega
    · next hnot =>
      have hne : m' ≠ 2 ^ 52 := fun heq => hnot ⟨heq, by
        show (-1074 : Int) < e'
        omega⟩
      omega
  -- Measured in the smaller bits, the bottom of the greater interval is at least twice as high.
  have hdouble : q * (2 : Rat) ^ (2 - e) = q * (2 : Rat) ^ (2 - e') * 2 ^ (k + 1) := by
    rw [mul_assoc, ← zpow_natCast, ← zpow_add₀ (by norm_num)]
    congr 2
    push_cast
    omega
  have hlower : (2 ^ 55 - 2 : Rat) ≤ q * (2 : Rat) ^ (2 - e) := by
    have hcast : (2 ^ 54 : Rat) ≤ ((4 * m' - below m' e' : Nat) : Rat) + 1 := by
      exact_mod_cast hbottom
    have hpow : (2 : Rat) ≤ 2 ^ (k + 1) := by
      rw [pow_succ]
      linarith [one_le_pow₀ (n := k) (by norm_num : (1 : Rat) ≤ 2)]
    rw [hdouble]
    have hge : (2 ^ 54 - 1 : Rat) ≤ q * (2 : Rat) ^ (2 - e') := by linarith
    calc (2 ^ 55 - 2 : Rat) = (2 ^ 54 - 1) * 2 := by norm_num
      _ ≤ q * (2 : Rat) ^ (2 - e') * 2 ^ (k + 1) := by gcongr
  -- The top of the smaller one is not above that, and belongs to its interval if it is below.
  rcases Nat.mod_two_eq_zero_or_one m with heven | hmod
  · have hle : ((4 * m + 2 : Nat) : Rat) + 4 < 2 ^ 55 := by
      have : 4 * m + 2 + 4 < 2 ^ 55 := by omega
      exact_mod_cast this
    linarith
  · have hle : ((4 * m + 2 : Nat) : Rat) + 2 ≤ 2 ^ 55 := by
      have : 4 * m + 2 + 2 ≤ 2 ^ 55 := by omega
      exact_mod_cast this
    linarith [(hodd hmod).2]

/-- **A number lies in the interval of one float only.** A float with a smaller exponent is smaller,
and so is one with the same exponent and a smaller significand. -/
theorem eq_of_contains (h : IsCanonical m e) (h' : IsCanonical m' e') {q : Rat}
    (hq : (Interval.ofDyadic ⟨m, e⟩).Contains q) (hq' : (Interval.ofDyadic ⟨m', e'⟩).Contains q) :
    m = m' ∧ e = e' := by
  rcases lt_trichotomy e e' with hlt | rfl | hlt
  · exact (not_contains_of_exponent_lt h h' hlt hq hq').elim
  · rcases lt_trichotomy m m' with hlt | rfl | hlt
    · exact (not_contains_of_lt hlt hq hq').elim
    · exact ⟨rfl, rfl⟩
    · exact (not_contains_of_lt hlt hq' hq).elim
  · exact (not_contains_of_exponent_lt h' h hlt hq' hq).elim

/-- The interval of a float holds positive numbers only. -/
theorem pos_of_contains (hm : 0 < m) {q : Rat} (h : (Interval.ofDyadic ⟨m, e⟩).Contains q) :
    0 < q := by
  obtain ⟨hlow, -, -⟩ := bounds_of_contains h
  have hbelow : below m e ≤ 2 := by unfold below; split <;> omega
  have hlt : (0 : Rat) < ((4 * m - below m e : Nat) : Rat) := by
    have : 0 < 4 * m - below m e := by omega
    exact_mod_cast this
  exact pos_of_mul_pos_left (hlt.trans_le hlow) (by positivity)

end floats

end ChartCompiler.Decimal
