import ChartCompiler.Proofs.Float.Value
import ChartCompiler.Reference.Interpolation

/-!
# Weights of interpolated positions

A place between two endpoints is a sum of both. Read directly, an endpoint has all the weight;
otherwise the weights are the two factors that the expression writes out.

* `Place.Weighs` — **the weights of a place**, as exact fractions.
* `Place.weighs_ofBand_iff` — **a band gives the place that lies so far from start to end only at
  the start, in the middle and at the end**. Anywhere else the written sum gives the start the
  weight that the end should have: the place lies so far from end to start.
* `weighs_interpolate_iff` — the same of the reference to an interval.

A band is taken for the fraction that its float is. What is missing from it to 1 is computed in
floats and may be rounded; in the middle it is not, and everywhere else the weight of the start
decides already.
-/

namespace ChartCompiler

namespace Place

/-- **The weights of a place** between two endpoints, first that of the start and then that of the
end. -/
inductive Weighs (start stop : Endpoint) : Place → Rat → Rat → Prop
  /-- The start read directly. -/
  | start : Weighs start stop (.direct start) 1 0
  /-- The end read directly. -/
  | stop : Weighs start stop (.direct stop) 0 1
  /-- The sum of both, with the factors that are written out. -/
  | between {a b : Float} {x y : Rat} (startWeight : exactValue? a = some x)
      (endWeight : exactValue? b = some y) :
      Weighs start stop
        (.between { startWeight := a, start := start, endWeight := b, stop := stop }) x y

/-! ## The place of a band -/

section ofBand

variable {band : Float} {b : Rat} (hb : exactValue? band = some b) (start stop : Endpoint)

include hb

/-- At a band of 0 the start is read directly. -/
theorem ofBand_zero (h : b = 0) : Place.ofBand band start stop = .direct start := by
  have hzero : (band == 0) = true := (beq_iff_exactValue?_eq hb).mpr (by rw [h]; decide +kernel)
  rw [ofBand, if_pos hzero]

/-- At a band of 1 the end is read directly. -/
theorem ofBand_one (h : b = 1) : Place.ofBand band start stop = .direct stop := by
  have hone : (band == 1) = true := (beq_iff_exactValue?_eq hb).mpr (by rw [h]; decide +kernel)
  have hzero : ¬ (band == 0) = true := by
    rw [beq_iff_exactValue?_eq hb, h]
    decide +kernel
  rw [ofBand, if_neg hzero, if_pos hone]

/-- At any other band the weights are written out. -/
theorem ofBand_between (h0 : b ≠ 0) (h1 : b ≠ 1) :
    Place.ofBand band start stop =
      .between { startWeight := band, start := start, endWeight := 1 - band, stop := stop } := by
  have hvalue : ∀ {x : Float} {q : Rat}, exactValue? x = some q → b ≠ q → ¬ (band == x) = true := by
    intro x q hx hne heq
    rw [beq_iff_exactValue?_eq hb, hx] at heq
    exact hne (Option.some.inj heq).symm
  rw [ofBand, if_neg (hvalue (by decide +kernel : exactValue? 0 = some 0) h0),
    if_neg (hvalue (by decide +kernel : exactValue? 1 = some 1) h1)]

/-- What is missing from a half to 1 is a half. -/
theorem exactValue?_one_sub_half (h : b = 1 / 2) : exactValue? (1 - band) = some (1 / 2) := by
  have hhalf : (band == 0.5) = true := (beq_iff_exactValue?_eq hb).mpr (by rw [h]; decide +kernel)
  have hunpack : band.toModel.unpack = (0.5 : Float).toModel.unpack := by
    rcases (float_beq_iff _ _).mp hhalf with ⟨s, s', -, hzero⟩ | ⟨heq, -⟩
    · cases hzero
    · exact heq
  change unpackedValue? (Float.Model.pack (Float.Model.UnpackedFloat.sub .binary64
    (1 : Float).toModel.unpack band.toModel.unpack)).unpack = _
  rw [hunpack]
  decide +kernel

/-- **Where a band weighs the end as much as it says**: at both ends and in the middle. This is
where the two weights that are written out may be exchanged without harm. -/
theorem weighs_ofBand_iff :
    (Place.ofBand band start stop).Weighs start stop (1 - b) b ↔ b = 0 ∨ b = 1 / 2 ∨ b = 1 := by
  constructor
  · intro hweighs
    by_cases h0 : b = 0
    · exact .inl h0
    by_cases h1 : b = 1
    · exact .inr (.inr h1)
    rw [ofBand_between hb start stop h0 h1] at hweighs
    cases hweighs with
    | between hstart _ =>
      rw [hb] at hstart
      have : b = 1 - b := Option.some.inj hstart
      exact .inr (.inl (by linarith))
  · rintro (h | h | h)
    · rw [ofBand_zero hb start stop h, h, sub_zero]
      exact .start
    · rw [ofBand_between hb start stop (by rw [h]; norm_num) (by rw [h]; norm_num)]
      have hhalf : 1 - b = 1 / 2 := by rw [h]; norm_num
      rw [hhalf, h]
      exact .between (h ▸ hb) (exactValue?_one_sub_half hb h)
    · rw [ofBand_one hb start stop h, h, sub_self]
      exact .stop

/-- Away from both ends the start has the weight that the band says, and not the end. -/
theorem weight_start_ofBand (h0 : b ≠ 0) (h1 : b ≠ 1) {x y : Rat}
    (hweighs : (Place.ofBand band start stop).Weighs start stop x y) : x = b := by
  rw [ofBand_between hb start stop h0 h1] at hweighs
  cases hweighs with
  | between hstart _ => exact Option.some.inj (hstart.symm.trans hb)

end ofBand

end Place

/-! ## The place in an interval -/

/-- The start of an interval, as it is read at a band. -/
def nearEndpoint (source : Source) (startSuffix : String) (row : Option String) : Endpoint :=
  .ofSource source { row := row, suffix := startSuffix }

/-- **Where an interpolated reference weighs the end as much as its band says**: at both ends and in
the middle. At every other band it is the start that has this weight. -/
theorem weighs_interpolate_iff (scale : Option String) (source : Source)
    (rangeEnd : Option Source) (startSuffix : String) (offset : Option Offset)
    (band : Option Float) {b : Rat}
    (hb : exactValue? (band.getD defaultBandPosition) = some b) :
    let place := intervalPlace source rangeEnd startSuffix (band.getD defaultBandPosition)
    let row := endpointRow (band.getD defaultBandPosition)
    let start := nearEndpoint source startSuffix row
    let stop := farEndpoint source rangeEnd row
    interpolate scale source rangeEnd startSuffix offset band =
        (place.ref scale).withOffset offset ∧
      (place.Weighs start stop (1 - b) b ↔ b = 0 ∨ b = 1 / 2 ∨ b = 1) ∧
      (b ≠ 0 → b ≠ 1 → ∀ x y, place.Weighs start stop x y → x = b) :=
  ⟨rfl, Place.weighs_ofBand_iff hb _ _, fun h0 h1 _ _ hweighs =>
    Place.weight_start_ofBand hb _ _ h0 h1 hweighs⟩

/-- A field of ranges, which ends each range in a field of its own. -/
def rangeField : Source := .field { field := some "a" }

/-- A quarter of the way in, the start weighs a quarter, and the weights of that place are missed. -/
theorem weighs_rangeField_quarter :
    let place := intervalPlace rangeField none "" 0.25
    let start := nearEndpoint rangeField "" (some dataRow)
    let stop := farEndpoint rangeField none (some dataRow)
    ¬ place.Weighs start stop (1 - 1 / 4) (1 / 4) ∧
      ∀ x y, place.Weighs start stop x y → x = 1 / 4 := by
  obtain ⟨-, hiff, hstart⟩ := weighs_interpolate_iff (some "x") rangeField none "" none (some 0.25)
    (b := 1 / 4) (by decide +kernel)
  exact ⟨fun hweighs => absurd (hiff.mp hweighs) (by norm_num),
    hstart (by norm_num) (by norm_num)⟩

/-- **The weights are written out the other way round**: a quarter of the way from start to end, the
expression weighs the start with a quarter and the end with three quarters. -/
theorem reversed_rangeField_quarter :
    (interpolate (some "x") rangeField none "" none (some 0.25)).signal =
        some "scale(\"x\", 0.25 * datum[\"a\"] + 0.75 * datum[\"a_end\"])" ∧
      (intervalPlace rangeField none "" 0.25).Weighs (.field "datum[\"a\"]")
        (.field "datum[\"a_end\"]") (1 / 4) (3 / 4) ∧
      ¬ (intervalPlace rangeField none "" 0.25).Weighs (.field "datum[\"a\"]")
        (.field "datum[\"a_end\"]") (3 / 4) (1 / 4) := by
  have hplace : intervalPlace rangeField none "" 0.25 =
      .between { startWeight := 0.25, start := .field "datum[\"a\"]", endWeight := 1 - 0.25,
                 stop := .field "datum[\"a_end\"]" } := by with_unfolding_all rfl
  have hquarter : exactValue? 0.25 = some (1 / 4) := by decide +kernel
  rw [hplace]
  refine ⟨by decide +kernel, .between hquarter (by decide +kernel), fun hweighs => ?_⟩
  cases hweighs with
  | between hstart _ =>
    rw [hquarter] at hstart
    exact absurd (Option.some.inj hstart) (by norm_num)

end ChartCompiler
