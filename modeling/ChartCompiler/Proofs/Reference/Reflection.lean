import ChartCompiler.Proofs.Float.Equality
import ChartCompiler.Proofs.Reference.Forms

/-!
# Interpolating from the other end

Which of two definitions begins an interval should not matter to a place in it, as long as the band
is counted from the same end.

* `Mirrored` — **bands that mirror each other**: each is what the other one leaves of 1. A zero of
  either sign mirrors 1.
* `Place.swap` — a place with its two summands exchanged.
* `Place.ofBand_mirrored` — **mirrored bands give the same place** between the same endpoints.
* `interpolate_mirrored` — the same of the references: one end is read directly in both, or the two
  weighted ends are written out in either order.

Differences of floats are rounded, so that one band is what the other leaves does not follow from
the converse, and both are assumed. They are assumed as equalities of numbers, which do not tell the
zeros apart; since no other two floats are equal without being the same, this matters at the ends of
the band only, where the weights are not written.
-/

namespace ChartCompiler

/-! ## Bands that mirror each other -/

/-- A zero of either sign leaves all of 1. -/
theorem one_sub_of_zero {band : Float} (h : (band == 0) = true) : 1 - band = 1 := by
  obtain ⟨s, hs⟩ := (float_beq_zero_iff band).mp h
  apply eq_of_unpack_eq
  change (Float.Model.pack (Float.Model.UnpackedFloat.sub .binary64 (1 : Float).toModel.unpack
    band.toModel.unpack)).unpack = _
  rw [hs]
  cases s <;> rfl

/-- No band is at both ends. -/
theorem beq_one_of_beq_zero {band : Float} (h : (band == 0) = true) : (band == 1) = false := by
  rw [Bool.eq_false_iff]
  intro hone
  have hsame : ((0 : Float) == 1) = true := PartialEquivBEq.trans (PartialEquivBEq.symm h) hone
  exact absurd hsame (by decide +kernel)

/-- **Bands that mirror each other**: each is what is missing from the other one to 1. -/
structure Mirrored (band mirror : Float) : Prop where
  /-- The mirrored band is what the band leaves. -/
  forth : (1 - band == mirror) = true
  /-- The band is what the mirrored one leaves. -/
  back : (1 - mirror == band) = true

namespace Mirrored

variable {band mirror : Float}

/-- Mirroring goes both ways. -/
theorem symm (h : Mirrored band mirror) : Mirrored mirror band := ⟨h.back, h.forth⟩

/-- The start of a band is mirrored by its end, and only by it. -/
theorem beq_zero_eq (h : Mirrored band mirror) : (band == 0) = (mirror == 1) := by
  rw [Bool.eq_iff_iff]
  constructor
  · intro hzero
    have hforth := h.forth
    rw [one_sub_of_zero hzero] at hforth
    exact PartialEquivBEq.symm hforth
  · intro hone
    have hback := h.back
    have hmirror : mirror = 1 := eq_of_float_beq hone (by decide +kernel)
    rw [hmirror] at hback
    have hzero : (1 - 1 == (0 : Float)) = true := by decide +kernel
    exact PartialEquivBEq.trans (PartialEquivBEq.symm hback) hzero

/-- The end of a band is mirrored by its start, and only by it. -/
theorem beq_one_eq (h : Mirrored band mirror) : (band == 1) = (mirror == 0) :=
  h.symm.beq_zero_eq.symm

/-- Anywhere but at the end, what is missing to 1 is exactly the other band, not only equal to
it. -/
theorem one_sub_eq (h : Mirrored band mirror) (hone : (band == 1) = false) : 1 - band = mirror := by
  refine eq_of_float_beq h.forth ?_
  rw [← h.beq_one_eq, hone]

end Mirrored

/-! ## Places with their summands exchanged -/

/-- The sum with its summands exchanged. -/
def Blend.swap (b : Blend) : Blend :=
  { startWeight := b.endWeight, start := b.stop, endWeight := b.startWeight, stop := b.start }

namespace Place

/-- **The place with its summands exchanged**; an endpoint that is read directly stays. -/
def swap : Place → Place
  | direct endpoint => direct endpoint
  | between blend => between blend.swap

/-- **Mirrored bands give the same place** between the same endpoints, from whichever of them they
are counted. -/
theorem ofBand_mirrored {band mirror : Float} (h : Mirrored band mirror) (start stop : Endpoint) :
    ofBand mirror stop start = (ofBand band start stop).swap := by
  unfold ofBand
  rw [← h.beq_zero_eq, ← h.beq_one_eq]
  cases hzero : band == 0 with
  | true =>
    rw [beq_one_of_beq_zero hzero]
    rfl
  | false =>
    cases hone : band == 1 with
    | true => rfl
    | false =>
      have hband : 1 - band = mirror := h.one_sub_eq hone
      have hmirror : 1 - mirror = band := h.symm.one_sub_eq (by rw [← h.beq_zero_eq, hzero])
      rw [hmirror]
      simp [swap, Blend.swap, hband]

end Place

/-! ## References from either end -/

/-- Mirrored bands read their endpoints from the same row. -/
theorem endpointRow_mirrored {band mirror : Float} (h : Mirrored band mirror) :
    endpointRow mirror = endpointRow band := by
  rw [endpointRow, endpointRow, ← h.beq_one_eq, ← h.beq_zero_eq, Bool.or_comm]

/-- The place in an interval is the same from its other end. -/
theorem intervalPlace_mirrored {band mirror : Float} (h : Mirrored band mirror) (near far : Source) :
    intervalPlace far (some near) "" mirror = (intervalPlace near (some far) "" band).swap := by
  unfold intervalPlace
  rw [endpointRow_mirrored h]
  exact Place.ofBand_mirrored h _ _

/-- **A weighted end of an interval** as it is written out: a field is accessed in the row of the
data, and a datum stands for itself. -/
def Source.summand (source : Source) (weight : Float) : String :=
  Expression.number weight ++ " * " ++
    match source with
    | .field d => Expression.access "datum" (d.outputName {})
    | .datum d => d.datum.compact

/-- A weighted end is the weight times the end that is read from the row. -/
theorem Source.summand_eq (source : Source) (weight : Float) :
    source.summand weight = Expression.number weight ++ " * " ++
      (Endpoint.ofSource source { row := some dataRow }).expression := by
  cases source <;> rfl

/-- The sum of two weighted ends of an interval, written out. -/
theorem expression_between (near far : Source) (weight rest : Float) :
    ({ startWeight := weight, start := .ofSource near { row := some dataRow },
       endWeight := rest, stop := .ofSource far { row := some dataRow } } : Blend).expression =
      near.summand weight ++ " + " ++ far.summand rest := by
  rw [Source.summand_eq, Source.summand_eq]
  simp [Blend.expression, String.append_assoc]

/-- **Interpolating from the other end** at the mirrored band gives the same position. At the ends
of the band the same definition is read directly; anywhere else the same two weighted ends are
written out, in the other order, with the same scale and offset. -/
theorem interpolate_mirrored (scale : Option String) (near far : Source) (offset : Option Offset)
    {band mirror : Float} (forth : (1 - band == mirror) = true) (back : (1 - mirror == band) = true) :
    let fromNear := interpolate scale near (some far) "" offset (some band)
    let fromFar := interpolate scale far (some near) "" offset (some mirror)
    ((band == 0) = true → fromNear = near.ref scale {} offset none ∧ fromFar = fromNear) ∧
      ((band == 1) = true → fromNear = far.ref scale {} offset none ∧ fromFar = fromNear) ∧
      ((band == 0) = false → (band == 1) = false →
        fromNear =
            { signal := some
                (scaledText scale (near.summand band ++ " + " ++ far.summand mirror))
              offset := offset.filter Offset.isSet } ∧
          fromFar =
            { signal := some
                (scaledText scale (far.summand mirror ++ " + " ++ near.summand band))
              offset := offset.filter Offset.isSet }) := by
  have h : Mirrored band mirror := ⟨forth, back⟩
  dsimp only [interpolate, Option.getD_some]
  rw [intervalPlace_mirrored h, intervalPlace_eq]
  refine ⟨?start, ?stop, ?between⟩
  case start =>
    intro hzero
    rw [if_pos hzero]
    exact ⟨withOffset_ref_direct near {} scale offset, rfl⟩
  case stop =>
    intro hone
    -- The start is asked for first, and a band at the end is not there.
    have hzero : (band == 0) = false := by
      rw [Bool.eq_false_iff]
      intro hzero
      rw [beq_one_of_beq_zero hzero] at hone
      exact Bool.false_ne_true hone
    rw [hzero, if_neg Bool.false_ne_true, if_pos hone]
    exact ⟨withOffset_ref_direct far {} scale offset, rfl⟩
  case between =>
    intro hzero hone
    have hrest : 1 - band = mirror := h.one_sub_eq hone
    rw [hzero, hone, hrest]
    constructor
    · rw [← expression_between]
      exact withOffset_ref_between _ scale offset
    · rw [← expression_between]
      exact withOffset_ref_between _ scale offset

/-- A quarter of the way from a field to a datum, by an offset that is set. -/
theorem interpolate_mirrored_quarter :
    let near : Source := .field { field := some "a" }
    let far : Source := .datum { datum := .ofInt 5 }
    let offset : Option Offset := some (.value 2)
    ((1 - 0.25 == (0.75 : Float)) = true ∧ (1 - 0.75 == (0.25 : Float)) = true ∧
      ((0.25 : Float) == 0) = false ∧ ((0.25 : Float) == 1) = false) ∧
    interpolate (some "x") near (some far) "" offset (some 0.25) =
        { signal := some (scaledText (some "x") (near.summand 0.25 ++ " + " ++ far.summand 0.75))
          offset := offset.filter Offset.isSet } ∧
      interpolate (some "x") far (some near) "" offset (some 0.75) =
        { signal := some (scaledText (some "x") (far.summand 0.75 ++ " + " ++ near.summand 0.25))
          offset := offset.filter Offset.isSet } := by
  intro near far offset
  have hforth : (1 - 0.25 == (0.75 : Float)) = true := by decide +kernel
  have hback : (1 - 0.75 == (0.25 : Float)) = true := by decide +kernel
  have hzero : ((0.25 : Float) == 0) = false := by decide +kernel
  have hone : ((0.25 : Float) == 1) = false := by decide +kernel
  exact ⟨⟨hforth, hback, hzero, hone⟩,
    (interpolate_mirrored (some "x") near far offset hforth hback).2.2 hzero hone⟩

end ChartCompiler
