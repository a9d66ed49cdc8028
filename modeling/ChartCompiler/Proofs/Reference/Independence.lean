import ChartCompiler.Reference.MidPoint

/-!
# What mid points depend on

Every mid point is given a mark, a configuration, a stack and a scale, and reads each of them on few
paths only. What two runs do not read they may disagree on.

* `FieldDef.bandPosition?_congr` — a place in a band depends on mark and configuration only where
  neither the author nor the end of a range settles it.
* `Placement.ReadsMark`, `Placement.ReadsStack`, `Placement.ReadsScale` — **the placements whose mid
  point may depend** on the mark and its configuration, on the stack, and on the scale.
* `Placement.midPoint_congr` — a mid point depends on what places its field or datum.
* `Placement.midPoint_independent` — **two runs that agree on what is read have the same mid
  point**, with the same notices: elsewhere on nothing of the three, and there on the configured
  place in the band, on whether gaps are imputed, and on the type of the scale.

The three conditions are stated in terms of the placement and its definition. A lemma for each rule
says on which of them it reads what it is given, and the mid point puts the rules together. Since a
run is compared with one that differs in a single respect, runs that differ in several are compared
step by step.

The conditions say where a mid point *may* depend on something, and two placements that meet them
can have the same mid point all the same.
-/

namespace ChartCompiler

/-! ## Places in a band -/

/-- The main positional channels are `x` and `y`. -/
theorem Channel.mem_xy_iff (c : Channel) : c ∈ [Channel.x, .y] ↔ c.isXY = true := by
  cases c <;> decide

/-- **A place in a band depends on the mark and the configuration only through the configured place**, and
on that only for a time unit on `x` or `y` that has neither an authored band nor another end. -/
theorem FieldDef.bandPosition?_congr {d : FieldDef} {channel : Channel}
    {rangeEnd : Option ChannelDef} {mark mark' : MarkDef} {config config' : Config}
    (h : channel ∈ [Channel.x, .y] → rangeEnd = none → d.timeUnit ≠ none → d.band = none →
      config'.timeUnitBandPosition mark' = config.timeUnitBandPosition mark) :
    d.bandPosition? channel rangeEnd mark' config' = d.bandPosition? channel rangeEnd mark config := by
  unfold bandPosition?
  by_cases hxy : channel.isXY = true
  · by_cases hband : d.band.isSome = true
    · simp [hband]
    · by_cases hunit : d.hasUnitBand rangeEnd = true
      · have hparts : d.timeUnit.isSome = true ∧ rangeEnd.isNone = true := by
          simpa [hasUnitBand] using hunit
        rw [h ((Channel.mem_xy_iff _).mpr hxy) (Option.isNone_iff_eq_none.mp hparts.2)
          (Option.isSome_iff_ne_none.mp hparts.1) (by simpa using hband)]
      · simp [hunit]
  · simp [hxy]

namespace Placement

/-! ## What is read -/

/-- **Whether the compiler puts a field in an interval of its own**: that of a bin it makes, or that
of a time unit with a place in its band other than the start. -/
def MakesInterval (p : Placement) (d : FieldDef) : Prop :=
  d.isBinning = true ∨
    d.timeUnit ≠ none ∧
      ∃ b, d.bandPosition? p.channel p.rangeEnd p.mark p.config = some b ∧ (b == 0) = false

/-- **Where a mid point may depend on the mark and the configuration**: on `x` and `y`, for a typed
field with a time unit, without an authored band and without a definition that ends the range. -/
structure ReadsMark (p : Placement) (d : FieldDef) : Prop where
  /-- The channel is a main positional one. -/
  channel_mem : p.channel ∈ [Channel.x, .y]
  /-- The channel is defined by the field. -/
  definition_eq : p.definition = some (.field d)
  /-- The field has a type, since untyped ones are placed by the rule of scales. -/
  type_ne : d.type ≠ none
  /-- The field has a time unit, for which a place in the band can be configured. -/
  timeUnit_ne : d.timeUnit ≠ none
  /-- No band is authored, which would come first. -/
  band_eq : d.band = none
  /-- No other definition ends the range. -/
  rangeEnd_eq : p.rangeEnd = none

/-- **Where a mid point may depend on the stack**: on `x` and `y`, for a continuous field in an
interval of its own. -/
structure ReadsStack (p : Placement) (d : FieldDef) : Prop where
  /-- The channel is a main positional one. -/
  channel_mem : p.channel ∈ [Channel.x, .y]
  /-- The channel is defined by the field. -/
  definition_eq : p.definition = some (.field d)
  /-- The type of the field is a continuous one. -/
  type_mem : d.type ∈ [some Measurement.quantitative, some .temporal]
  /-- The field is in an interval of its own, the start of which is read where gaps are imputed. -/
  interval : p.MakesInterval d

/-- **Where a mid point may depend on the scale**: for a datum, for an untyped field, and for a
field that is in no interval. -/
inductive ReadsScale (p : Placement) : Prop
  /-- A datum has no interval. -/
  | datum (d : DatumDef) (definition_eq : p.definition = some (.datum d))
  /-- An untyped field is placed in no interval, whatever bins it has. -/
  | untyped (d : FieldDef) (definition_eq : p.definition = some (.field d)) (type_eq : d.type = none)
  /-- A field in no interval, neither one of its own nor one that it arrives with. -/
  | plain (d : FieldDef) (definition_eq : p.definition = some (.field d))
      (no_interval : ¬ p.MakesInterval d)
      (no_end : ¬ (d.isBinned = true ∧ ∃ far, p.rangeEnd = some (.field far)))

section rules

variable {p : Placement} {d : FieldDef}

/-- The program asks for an interval by the function `hasInterval`, given the place in the band. -/
theorem makesInterval_iff :
    p.MakesInterval d ↔
      hasInterval d (d.bandPosition? p.channel p.rangeEnd p.mark p.config) = true := by
  unfold MakesInterval hasInterval
  cases d.bandPosition? p.channel p.rangeEnd p.mark p.config with
  | none => simp
  | some b => simp [bne, Option.isSome_iff_ne_none, and_comm]

/-- Quantitative and temporal are the continuous types. -/
theorem type_mem_iff :
    d.type ∈ [some Measurement.quantitative, some .temporal] ↔
      d.type.any Measurement.isContinuous = true := by
  cases d.type with
  | none => decide
  | some t => cases t <;> decide

/-! ## What each rule reads -/

/-- The rule of bins and time units reads the mark and the configuration for the place in the band,
and for nothing else. -/
theorem binnedRef_of_mark {mark : MarkDef} {config : Config}
    (hd : p.definition = some (.field d))
    (h : p.ReadsMark d → config.timeUnitBandPosition mark = p.config.timeUnitBandPosition p.mark) :
    ({ p with mark := mark, config := config } : Placement).binnedRef d = p.binnedRef d := by
  unfold binnedRef
  by_cases htyped : d.isTyped = true
  · have hband : d.bandPosition? p.channel p.rangeEnd mark config =
        d.bandPosition? p.channel p.rangeEnd p.mark p.config := by
      apply FieldDef.bandPosition?_congr
      intro hchannel hend hunit hband
      exact h ⟨hchannel, hd, Option.isSome_iff_ne_none.mp htyped, hunit, hband, hend⟩
    dsimp only
    rw [hband]
    rfl
  · simp [htyped]

/-- The rule of intervals reads the stack for continuous fields on `x` and `y`. -/
theorem intervalRef_of_stack {stack : Option Stack} (band : Option Float)
    (h : p.channel.isXY = true → d.type.any Measurement.isContinuous = true →
      stack.any Stack.impute = p.stack.any Stack.impute) :
    ({ p with stack := stack } : Placement).intervalRef d band = p.intervalRef d band := by
  unfold intervalRef
  by_cases hread : (p.channel.isXY && d.type.any Measurement.isContinuous) = true
  · obtain ⟨hxy, hcontinuous⟩ := Bool.and_eq_true_iff.mp hread
    dsimp only
    rw [h hxy hcontinuous]
  · dsimp only
    rw [if_neg hread, if_neg hread]

/-- The rule of bins and time units reads the stack where it goes on to the rule of intervals. -/
theorem binnedRef_of_stack {stack : Option Stack} (hd : p.definition = some (.field d))
    (h : p.ReadsStack d → stack.any Stack.impute = p.stack.any Stack.impute) :
    ({ p with stack := stack } : Placement).binnedRef d = p.binnedRef d := by
  by_cases hinterval : p.MakesInterval d
  · have href : ({ p with stack := stack } : Placement).intervalRef d
          (d.bandPosition? p.channel p.rangeEnd p.mark p.config) =
        p.intervalRef d (d.bandPosition? p.channel p.rangeEnd p.mark p.config) := by
      apply intervalRef_of_stack
      intro hxy hcontinuous
      exact h ⟨(Channel.mem_xy_iff _).mpr hxy, hd, type_mem_iff.mpr hcontinuous, hinterval⟩
    unfold binnedRef
    dsimp only
    rw [href]
  · have hno := mt makesInterval_iff.mpr hinterval
    unfold binnedRef
    dsimp only
    rw [if_neg hno, if_neg hno]

/-- The rule of scales reads the type of the scale, and nothing else of it. -/
theorem scaleRef_of_scale {scale : Option Scale} (source : Source)
    (h : scale.map Scale.type = p.scale.map Scale.type) :
    ({ p with scale := scale } : Placement).scaleRef source = p.scaleRef source := by
  unfold scaleRef discreteScale?
  dsimp only
  cases hs : scale with
  | none =>
    rw [hs] at h
    rw [Option.map_eq_none_iff.mp h.symm]
  | some s =>
    rw [hs] at h
    obtain ⟨s', hs', htype⟩ := Option.map_eq_some_iff.mp h.symm
    rw [hs']
    by_cases hdiscrete : s.type.hasDiscreteDomain = true
    · simp [Option.filter, htype, hdiscrete]
    · simp [Option.filter, htype, hdiscrete]

/-- The rule of bins and time units leaves untyped fields to the rule of scales, and of the others those
that are in no interval. -/
theorem readsScale_of_binnedRef (hd : p.definition = some (.field d))
    (h : (p.binnedRef d).value = none) : p.ReadsScale := by
  unfold binnedRef at h
  dsimp only at h
  split at h
  · rename_i huntyped
    exact .untyped d hd (by simpa [FieldDef.isTyped] using huntyped)
  · split at h
    · cases h
    · rename_i hno
      refine .plain d hd (mt makesInterval_iff.mp hno) ?_
      rintro ⟨hbinned, far, hfar⟩
      rw [if_pos hbinned, hfar] at h
      cases h

/-- A field reads the scale only where the rule of bins and time units leaves it to the rule of
scales. -/
theorem fieldRef_of_scale {scale : Option Scale} (hd : p.definition = some (.field d))
    (h : p.ReadsScale → scale.map Scale.type = p.scale.map Scale.type) :
    ({ p with scale := scale } : Placement).fieldRef d = p.fieldRef d := by
  have hvalue :
      (p.binnedRef d).value.getD
          (({ p with scale := scale } : Placement).scaleRef (.field d)) =
        (p.binnedRef d).value.getD (p.scaleRef (.field d)) := by
    cases hplaced : (p.binnedRef d).value with
    | some ref => rfl
    | none => exact scaleRef_of_scale (.field d) (h (readsScale_of_binnedRef hd hplaced))
  -- The rule of bins and time units, which reports, is not given the scale.
  exact Reported.ext hvalue rfl

end rules

/-! ## What mid points read -/

/-- **A mid point depends on what places its field or datum**, beside the channel, the definition,
the offset and the default. -/
theorem midPoint_congr {p q : Placement} (hchannel : q.channel = p.channel)
    (hdefinition : q.definition = p.definition) (hoffset : q.offset = p.offset)
    (hdefault : q.default = p.default)
    (hfield : ∀ d, p.definition = some (.field d) → q.fieldRef d = p.fieldRef d)
    (hdatum : ∀ d, p.definition = some (.datum d) → q.scaleRef (.datum d) = p.scaleRef (.datum d)) :
    q.midPoint = p.midPoint := by
  unfold midPoint
  rw [hdefinition, hchannel, hoffset, hdefault]
  split
  · rename_i d hd
    rw [hfield d hd]
  · rename_i d hd
    rw [hdatum d hd]
  · rfl
  · rfl
  · rfl

/-- **Two runs that agree on what is read have the same mid point**, with the same notices. The mark
and the configuration are read for the configured place in the band, the stack for whether gaps are
imputed, and the scale for its type; and only where `ReadsMark`, `ReadsStack` and `ReadsScale` say
so. -/
theorem midPoint_independent (p : Placement) :
    (∀ mark config,
      (∀ d, p.ReadsMark d →
        config.timeUnitBandPosition mark = p.config.timeUnitBandPosition p.mark) →
      ({ p with mark := mark, config := config } : Placement).midPoint = p.midPoint) ∧
    (∀ stack : Option Stack,
      (∀ d, p.ReadsStack d → stack.any Stack.impute = p.stack.any Stack.impute) →
      ({ p with stack := stack } : Placement).midPoint = p.midPoint) ∧
    ∀ scale : Option Scale,
      (p.ReadsScale → scale.map Scale.type = p.scale.map Scale.type) →
      ({ p with scale := scale } : Placement).midPoint = p.midPoint := by
  refine ⟨?mark, ?stack, ?scale⟩
  case mark =>
    intro mark config h
    refine midPoint_congr rfl rfl rfl rfl ?_ (fun d _ => rfl)
    intro d hd
    unfold fieldRef
    rw [binnedRef_of_mark hd (h d)]
    rfl
  case stack =>
    intro stack h
    refine midPoint_congr rfl rfl rfl rfl ?_ (fun d _ => rfl)
    intro d hd
    unfold fieldRef
    rw [binnedRef_of_stack hd (h d)]
    rfl
  case scale =>
    intro scale h
    refine midPoint_congr rfl rfl rfl rfl (fun d hd => fieldRef_of_scale hd h) ?_
    intro d hd
    exact scaleRef_of_scale (.datum d) (h (.datum d hd))

/-- A month of the year, without a band. -/
def month : FieldDef :=
  { field := some "t", type := some .temporal, timeUnit := some "month" }

/-- Bars by month, a quarter of the way into their bands. -/
def monthBars : Placement where
  channel := .x
  definition := some (.field month)
  mark := { type := .bar, timeUnitBandPosition := some 0.25 }
  config := {}
  scaleName := some "x"
  scale := some { name := "x", type := .time }

/-- The mid point of bars by month stays when another mark is configured to the same place in the
band, when a stack that imputes nothing is added, and under any other scale. -/
theorem midPoint_monthBars :
    (monthBars.ReadsMark month ∧
      ({ monthBars with
          mark := { type := .rect }
          config := { mark := { timeUnitBandPosition := some 0.25 } } } : Placement).midPoint =
        monthBars.midPoint) ∧
    (monthBars.ReadsStack month ∧
      ({ monthBars with stack := some { fieldChannel := .y } } : Placement).midPoint =
        monthBars.midPoint) ∧
    (¬ monthBars.ReadsScale ∧
      ({ monthBars with scale := some { name := "x", type := .band } } : Placement).midPoint =
        monthBars.midPoint) := by
  have hinterval : monthBars.MakesInterval month :=
    .inr ⟨nofun, 0.25, by with_unfolding_all rfl, by decide +kernel⟩
  have hscale : ¬ monthBars.ReadsScale := by
    rintro (⟨d, ⟨⟩⟩ | ⟨d, ⟨⟩, htype⟩ | ⟨d, ⟨⟩, hno, -⟩)
    · cases htype
    · exact hno hinterval
  obtain ⟨hmark, hstack, hbyScale⟩ := monthBars.midPoint_independent
  refine ⟨⟨⟨by decide, rfl, nofun, nofun, rfl, rfl⟩, ?_⟩, ⟨⟨by decide, rfl, by decide, hinterval⟩, ?_⟩,
    hscale, ?_⟩
  · exact hmark _ _ (fun _ _ => by with_unfolding_all rfl)
  · exact hstack _ (fun _ _ => rfl)
  · exact hbyScale _ (fun h => absurd h hscale)

/-- Where gaps are imputed, the start of the month is read in place of its middle. -/
example :
    ({ monthBars with stack := some { fieldChannel := .y, impute := true } } :
        Placement).midPoint.value.bind ValueRef.field = some (.row "month_t") := by
  with_unfolding_all rfl

end Placement

end ChartCompiler
