import ChartCompiler.Proofs.Reference.Guard
import ChartCompiler.Proofs.Reference.Independence

/-!
# Places in a category

The rule of scales comes last: it is given what the rule of bins and time units does not place.
Through a scale of categories it reads compiler-made bins by their label, and through a band scale
it gives every definition a place in its band.

* `Placement.binnedRef_eq_none_iff` — which fields are left to the rule of scales.
* `Placement.exists_midPoint_eq_scaleRef` — what is left to it, and data, have a mid point made by
  it.
* `FieldDef.outputName_range` — the label of a bin is read for compiler-made bins of what is not
  counted.
* `Placement.ByCategory` — **the form of a reference through a scale of categories**;
  `Placement.byCategory_midPoint` says that every mid point left to the rule of scales has it.

That a field has bins does not mean that it is placed in them. The rule of bins and time units does
so for typed fields only, which have bins that the compiler makes, bins that arrive with both their
ends, or a time unit with a place in its band. All other fields come here, and if the compiler bins
one of these, it is untyped.
-/

namespace ChartCompiler

/-- **The label of a bin** is read for compiler-made bins of what is not counted. For anything else
the suffix is left out. -/
theorem FieldDef.outputName_range (d : FieldDef) :
    d.outputName (.ofBinSuffix "range") =
      if d.isBinning = true ∧ d.aggregate ≠ some .count then d.stem ++ "_range" else d.stem := by
  have hsuffix : d.outputSuffix (.ofBinSuffix "range") =
      if d.isBinning = true ∧ d.aggregate ≠ some .count then "range" else "" := by
    simp [outputSuffix, OutputForm.ofBinSuffix]
  rw [outputName, hsuffix]
  split
  · rw [if_neg (by decide), String.append_assoc]
    rfl
  · rfl

namespace Placement

variable {p : Placement} {d : FieldDef} {s : Scale}

/-! ## What the rule of scales is given -/

/-- The rule of bins and time units does not place a field that is in no interval: neither one of its own
nor one that it arrives with. -/
theorem binnedRef_of_no_interval (hinterval : ¬ p.MakesInterval d)
    (hend : ¬ (d.isBinned = true ∧ ∃ far, p.rangeEnd = some (.field far))) :
    (p.binnedRef d).value = none := by
  unfold binnedRef
  dsimp only
  split
  · rfl
  · rw [if_neg (mt makesInterval_iff.mpr hinterval)]
    split
    · rename_i hbinned
      split
      · rename_i far hfar
        exact absurd ⟨hbinned, far, hfar⟩ hend
      · rfl
    · rfl

/-- A field that is left to the rule of scales is untyped, or in no interval. -/
theorem ReadsScale.of_field (h : p.ReadsScale) (hd : p.definition = some (.field d)) :
    d.type = none ∨
      ¬ p.MakesInterval d ∧ ¬ (d.isBinned = true ∧ ∃ far, p.rangeEnd = some (.field far)) := by
  cases h with
  | datum d' hd' =>
    rw [hd] at hd'
    cases hd'
  | untyped d' hd' htype =>
    rw [hd] at hd'
    cases hd'
    exact .inl htype
  | plain d' hd' hinterval hend =>
    rw [hd] at hd'
    cases hd'
    exact .inr ⟨hinterval, hend⟩

/-- Where the compiler bins a field that is left to the rule of scales, it is untyped. -/
theorem ReadsScale.type_eq_none (h : p.ReadsScale) (hd : p.definition = some (.field d))
    (hbinning : d.isBinning = true) : d.type = none := by
  rcases h.of_field hd with htype | ⟨hinterval, -⟩
  · exact htype
  · exact absurd (.inl hbinning) hinterval

/-- **The rule of bins and time units leaves to the rule of scales** the untyped fields and those
that are in no interval. -/
theorem binnedRef_eq_none_iff (hd : p.definition = some (.field d)) :
    (p.binnedRef d).value = none ↔ p.ReadsScale := by
  constructor
  · exact readsScale_of_binnedRef hd
  · intro h
    rcases h.of_field hd with htype | ⟨hinterval, hend⟩
    · simp [binnedRef, FieldDef.isTyped, htype]
    · exact binnedRef_of_no_interval hinterval hend

/-- **What is left to the rule of scales has a mid point**, which that rule makes. -/
theorem exists_midPoint_eq_scaleRef (h : p.ReadsScale) :
    ∃ source, p.definition.bind ChannelDef.source? = some source ∧
      p.midPoint.value = some (p.scaleRef source) := by
  have hfield : ∀ d, p.definition = some (.field d) →
      ∃ source, p.definition.bind ChannelDef.source? = some source ∧
        p.midPoint.value = some (p.scaleRef source) := by
    intro d hd
    refine ⟨.field d, by rw [hd]; rfl, ?_⟩
    have hplaced := (binnedRef_eq_none_iff hd).mpr h
    unfold midPoint
    rw [hd]
    change some ((p.binnedRef d).value.getD _) = _
    rw [hplaced]
    rfl
  cases h with
  | datum d hd => exact ⟨.datum d, by rw [hd]; rfl, by rw [midPoint, hd]; rfl⟩
  | untyped d hd _ => exact hfield d hd
  | plain d hd _ _ => exact hfield d hd

/-! ## What the rule of scales makes of it -/

/-- **The form of a reference through a scale of categories.** The band depends on the scale and on
the channel: only band scales have one, and only positional channels let the author choose it. -/
structure ByCategory (p : Placement) (s : Scale) (ref : ValueRef) : Prop where
  /-- The reference has no test. -/
  test_eq : ref.test = none
  /-- The reference has no signal: what is read is a field or a value. -/
  signal_eq : ref.signal = none
  /-- The reference goes through the scale that is given. -/
  scale_eq : ref.scale = p.scaleName
  /-- An offset is set unless it is zero. -/
  offset_eq : ref.offset = p.offset.filter Offset.isSet
  /-- A datum is the value. -/
  datum : ∀ d, p.definition = some (.datum d) → ref.value = some d.datum ∧ ref.field = none
  /-- A field is read by its label exactly if the compiler bins it, which it then does without a type, and
  it is not counted. -/
  field : ∀ d, p.definition = some (.field d) →
    ref.value = none ∧ (d.isBinning = true → d.type = none) ∧
      ref.field = some (.row (escapePath
        (if d.isBinning = true ∧ d.aggregate ≠ some .count then d.stem ++ "_range" else d.stem)))
  /-- Only through a band scale is there a place in the band. -/
  band_of_ne : s.type ≠ .band → ref.band = none
  /-- On channels other than the positional ones the place in the band is the middle, whatever is
  authored. -/
  band_elsewhere : s.type = .band → p.channel ∉ [Channel.x, .y, .x2, .y2] → ref.band = some 0.5
  /-- On positional channels the place in the band is the middle if none is authored. -/
  band_unauthored : s.type = .band → p.channel ∈ [Channel.x, .y, .x2, .y2] →
    ∀ source, p.definition.bind ChannelDef.source? = some source → source.band = none →
      ref.band = some 0.5
  /-- An authored place is kept on positional channels, but the start of the band is not set, as it
  is what a reference without a band means. -/
  band_authored : s.type = .band → p.channel ∈ [Channel.x, .y, .x2, .y2] →
    ∀ source b, p.definition.bind ChannelDef.source? = some source → source.band = some b →
      ref.band = if b == 0 then none else some b

/-- The place in its band that the rule of scales gives a definition with an authored place. -/
def bandPlace? (p : Placement) (s : Scale) (authored : Option Float) : Option Float :=
  if s.type = .band then
    some ((if p.channel.isPosition then authored else none).getD defaultBandPosition)
  else none

/-- Through a scale of categories the rule asks for labels and for that place. -/
theorem scaleRef_of_discrete (hscale : p.scale = some s) (hdiscrete : s.type.hasDiscreteDomain = true)
    (source : Source) :
    p.scaleRef source =
      source.ref p.scaleName (.ofBinSuffix "range") p.offset (p.bandPlace? s source.band) := by
  have hfilter : p.discreteScale? = some s := by
    rw [discreteScale?, hscale, Option.filter_some, if_pos hdiscrete]
  rw [scaleRef, hfilter]
  rfl

/-- The middle of a band is set. -/
theorem filter_middle : (some 0.5 : Option Float).filter (· != 0) = some 0.5 := by
  have hne : ((0.5 : Float) != 0) = true := by decide +kernel
  rw [Option.filter_some, if_pos hne]

/-- **What the rule makes has this form.** The two cases, a datum and a field, differ in what is
read and agree in everything else. -/
theorem byCategory_scaleRef (h : p.ReadsScale) (hscale : p.scale = some s)
    (hdiscrete : s.type.hasDiscreteDomain = true) {source : Source}
    (hsource : p.definition.bind ChannelDef.source? = some source) :
    p.ByCategory s (p.scaleRef source) := by
  rw [scaleRef_of_discrete hscale hdiscrete, Source.ref_eq]
  refine
    { test_eq := rfl
      signal_eq := rfl
      scale_eq := rfl
      offset_eq := rfl
      datum := ?datum
      field := ?field
      band_of_ne := ?of_ne
      band_elsewhere := ?elsewhere
      band_unauthored := ?unauthored
      band_authored := ?authored }
  case datum =>
    intro d hd
    rw [hd] at hsource
    cases hsource
    exact ⟨rfl, rfl⟩
  case field =>
    intro d hd
    have hfield : source = .field d := by
      rw [hd] at hsource
      exact (Option.some.inj hsource).symm
    subst hfield
    refine ⟨rfl, h.type_eq_none hd, ?_⟩
    dsimp only
    rw [FieldDef.output_of_row_none rfl, FieldDef.outputName_range]
  case of_ne =>
    intro htype
    simp [bandPlace?, htype]
  case elsewhere =>
    intro htype hchannel
    have hposition : p.channel.isPosition = false := by
      rw [Bool.eq_false_iff]
      exact mt (mem_position_iff _).mpr hchannel
    have hplace : p.bandPlace? s source.band = some 0.5 := by
      simp [bandPlace?, htype, hposition, defaultBandPosition]
    rw [hplace]
    exact filter_middle
  case unauthored =>
    intro htype hchannel source' hsource' hband
    obtain rfl := Option.some.inj (hsource.symm.trans hsource')
    have hplace : p.bandPlace? s source.band = some 0.5 := by
      simp [bandPlace?, htype, hband, defaultBandPosition]
    rw [hplace]
    exact filter_middle
  case authored =>
    intro htype hchannel source' b hsource' hband
    obtain rfl := Option.some.inj (hsource.symm.trans hsource')
    have hplace : p.bandPlace? s source.band = some b := by
      simp [bandPlace?, htype, hband, (mem_position_iff _).mp hchannel]
    rw [hplace, Option.filter_some]
    cases hzero : (b == 0) <;> simp [bne, hzero]

/-- **Every mid point that is left to the rule of scales** has this form, where the domain of the scale is
a set of categories. -/
theorem byCategory_midPoint (h : p.ReadsScale) (hscale : p.scale = some s)
    (hdiscrete : s.type.hasDiscreteDomain = true) :
    ∃ ref, p.midPoint.value = some ref ∧ p.ByCategory s ref := by
  obtain ⟨source, hsource, hmid⟩ := exists_midPoint_eq_scaleRef h
  exact ⟨_, hmid, byCategory_scaleRef h hscale hdiscrete hsource⟩

/-- The end of a range of bins that the compiler makes, at the start of its band. -/
def barEnd : FieldDef := { field := some "a.b", bin := some (.made {}), band := some 0 }

/-- The end of a range of bins on `x2`, through a band scale. -/
def barEndInBand : Placement where
  channel := .x2
  definition := some (.field barEnd)
  mark := { type := .bar }
  config := {}
  scaleName := some "x"
  scale := some { name := "x", type := .band }

/-- This end of a range is read by its label, and has no place in the band set. -/
theorem byCategory_barEnd :
    barEndInBand.ReadsScale ∧ ScaleType.band.hasDiscreteDomain = true ∧
      ∃ ref, barEndInBand.midPoint.value = some ref ∧ ref.scale = some "x" ∧ ref.band = none ∧
        ref.field = some (.row "bin_a\\.b_range") := by
  have hreads : barEndInBand.ReadsScale := .untyped barEnd rfl rfl
  obtain ⟨ref, hmid, href⟩ := byCategory_midPoint hreads rfl rfl
  refine ⟨hreads, rfl, ref, hmid, href.scale_eq, ?_, ?_⟩
  · rw [href.band_authored rfl (by decide) (.field barEnd) 0 rfl rfl]
    decide +kernel
  · rw [(href.field barEnd rfl).2.2]
    with_unfolding_all rfl

end Placement

end ChartCompiler
