import ChartCompiler.Reference.MidPoint

/-!
# The form of mid points

A renderer evaluates a reference by what is set in it, so what is set has to go together.

* `IsEscapedPath` — no dot of a path stands without a backslash; `isEscapedPath_escapePath` says
  that escaping a name gives such a path.
* `ValueRef.withOffset_eq`, `ValueRef.withBand_eq` — what an offset or a band changes of a
  reference.
* `Placement.MadeAs` — **the ways in which a mid point is made**, from what kind of definition.
  `Placement.exists_midPoint` says that there are no others.
* `interpolate_cases` — a place in an interval is one of its ends read directly, or the sum of both
  written out.
* `Placement.WellFormed` — **the form of a mid point**; `Placement.wellFormed_midPoint` says that
  every channel with a definition has a mid point of this form.

The rules that make mid points branch on the kind of the definition, its type, the mark, the scale
and the stack. What they make has four shapes only, and these are the constructors of `MadeAs`: each
rule is gone through once to see which shapes it gives, and the form is then proved shape by shape,
without a look at the rules. A rule that is changed without giving a new shape leaves the second
part as it is.

Where a mid point lies is no part of its form. A test that guards it stands in a reference of its
own, which is the subject of `Placement.guardedMidPoint_spec`.
-/

namespace ChartCompiler

/-! ## Escaped paths -/

/-- **Whether every dot of a path has a backslash before it**, so that none descends into an object. -/
def IsEscapedPath (path : String) : Prop :=
  ∀ before after, path.toList = before ++ '.' :: after → ['\\'] <:+ before

/-- Wherever a dot stands among escaped dots, the text in front of it ends with a backslash. -/
theorem suffix_of_escapeDots {cs before after : List Char}
    (h : escapeDots cs = before ++ '.' :: after) : ['\\'] <:+ before := by
  induction cs generalizing before with
  | nil => simp [escapeDots] at h
  | cons c rest ih =>
    rw [escapeDots] at h
    split at h
    · -- The dot in question is the one that was escaped here, or a later one.
      match before, h with
      | [], h => simp at h
      | [b], h => simp [← (List.cons.inj h).1]
      | b :: b' :: before, h =>
        have hlater := ih (List.cons.inj (List.cons.inj h).2).2
        exact (hlater.trans (List.suffix_cons b' before)).trans (List.suffix_cons b _)
    · rename_i hc
      match before, h with
      | [], h => exact absurd (List.cons.inj h).1 hc
      | b :: before, h => exact (ih (List.cons.inj h).2).trans (List.suffix_cons b before)

/-- **Escaping a name leaves no bare dot**, whatever backslashes the name has itself. -/
theorem isEscapedPath_escapePath (field : String) : IsEscapedPath (escapePath field) := by
  intro before after h
  rw [escapePath, String.toList_ofList] at h
  exact suffix_of_escapeDots h

/-! ## Offsets and bands -/

namespace ValueRef

/-- **An offset is set unless it is zero.** A zero leaves the offset that the reference has. -/
theorem withOffset_eq (r : ValueRef) (offset : Option Offset) :
    r.withOffset offset = { r with offset := offset.filter Offset.isSet <|> r.offset } := by
  unfold withOffset
  split
  · rename_i o
    cases h : o.isSet <;> simp [Option.filter, h]
  · simp

/-- **A band is set unless it is zero.** A zero leaves the band that the reference has. -/
theorem withBand_eq (r : ValueRef) (band : Option Float) :
    r.withBand band = { r with band := band.filter (· != 0) <|> r.band } := by
  unfold withBand
  split
  · rename_i b
    cases h : (b != 0) <;> simp [Option.filter, h]
  · simp

end ValueRef

/-- **What is set in the reference to a field or a datum**: a datum is the value, a field is named
in the given form, and scale, offset and band are set as given, except where offset or band are
zero. -/
theorem Source.ref_eq (source : Source) (scale : Option String) (form : OutputForm)
    (offset : Option Offset) (band : Option Float) :
    source.ref scale form offset band =
      { value := match source with | .datum d => some d.datum | .field _ => none
        field := match source with | .datum _ => none | .field d => some (.row (d.output form))
        scale := scale
        offset := offset.filter Offset.isSet
        band := band.filter (· != 0) } := by
  unfold Source.ref
  rw [ValueRef.withBand_eq, ValueRef.withOffset_eq]
  cases source <;> simp [ValueRef.withScale, ValueRef.ofValue, ValueRef.ofField]

/-- Without a row a field is referred to by its escaped path. -/
theorem FieldDef.output_of_row_none {d : FieldDef} {form : OutputForm} (h : form.row = none) :
    d.output form = escapePath (d.outputName form) := by
  rw [FieldDef.output, h]

/-! ## Places in an interval -/

/-- The reference to an expression, through a scale if one is given. -/
def scaledText (scale : Option String) (expression : String) : String :=
  scale.elim expression fun name => "scale(\"" ++ name ++ "\", " ++ expression ++ ")"

/-- **The place that a band gives in an interval**: at either end of the band one end of the
interval, and anywhere else the sum of both, read from the row of the data. -/
theorem intervalPlace_eq (source : Source) (rangeEnd : Option Source) (startSuffix : String)
    (band : Float) :
    intervalPlace source rangeEnd startSuffix band =
      if band == 0 then .direct (.ofSource source { suffix := startSuffix })
      else if band == 1 then .direct (farEndpoint source rangeEnd none)
      else .between
        { startWeight := band
          start := .ofSource source { row := some dataRow, suffix := startSuffix }
          endWeight := 1 - band
          stop := farEndpoint source rangeEnd (some dataRow) } := by
  unfold intervalPlace Place.ofBand endpointRow
  by_cases hzero : (band == 0) = true
  · simp [hzero]
  · by_cases hone : (band == 1) = true
    · simp [hzero, hone]
    · simp [hzero, hone]

/-- An end that is read directly is referred to as any field or datum. -/
theorem withOffset_ref_direct (source : Source) (form : OutputForm) (scale : Option String)
    (offset : Option Offset) :
    ((Place.direct (.ofSource source form)).ref scale).withOffset offset =
      source.ref scale form offset none := by
  cases source <;> rfl

/-- A sum of both ends is written out, as a signal, with the scale inside the expression. -/
theorem withOffset_ref_between (blend : Blend) (scale : Option String) (offset : Option Offset) :
    ((Place.between blend).ref scale).withOffset offset =
      { signal := some (scaledText scale blend.expression)
        offset := offset.filter Offset.isSet } := by
  rw [ValueRef.withOffset_eq]
  cases scale <;> simp [Place.ref, Blend.ref, scaledText, ValueRef.ofSignal]

/-- **A place in an interval of fields**: one of its ends read directly, or the sum of both ends,
each accessed in the row of the data. The far end is the second field if there is one, and otherwise
the end of the first one's own interval. -/
theorem interpolate_cases (scale : Option String) (d : FieldDef) (far : Option FieldDef)
    (offset : Option Offset) (band : Option Float) :
    (∃ e form, (e = d ∨ far = some e) ∧ form.row = none ∧
      interpolate scale (.field d) (far.map .field) "" offset band =
        (Source.field e).ref scale form offset none) ∨
    ∃ weight : Float, ∃ stop, (stop = d.outputName { suffix := "end" } ∨
        ∃ e, far = some e ∧ stop = e.outputName {}) ∧
      interpolate scale (.field d) (far.map .field) "" offset band =
        { signal := some (scaledText scale
            (Expression.number weight ++ " * " ++ Expression.access "datum" (d.outputName {}) ++ " + "
              ++ Expression.number (1 - weight) ++ " * " ++ Expression.access "datum" stop))
          offset := offset.filter Offset.isSet } := by
  generalize hw : band.getD defaultBandPosition = weight
  unfold interpolate
  rw [hw, intervalPlace_eq]
  split
  · exact .inl ⟨d, {}, .inl rfl, rfl, withOffset_ref_direct (.field d) {} scale offset⟩
  · split
    · cases far with
      | none =>
        exact .inl ⟨d, { suffix := "end" }, .inl rfl, rfl, withOffset_ref_direct (.field d) _ scale offset⟩
      | some e => exact .inl ⟨e, {}, .inr rfl, rfl, withOffset_ref_direct (.field e) {} scale offset⟩
    · rw [withOffset_ref_between]
      cases far with
      | none => exact .inr ⟨weight, _, .inl rfl, rfl⟩
      | some e => exact .inr ⟨weight, _, .inr ⟨e, rfl, rfl⟩, rfl⟩

namespace Placement

/-! ## The ways in which a mid point is made -/

/-- **The ways in which a mid point is made** for a channel with a definition. -/
inductive MadeAs (p : Placement) : ChannelDef → ValueRef → Prop
  /-- A field or a datum is read through the scale. Only band scales have a place in the band. -/
  | direct {definition : ChannelDef} {source : Source} {form : OutputForm} {band : Option Float}
      (source_eq : definition.source? = some source) (row_eq : form.row = none)
      (inBand : band.isSome = true → ∃ s, p.scale = some s ∧ s.type = .band) :
      MadeAs p definition (source.ref p.scaleName form p.offset band)
  /-- A field is placed in an interval, which a second field may end. -/
  | interval {d : FieldDef} {far : Option FieldDef} {band : Option Float}
      (far_eq : ∀ e, far = some e → p.rangeEnd = some (.field e)) :
      MadeAs p (.field d)
        (interpolate p.scaleName (.field d) (far.map .field) "" p.offset band)
  /-- A literal is read as it is for its channel, with the offset. -/
  | literal {value : Literal} :
      MadeAs p (.value value) ((value.channelRef p.channel).withOffset p.offset)
  /-- The signal of a channel is referred to by itself, without scale and offset. -/
  | signal {s : SignalRef} : MadeAs p (.signal s) (.ofSignal s.signal)

section madeAs

variable (p : Placement)

/-- The rule of scales reads the field or datum. -/
theorem madeAs_scaleRef {definition : ChannelDef} {source : Source}
    (h : definition.source? = some source) : p.MadeAs definition (p.scaleRef source) := by
  unfold scaleRef
  cases hscale : p.discreteScale? with
  | none => exact .direct h rfl (by simp)
  | some s =>
    refine .direct h rfl ?_
    intro hband
    have htype : s.type = .band := by simpa using hband
    exact ⟨s, (Option.filter_eq_some_iff.mp hscale).1, htype⟩

/-- The rule of intervals places a field in its interval, or reads it. -/
theorem madeAs_intervalRef (d : FieldDef) (band : Option Float) :
    p.MadeAs (.field d) (p.intervalRef d band) := by
  have hread : ∀ form : OutputForm, form.row = none →
      p.MadeAs (.field d) ((Source.field d).ref p.scaleName form p.offset none) :=
    fun form hrow => .direct rfl hrow (by simp)
  have hnone : ∀ e, (none : Option FieldDef) = some e → p.rangeEnd = some (.field e) := by simp
  unfold intervalRef
  split
  · split
    · exact hread _ rfl
    · exact .interval hnone
  · dsimp only
    split
    · exact hread _ rfl
    · exact hread _ rfl

/-- The rule of bins and time units gives, where it gives anything, a place in an interval or the
field itself. -/
theorem madeAs_binnedRef {d : FieldDef} {ref : ValueRef} (h : (p.binnedRef d).value = some ref) :
    p.MadeAs (.field d) ref := by
  dsimp only [binnedRef] at h
  split at h
  · cases h
  · split at h
    · obtain rfl := Option.some.inj h
      exact p.madeAs_intervalRef d _
    · split at h
      · split at h
        · rename_i e hend
          obtain rfl := Option.some.inj h
          have hfar : ∀ e', some e = some e' → p.rangeEnd = some (.field e') := by
            rintro _ ⟨rfl⟩
            exact hend
          exact .interval hfar
        · cases h
      · cases h

/-- A field is placed by its bin or time unit, or by the rule of scales, and so is made in one of
these ways. -/
theorem madeAs_fieldRef (d : FieldDef) : p.MadeAs (.field d) (p.fieldRef d).value := by
  change p.MadeAs (.field d) ((p.binnedRef d).value.getD (p.scaleRef (.field d)))
  cases hbinned : (p.binnedRef d).value with
  | none => exact p.madeAs_scaleRef rfl
  | some ref => exact p.madeAs_binnedRef hbinned

end madeAs

/-- **A channel with a definition has a mid point**, made in one of these ways. -/
theorem exists_midPoint {p : Placement} {definition : ChannelDef}
    (h : p.definition = some definition) :
    ∃ ref, p.midPoint.value = some ref ∧ p.MadeAs definition ref := by
  unfold midPoint
  rw [h]
  cases definition with
  | field d => exact ⟨_, rfl, p.madeAs_fieldRef d⟩
  | datum d => exact ⟨_, rfl, p.madeAs_scaleRef rfl⟩
  | value literal => exact ⟨_, rfl, .literal⟩
  | signal s => exact ⟨_, rfl, .signal⟩

/-! ## What a mid point sets -/

/-- **The form of a mid point** of a channel with the given definition: what a renderer may rely on
in evaluating it. -/
structure WellFormed (p : Placement) (definition : ChannelDef) (ref : ValueRef) : Prop where
  /-- One of value, field and signal is set, and no two of them. -/
  one_content : [ref.value.isSome, ref.field.isSome, ref.signal.isSome].count true = 1
  /-- A mid point holds without a test. -/
  test_eq : ref.test = none
  /-- Only fields and data go through a scale, which is the one that is given. -/
  scale : ∀ name, ref.scale = some name →
    definition.source?.isSome = true ∧ p.scaleName = some name ∧ ref.signal = none
  /-- Only through a band scale is there a place in a band, which is not its start. -/
  band : ∀ b, ref.band = some b → (∃ s, p.scale = some s ∧ s.type = .band) ∧
    (ref.field.isSome = true ∨ ref.value.isSome = true) ∧ (b == 0) = false
  /-- Signals take no offset, and the others none that is zero. -/
  offset : ∀ o, ref.offset = some o →
    p.offset = some o ∧ (∀ s, definition ≠ .signal s) ∧ ∀ b, o = .value b → (b == 0) = false
  /-- A field of the row is read under the escaped name of an output field. -/
  field : ∀ name, ref.field = some (.row name) → IsEscapedPath name ∧
    ∃ d form, (definition = .field d ∨ p.rangeEnd = some (.field d)) ∧
      name = escapePath (d.outputName form)
  /-- An expression is a given signal, or the sum of the two ends of an interval, each accessed in the
  row of the data under the name of its output field. -/
  signal : ∀ e, ref.signal = some e →
    definition = .signal ⟨e⟩ ∨ definition = .value (.signal ⟨e⟩) ∨
      ∃ d, definition = .field d ∧ ∃ weight : Float, ∃ stop,
        (stop = d.outputName { suffix := "end" } ∨
          ∃ far, p.rangeEnd = some (.field far) ∧ stop = far.outputName {}) ∧
        e = scaledText p.scaleName
          (Expression.number weight ++ " * " ++ Expression.access "datum" (d.outputName {}) ++ " + "
            ++ Expression.number (1 - weight) ++ " * " ++ Expression.access "datum" stop)

section wellFormed

variable {p : Placement} {definition : ChannelDef}

/-- An offset that is set is not zero. -/
theorem eq_of_filter_isSet {offset : Option Offset} {o : Offset}
    (h : offset.filter Offset.isSet = some o) :
    offset = some o ∧ ∀ b, o = .value b → (b == 0) = false := by
  obtain ⟨hoffset, hset⟩ := Option.filter_eq_some_iff.mp h
  refine ⟨hoffset, ?_⟩
  rintro b rfl
  simpa [Offset.isSet, bne] using hset

/-- What goes through a scale is no signal. -/
theorem ne_signal_of_source? (h : definition.source?.isSome = true) (s : SignalRef) :
    definition ≠ .signal s := by
  rintro rfl
  cases h

/-- A field or a datum that is read through the scale has the form of a mid point. It may be the
field that ends the range. -/
theorem wellFormed_ref {source : Source} {form : OutputForm} {band : Option Float}
    (hscaled : definition.source?.isSome = true)
    (hfield : ∀ d, source = .field d → definition = .field d ∨ p.rangeEnd = some (.field d))
    (hrow : form.row = none)
    (hband : band.isSome = true → ∃ s, p.scale = some s ∧ s.type = .band) :
    p.WellFormed definition (source.ref p.scaleName form p.offset band) := by
  rw [Source.ref_eq]
  refine ⟨?_, rfl, ?_, ?_, ?_, ?_, nofun⟩
  · cases source <;> rfl
  · intro name hname
    exact ⟨hscaled, hname, rfl⟩
  · intro b hb
    obtain ⟨rfl, hne⟩ := Option.filter_eq_some_iff.mp hb
    refine ⟨hband rfl, ?_, by simpa [bne] using hne⟩
    cases source with
    | field d => exact .inl rfl
    | datum d => exact .inr rfl
  · intro o ho
    obtain ⟨hoffset, hne⟩ := eq_of_filter_isSet ho
    exact ⟨hoffset, ne_signal_of_source? hscaled, hne⟩
  · intro name hname
    cases source with
    | datum d => cases hname
    | field d =>
      obtain rfl : d.output form = name := by simpa using hname
      rw [FieldDef.output_of_row_none hrow]
      exact ⟨isEscapedPath_escapePath _, d, form, hfield d rfl, rfl⟩

/-- A literal is read as the size of the group, as a signal, or as it is. -/
theorem channelRef_cases (value : Literal) (channel : Channel) :
    (∃ word, value.channelRef channel = .ofGroup word) ∨
      (∃ s, value = .signal s ∧ value.channelRef channel = .ofSignal s.signal) ∨
        ∃ json, value.channelRef channel = .ofValue json := by
  unfold Literal.channelRef
  split
  · split
    · exact .inl ⟨_, rfl⟩
    · exact .inr (.inr ⟨_, rfl⟩)
  · cases value with
    | signal s => exact .inr (.inl ⟨s, rfl, rfl⟩)
    | value json => exact .inr (.inr ⟨json, rfl⟩)

/-- A literal has the form of a mid point. -/
theorem wellFormed_literal (value : Literal) :
    p.WellFormed (.value value) ((value.channelRef p.channel).withOffset p.offset) := by
  have hoffset : ∀ o, (p.offset.filter Offset.isSet <|> none) = some o →
      p.offset = some o ∧ (∀ s, ChannelDef.value value ≠ .signal s) ∧
        ∀ b, o = .value b → (b == 0) = false := by
    intro o ho
    obtain ⟨hgiven, hne⟩ := eq_of_filter_isSet (by simpa using ho)
    exact ⟨hgiven, nofun, hne⟩
  rw [ValueRef.withOffset_eq]
  rcases channelRef_cases value p.channel with ⟨word, href⟩ | ⟨s, rfl, href⟩ | ⟨json, href⟩
  · rw [href]
    exact ⟨rfl, rfl, nofun, nofun, hoffset, nofun, nofun⟩
  · rw [href]
    refine ⟨rfl, rfl, nofun, nofun, hoffset, nofun, ?_⟩
    rintro _ ⟨rfl⟩
    exact .inr (.inl rfl)
  · rw [href]
    exact ⟨rfl, rfl, nofun, nofun, hoffset, nofun, nofun⟩

/-- **Every way of making a mid point gives it this form.** The shapes are gone through one by one;
a place in an interval is either read directly, as in the first of them, or written out as a sum. -/
theorem MadeAs.wellFormed {ref : ValueRef} (h : p.MadeAs definition ref) :
    p.WellFormed definition ref := by
  cases h with
  | @direct _ source form band source_eq row_eq inBand =>
    refine wellFormed_ref (by rw [source_eq]; rfl) ?_ row_eq inBand
    rintro d rfl
    left
    cases definition <;> cases source_eq
    rfl
  | @interval d far band far_eq =>
    rcases interpolate_cases p.scaleName d far p.offset band with
      ⟨e, form, he, hrow, href⟩ | ⟨weight, stop, hstop, href⟩
    · rw [href]
      refine wellFormed_ref rfl ?_ hrow (by simp)
      rintro _ ⟨rfl⟩
      rcases he with rfl | he
      · exact .inl rfl
      · exact .inr (far_eq e he)
    · rw [href]
      refine ⟨rfl, rfl, nofun, nofun, ?_, nofun, ?_⟩
      · intro o ho
        obtain ⟨hoffset, hne⟩ := eq_of_filter_isSet ho
        exact ⟨hoffset, nofun, hne⟩
      · rintro _ ⟨rfl⟩
        refine .inr (.inr ⟨d, rfl, weight, stop, ?_, rfl⟩)
        exact hstop.imp_right fun ⟨e, he, h⟩ => ⟨e, far_eq e he, h⟩
  | literal => exact wellFormed_literal _
  | signal =>
    refine ⟨rfl, rfl, nofun, nofun, nofun, nofun, ?_⟩
    rintro _ ⟨rfl⟩
    exact .inl rfl

end wellFormed

/-- **Every channel with a definition has a mid point, and it is well formed.** Nothing is assumed
of mark, configuration, stack and scale. -/
theorem wellFormed_midPoint {p : Placement} {definition : ChannelDef}
    (h : p.definition = some definition) :
    ∃ ref, p.midPoint.value = some ref ∧ p.WellFormed definition ref := by
  obtain ⟨ref, hmid, hmade⟩ := exists_midPoint h
  exact ⟨ref, hmid, hmade.wellFormed⟩

/-- The start of a bin that arrives with its ends in two fields. A quarter of the way in is asked for. -/
def binStart : FieldDef :=
  { field := some "a.b", type := some .quantitative, bin := some .given, band := some 0.25 }

/-- A bin that arrives with its ends in two fields, on `x`, shifted by a signal. -/
def givenBin : Placement where
  channel := .x
  definition := some (.field binStart)
  rangeEnd := some (.field { field := some "c.d" })
  mark := { type := .bar }
  config := {}
  scaleName := some "x"
  scale := some { name := "x", type := .linear }
  offset := some (.signal ⟨"shift"⟩)

/-- The mid point of this bin is well formed. -/
theorem wellFormed_midPoint_givenBin :
    givenBin.definition = some (.field binStart) ∧
      ∃ ref, givenBin.midPoint.value = some ref ∧ givenBin.WellFormed (.field binStart) ref :=
  ⟨rfl, wellFormed_midPoint rfl⟩

/-- The mid point of such a bin is an expression over both fields. -/
example :
    givenBin.midPoint.value.bind ValueRef.signal =
      some "scale(\"x\", 0.25 * datum[\"a.b\"] + 0.75 * datum[\"c.d\"])" := by
  with_unfolding_all rfl

end Placement

end ChartCompiler
