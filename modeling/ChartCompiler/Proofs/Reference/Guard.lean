import ChartCompiler.Proofs.Reference.Forms

/-!
# The guard against invalid data

* `Placement.NeedsGuard` — **where invalid data would be drawn outside the plot** and nothing else
  takes care of it.
* `Placement.guard_cases` — a reference is guarded exactly there, by one test in front of it.
* `Placement.guardedMidPoint_spec` — **the guarded mid point**: it is there when the mid point is,
  it falls back to the mid point as it is, and where it has a test, that test sends invalid data to
  the left edge or to the bottom.

`NeedsGuard` names the channels, aggregates and marks one by one, and looks the handling of invalid
data up in a list of three levels. The program asks for the same by predicates of its own, in two
functions and in another order; that both agree is `exists_needsGuard_iff`, and what follows goes by
cases on it.

What the mid point itself looks like is a matter of `Placement.WellFormed`. All that is used of it
here is that it carries no test.
-/

namespace ChartCompiler

/-! ## The test -/

/-- Without a suffix the output field goes by its stem. -/
theorem FieldDef.outputName_row (d : FieldDef) (row : Option String) :
    d.outputName { row := row } = d.stem := by
  have hsuffix : d.outputSuffix { row := row } = "" := by
    unfold FieldDef.outputSuffix
    split <;> rfl
  rw [FieldDef.outputName, hsuffix]
  rfl

/-- **The test for invalid data**: the output field, read from the row of the data, is not valid or
not finite. -/
theorem FieldDef.invalidityTest_true (d : FieldDef) :
    d.invalidityTest true =
      "!isValid(" ++ Expression.access "datum" d.stem ++ ") || !isFinite(+"
        ++ Expression.access "datum" d.stem ++ ")" := by
  unfold FieldDef.invalidityTest FieldDef.output
  rw [FieldDef.outputName_row]
  rfl

/-- How a mark handles invalid data is what the first level that says so says: the mark itself, the
entry of its type, or the entry for all marks. -/
theorem Config.invalidMode_eq_findSome? (c : Config) (mark : MarkDef) :
    c.invalidMode mark =
      [mark.invalid, (c.marks.get? mark.type).bind MarkConfig.invalid, c.mark.invalid].findSome?
        id := by
  unfold Config.invalidMode Config.markProperty
  cases mark.invalid with
  | some mode => rfl
  | none =>
    cases (c.marks.get? mark.type).bind MarkConfig.invalid with
    | some mode => rfl
    | none => cases c.mark.invalid <;> rfl

/-! ## Where the guard stands -/

namespace Placement

/-- **Where invalid data needs a guard**: a field that counts nothing, on a positional channel,
through a continuous scale that leaves out zero, drawn by a mark that is no path and has the
handling of invalid data not disabled. -/
structure NeedsGuard (p : Placement) (d : FieldDef) (s : Scale) : Prop where
  /-- The channel is defined by the field. -/
  definition_eq : p.definition = some (.field d)
  /-- The channel goes through the scale. -/
  scale_eq : p.scale = some s
  /-- The channel is one of the positional ones. -/
  channel_mem : p.channel ∈ [Channel.x, .y, .x2, .y2]
  /-- The field is not aggregated to a count, which is always valid. -/
  aggregate_not_mem : ∀ a ∈ d.aggregate, a ∉ [Aggregate.count, .valid, .missing, .distinct]
  /-- The scale leads from a continuous domain to a continuous range. -/
  type_continuous : s.type.isContinuousToContinuous = true
  /-- The domain of the scale is said to leave out zero. -/
  zero_eq : s.zero = some false
  /-- The mark is no path. -/
  mark_not_mem : p.mark.type ∉ [Mark.line, .area, .trail]
  /-- The mode is looked up in the mark, then in the entry of its type, then in that of all marks. -/
  mode_ne : [p.mark.invalid, (p.config.marks.get? p.mark.type).bind MarkConfig.invalid,
    p.config.mark.invalid].findSome? id ≠ some .disabled

variable {p : Placement}

/-- The channels that need a guard are those that the program takes for positions. -/
theorem mem_position_iff (c : Channel) :
    c ∈ [Channel.x, .y, .x2, .y2] ↔ c.isPosition = true := by
  cases c <;> decide

/-- The aggregates that need none are those that the program takes for counts. -/
theorem counting_iff (d : FieldDef) :
    (∀ a ∈ d.aggregate, a ∉ [Aggregate.count, .valid, .missing, .distinct]) ↔
      d.isCounting = false := by
  unfold FieldDef.isCounting
  cases d.aggregate with
  | none => simp
  | some a => cases a <;> simp [Aggregate.isCounting]

/-- The marks that need none are those that the program takes for paths. -/
theorem mem_path_iff (m : Mark) : m ∈ [Mark.line, .area, .trail] ↔ m.isPath = true := by
  cases m <;> decide

/-- What needs a guard, as the program checks it: the field is one to be guarded, the mark is no
path, and the handling of invalid data is not disabled. -/
theorem exists_needsGuard_iff {d : FieldDef} :
    (∃ s, p.NeedsGuard d s) ↔
      p.guardedField? = some d ∧ p.mark.type.isPath = false ∧
        p.config.invalidMode p.mark ≠ some .disabled := by
  constructor
  · rintro ⟨s, h⟩
    refine ⟨?_, ?_, ?_⟩
    · have hchannel := (mem_position_iff _).mp h.channel_mem
      have hcounting := (counting_iff d).mp h.aggregate_not_mem
      unfold guardedField?
      rw [h.definition_eq, h.scale_eq]
      simp [hchannel, hcounting, h.type_continuous, h.zero_eq]
    · exact Bool.eq_false_iff.mpr (mt (mem_path_iff _).mpr h.mark_not_mem)
    · rw [Config.invalidMode_eq_findSome?]
      exact h.mode_ne
  · rintro ⟨hfield, hmark, hmode⟩
    unfold guardedField? at hfield
    split at hfield
    · rename_i d' s hdefinition hscale
      split at hfield
      · rename_i hchecks
        obtain rfl := Option.some.inj hfield
        simp only [Bool.and_eq_true, Bool.not_eq_true', decide_eq_true_eq] at hchecks
        obtain ⟨⟨⟨hchannel, hcounting⟩, htype⟩, hzero⟩ := hchecks
        rw [Config.invalidMode_eq_findSome?] at hmode
        exact ⟨s, hdefinition, hscale, (mem_position_iff _).mpr hchannel,
          (counting_iff d').mpr hcounting, htype, hzero,
          mt (mem_path_iff _).mp (Bool.eq_false_iff.mp hmark), hmode⟩
      · cases hfield
    · cases hfield

/-- The guarded form of a reference: under a test if the field is one to be guarded, which is then
checked for its mark and configuration, and otherwise the reference alone. -/
def guard (p : Placement) (ref : ValueRef) : ChannelRef :=
  match p.guardedField? with
  | some d => d.guardInvalid p.channel p.mark p.config ref
  | none => .single ref

/-- The guarded mid point is the guarded form of the mid point. -/
theorem value_guardedMidPoint (p : Placement) :
    p.guardedMidPoint.value = p.midPoint.value.map p.guard := rfl

/-- **A reference is guarded exactly where this is needed**, by one test in front of it; elsewhere
it stands alone. This holds of any reference, since guarding does not look at it. -/
theorem guard_cases (p : Placement) (ref : ValueRef) :
    (∃ d s, p.NeedsGuard d s ∧ p.guard ref = .conditional [d.invalidRef p.channel, ref]) ∨
      (¬ ∃ d s, p.NeedsGuard d s) ∧ p.guard ref = .single ref := by
  unfold guard
  cases hfield : p.guardedField? with
  | none =>
    refine .inr ⟨?_, rfl⟩
    rintro ⟨d, s, h⟩
    have hguarded := (exists_needsGuard_iff.mp ⟨s, h⟩).1
    rw [hfield] at hguarded
    cases hguarded
  | some d =>
    -- The field is one to be guarded, so the mark and its mode decide.
    have hneeds : (∃ d s, p.NeedsGuard d s) ↔
        p.mark.type.isPath = false ∧ p.config.invalidMode p.mark ≠ some .disabled := by
      constructor
      · rintro ⟨d', s, h⟩
        exact (exists_needsGuard_iff.mp ⟨s, h⟩).2
      · intro h
        exact ⟨d, exists_needsGuard_iff.mpr ⟨hfield, h⟩⟩
    rw [hneeds]
    dsimp only [FieldDef.guardInvalid]
    by_cases hpath : p.mark.type.isPath = true
    · exact .inr ⟨fun h => Bool.false_ne_true (h.1.symm.trans hpath), if_pos hpath⟩
    · rw [if_neg hpath]
      by_cases hmode : p.config.invalidMode p.mark = some .disabled
      · exact .inr ⟨fun h => h.2 hmode, if_pos hmode⟩
      · rw [if_neg hmode]
        obtain ⟨s, h⟩ := exists_needsGuard_iff.mpr ⟨hfield, Bool.eq_false_iff.mpr hpath, hmode⟩
        exact .inl ⟨d, s, h, rfl⟩

end Placement

/-- **What invalid data is drawn as**: the value 0 on `x` and `x2`, the height of the group on `y`
and `y2`, under the test for invalid data, without a scale and without an offset. -/
theorem FieldDef.invalidRef_of_mem (d : FieldDef) {c : Channel}
    (hc : c ∈ [Channel.x, .y, .x2, .y2]) :
    (c ∈ [Channel.x, .x2] ∧
        d.invalidRef c = { test := some (d.invalidityTest true), value := some (.ofInt 0) }) ∨
      (c ∈ [Channel.y, .y2] ∧
        d.invalidRef c =
          { test := some (d.invalidityTest true), field := some (.group "height") }) := by
  simp only [List.mem_cons, List.not_mem_nil, or_false] at hc
  rcases hc with rfl | rfl | rfl | rfl
  · exact .inl ⟨by decide, rfl⟩
  · exact .inr ⟨by decide, rfl⟩
  · exact .inl ⟨by decide, rfl⟩
  · exact .inr ⟨by decide, rfl⟩

namespace Placement

/-- The reference to a field carries no test, by whichever rule it is placed. -/
theorem test_fieldRef (p : Placement) (d : FieldDef) : (p.fieldRef d).value.test = none :=
  (p.madeAs_fieldRef d).wellFormed.test_eq

/-- The mid point of a field is the reference to the field. -/
theorem midPoint_of_field {p : Placement} {d : FieldDef} (hd : p.definition = some (.field d)) :
    p.midPoint.value = some (p.fieldRef d).value := by
  unfold midPoint
  rw [hd]
  rfl

/-- **The guarded mid point.** It is there exactly when the mid point is, and falls back to the mid
point as it is. It has a test exactly where invalid data needs a guard. Then it has two references: one
under the test that the output field is invalid, with the left edge on `x` and `x2` and the bottom on
`y` and `y2` and nothing else; and the mid point, which has no test. -/
theorem guardedMidPoint_spec (p : Placement) :
    (p.guardedMidPoint.value = none ↔ p.midPoint.value = none) ∧
    (∀ ref, p.guardedMidPoint.value = some ref → ref.fallback? = p.midPoint.value) ∧
    ((∃ refs, p.guardedMidPoint.value = some (.conditional refs)) ↔ ∃ d s, p.NeedsGuard d s) ∧
    ∀ refs, p.guardedMidPoint.value = some (.conditional refs) →
      ∃ d mid invalid, p.definition = some (.field d) ∧ p.midPoint.value = some mid ∧
        mid.test = none ∧ refs = [invalid, mid] ∧
        let access := Expression.access "datum" d.stem
        let test := "!isValid(" ++ access ++ ") || !isFinite(+" ++ access ++ ")"
        (p.channel ∈ [Channel.x, .x2] ∧
            invalid = { test := some test, value := some (.ofInt 0) }) ∨
          (p.channel ∈ [Channel.y, .y2] ∧
            invalid = { test := some test, field := some (.group "height") }) := by
  rw [value_guardedMidPoint]
  refine ⟨Option.map_eq_none_iff, ?fallback, ?conditional, ?refs⟩
  case fallback =>
    intro ref href
    obtain ⟨mid, hmid, rfl⟩ := Option.map_eq_some_iff.mp href
    rcases p.guard_cases mid with ⟨d, s, -, hguard⟩ | ⟨-, hguard⟩ <;> rw [hguard, hmid] <;> rfl
  case conditional =>
    constructor
    · rintro ⟨refs, hrefs⟩
      obtain ⟨mid, -, hmid⟩ := Option.map_eq_some_iff.mp hrefs
      rcases p.guard_cases mid with ⟨d, s, h, -⟩ | ⟨-, hguard⟩
      · exact ⟨d, s, h⟩
      · rw [hguard] at hmid
        cases hmid
    · rintro ⟨d, s, h⟩
      -- What needs a guard is a field, which has a mid point.
      rcases p.guard_cases (p.fieldRef d).value with ⟨d', s', -, hguard⟩ | ⟨hno, -⟩
      · rw [midPoint_of_field h.definition_eq, Option.map_some, hguard]
        exact ⟨_, rfl⟩
      · exact absurd ⟨d, s, h⟩ hno
  case refs =>
    intro refs hrefs
    obtain ⟨mid, hmid, href⟩ := Option.map_eq_some_iff.mp hrefs
    rcases p.guard_cases mid with ⟨d, s, h, hguard⟩ | ⟨-, hguard⟩
    · rw [hguard] at href
      obtain rfl := ChannelRef.conditional.inj href
      have hfield := (midPoint_of_field h.definition_eq).symm.trans hmid
      have htest : mid.test = none := by
        rw [← Option.some.inj hfield]
        exact p.test_fieldRef d
      refine ⟨d, mid, d.invalidRef p.channel, h.definition_eq, hmid, htest, rfl, ?_⟩
      dsimp only
      rw [← FieldDef.invalidityTest_true]
      exact d.invalidRef_of_mem h.channel_mem
    · rw [hguard] at href
      cases href

/-- A field on `y`, through a scale without zero, drawn by points. -/
def pointOnY : Placement where
  channel := .y
  definition := some (.field { field := some "a", type := some .quantitative })
  mark := { type := .point }
  config := {}
  scaleName := some "y"
  scale := some { name := "y", type := .linear, zero := some false }

/-- Points without a value are drawn at the bottom, all others through the scale. -/
example :
    pointOnY.guardedMidPoint.value =
      some (.conditional
        [{ test := some "!isValid(datum[\"a\"]) || !isFinite(+datum[\"a\"])",
           field := some (.group "height") },
         { scale := some "y", field := some (.row "a") }]) := by
  with_unfolding_all rfl

end Placement

end ChartCompiler
