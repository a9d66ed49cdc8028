import ChartCompiler.Layout.Resolve

/-!
# The table of unit sizes

What a unit view comes to along a dimension depends on five things: the size it authors, the scale
it owns there, whether it draws through a projection, and the two sizes configured for the
dimension. The program finds the size by looking these up one after another, `View.unitEntry` by way
of `View.defaultSize`. Here the outcome is written down as a table instead, one row for each way the
five can come together, so that what settling is said to leave does not rest on the code that
settles.

* `ScaleExtent`, `Scale.extent` — what the table reads of a scale: whether its domain is one of
  categories, and if so whether its range gives each of them a step.
* `unitSize` — **the table of unit sizes**.
* `View.tableEntry` — the row that holds for a unit view along a dimension.
* `View.unitEntry_eq_tableEntry` — **the program settles every unit view by the table.**

The rest is read off the rows: there is always a size, it is never the mark of a merged one, which
only a parent puts there, and it is counted in steps only where a step is authored or a scale of
categories has one.
-/

namespace ChartCompiler

/-! ## Scales -/

/-- **What a scale tells of the size** of a view that owns it. -/
inductive ScaleExtent
  /-- Categories, each of which the range gives a step. -/
  | steps
  /-- Categories that share whatever extent there is. -/
  | categories
  /-- A continuous domain, whatever its range. -/
  | continuum
deriving DecidableEq, Repr

namespace Scale

/-- **The extent of a scale.** A range step counts only where there are categories to step through:
a continuous scale stays a continuum though its range be given by a step. -/
def extent (s : Scale) : ScaleExtent :=
  match s.type, s.range with
  | .ordinal, some (.step _) | .binOrdinal, some (.step _) | .point, some (.step _)
  | .band, some (.step _) => .steps
  | .ordinal, _ | .binOrdinal, _ | .point, _ | .band, _ => .categories
  | _, _ => .continuum

/-- The extent by the two tests that the program makes of a scale. -/
theorem extent_eq (s : Scale) :
    s.extent = if s.type.hasDiscreteDomain then
      if s.hasStepRange then .steps else .categories else .continuum := by
  unfold extent hasStepRange
  cases s.type <;> rcases s.range with _ | (_ | _ | _) <;> rfl

/-- A scale gives steps where it has categories and its range gives them a step. -/
theorem extent_eq_steps_iff {s : Scale} :
    s.extent = .steps ↔ s.type.hasDiscreteDomain = true ∧ s.hasStepRange = true := by
  rw [extent_eq]
  cases s.type.hasDiscreteDomain <;> cases s.hasStepRange <;> simp

/-- A scale has categories without steps where its domain is discrete and its range gives no step. -/
theorem extent_eq_categories_iff {s : Scale} :
    s.extent = .categories ↔ s.type.hasDiscreteDomain = true ∧ s.hasStepRange = false := by
  rw [extent_eq]
  cases s.type.hasDiscreteDomain <;> cases s.hasStepRange <;> simp

end Scale

/-! ## The table -/

/-- **The table of unit sizes**: from the authored size, the extent of the scale, whether there is a
projection, and the configured discrete and continuous sizes, to the entry of the view.

An authored size holds whatever the scale is. The rows after the first two infer a size, so a parent
may prefer another child's. A projection counts only where there is no scale. The last two rows are
those of a view without scale or projection, which stands for a single category: it is as wide as
the configured pixels, or as one configured step. -/
def unitSize : Option SizeSpec → Option ScaleExtent → Bool → SizeSpec → Float → SizeEntry
  | some (.step _),   _,                _,     _,          _  => .authored (some .step)
  | some (.pixels n), _,                _,     _,          _  => .authored (some (.pixels n))
  | none,             some .steps,      _,     _,          _  => .inferred (some .step)
  | none,             some .categories, _,     .step _,    _  => .inferred (some .step)
  | none,             some .categories, _,     .pixels n,  _  => .inferred (some (.pixels n))
  | none,             some .continuum,  _,     _,          n  => .inferred (some (.pixels n))
  | none,             none,             true,  _,          n  => .inferred (some (.pixels n))
  | none,             none,             false, .step n,    _  => .inferred (some (.pixels n))
  | none,             none,             false, .pixels n,  _  => .inferred (some (.pixels n))

/-- No row of the table is without a size. -/
theorem value_unitSize_ne_none (authored : Option SizeSpec) (extent : Option ScaleExtent)
    (hasProjection : Bool) (discrete : SizeSpec) (continuous : Float) :
    (unitSize authored extent hasProjection discrete continuous).value ≠ none := by
  unfold unitSize
  split <;> exact Option.some_ne_none _

/-- No row of the table leaves the size to a parent. -/
theorem value_unitSize_ne_merged (authored : Option SizeSpec) (extent : Option ScaleExtent)
    (hasProjection : Bool) (discrete : SizeSpec) (continuous : Float) :
    (unitSize authored extent hasProjection discrete continuous).value ≠ some .merged := by
  unfold unitSize
  split <;> simp [Explicit.authored, Explicit.inferred]

/-- **The rows in steps**: a size is counted in steps where a step is authored, or where none is
authored and there are categories for which the range or the configuration gives a step. -/
theorem value_unitSize_eq_step_iff {authored : Option SizeSpec} {extent : Option ScaleExtent}
    {hasProjection : Bool} {discrete : SizeSpec} {continuous : Float} :
    (unitSize authored extent hasProjection discrete continuous).value = some .step ↔
      (∃ size, authored = some (.step size)) ∨
        (authored = none ∧
          (extent = some .steps ∨ (extent = some .categories ∧ discrete.isStep = true))) := by
  unfold unitSize
  split <;> simp [Explicit.authored, Explicit.inferred, SizeSpec.isStep]

/-! ## Unit views -/

namespace View

/-- **The row of the table that holds for a unit view** along a dimension: the scale is the one that
the view itself owns on the channel of the dimension, never one of a view above it. -/
def tableEntry (v : View) (u : UnitView) (config : ViewConfig) (d : Dimension) : SizeEntry :=
  unitSize (u.size d) ((v.scale? d.channel).map Scale.extent) u.hasProjection
    (config.discreteSize d) (config.continuousSize d)

variable (v : View) (u : UnitView) (config : ViewConfig) (d : Dimension)

/-- The rows below the authored ones are the default that the program looks up. The cases are those
of the program's own tests: whether there is a scale, whether its domain is discrete, and whether a
step is given by its range or by the configuration. -/
theorem unitSize_none_eq (hasProjection : Bool) :
    unitSize none ((v.scale? d.channel).map Scale.extent) hasProjection (config.discreteSize d)
      (config.continuousSize d) = .inferred (some (v.defaultSize hasProjection config d)) := by
  unfold defaultSize
  cases v.scale? d.channel with
  | none => cases hasProjection <;> cases config.discreteSize d <;> rfl
  | some scale =>
    rw [Option.map_some, scale.extent_eq]
    dsimp only
    cases scale.type.hasDiscreteDomain with
    | false => rfl
    | true => cases scale.hasStepRange <;> cases config.discreteSize d <;> rfl

/-- **The program settles every unit view by the table.** -/
theorem unitEntry_eq_tableEntry : v.unitEntry u config d = v.tableEntry u config d := by
  unfold unitEntry tableEntry
  cases u.size d with
  | none => exact (v.unitSize_none_eq config d u.hasProjection).symm
  | some spec => cases spec <;> rfl

/-- A unit view always has a size of its own, whatever is authored and configured. -/
theorem value_unitEntry_ne_none : (v.unitEntry u config d).value ≠ none := by
  rw [unitEntry_eq_tableEntry]
  exact value_unitSize_ne_none _ _ _ _ _

/-- A unit view's own size is no merged one: before its parent has been settled, no mark stands
there. -/
theorem value_unitEntry_ne_merged : (v.unitEntry u config d).value ≠ some .merged := by
  rw [unitEntry_eq_tableEntry]
  exact value_unitSize_ne_merged _ _ _ _ _

/-- **A default in steps** is that of a view that owns a scale of categories, with a step from its
range or from the configuration. -/
theorem exists_scale?_of_defaultSize {v : View} {hasProjection : Bool} {config : ViewConfig}
    {d : Dimension} (h : v.defaultSize hasProjection config d = .step) :
    ∃ scale, v.scale? d.channel = some scale ∧ scale.type.hasDiscreteDomain = true ∧
      (scale.hasStepRange = true ∨ (config.discreteSize d).isStep = true) := by
  have hstep := congrArg Explicit.value (v.unitSize_none_eq config d hasProjection)
  rw [h] at hstep
  rcases value_unitSize_eq_step_iff.mp hstep with ⟨_, ⟨⟩⟩ | ⟨-, hextent | ⟨hextent, hdiscrete⟩⟩
  · obtain ⟨scale, hscale, hextent⟩ := Option.map_eq_some_iff.mp hextent
    obtain ⟨hdomain, hrange⟩ := Scale.extent_eq_steps_iff.mp hextent
    exact ⟨scale, hscale, hdomain, .inl hrange⟩
  · obtain ⟨scale, hscale, hextent⟩ := Option.map_eq_some_iff.mp hextent
    exact ⟨scale, hscale, (Scale.extent_eq_categories_iff.mp hextent).1, .inr hdiscrete⟩

end View

end ChartCompiler
