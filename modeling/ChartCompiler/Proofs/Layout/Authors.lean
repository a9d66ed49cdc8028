import ChartCompiler.Proofs.Layout.Landing
import ChartCompiler.Proofs.Layout.Leaves

/-!
# Who authored a size

An authored size that a view keeps comes from one unit view at or below it. The size says only that
it is counted in steps; how long a step is has to be found again when the size is declared.

* `ViewTree.AuthoredBy` — **the unit view that an authored size comes from**, and what it authored:
  the view itself, or the author of the first authored size among its children.
* `ViewTree.exists_authoredBy_of_settledSize?` — every authored size of a settled tree has an
  author; `ViewTree.AuthoredBy.unique` says that it has one only.
* `ViewTree.Grown.sizeSignals_of_authored_step` — **the step that an authored size in steps is
  declared with**: the one of the scale's range, else the author's where the author holds the size
  itself, else the configured one. So a step that is left to a parent is lost.
* `ViewTree.lost_layeredStep` — such a loss: a view authors 30, and 20 is declared.

The search for a scale goes down the tree from the view that holds the size, but the search for an
authored step looks at that view only. A layer or a container authors no step, so for a size that
has come up from below the search ends with the configured step.
-/

namespace ChartCompiler

/-- The step that a unit view authors is that of the size that it authors along the same
dimension. -/
theorem View.authoredStep?_key (v : View) (d : Dimension) :
    v.authoredStep? d.key = (v.authored? d).bind SizeSpec.step? := by
  unfold authoredStep? authored?
  rw [Option.bind_assoc]
  cases d <;> rfl

/-- Only unit views author steps. This is where steps that have come up from below get lost. -/
theorem View.authoredStep?_of_not_isUnit {v : View} (h : v.kind.isUnit = false) (key : LayoutKey) :
    v.authoredStep? key = none := by
  rw [authoredStep?, ViewKind.unit?_eq_none_iff.mpr h, Option.bind_none]

/-- Only a step settles as a size in steps, whatever its length. -/
theorem SizeSpec.settled_eq_step_iff {spec : SizeSpec} :
    spec.settled = .step ↔ ∃ step, spec = .step step := by
  cases spec <;> simp [settled]

namespace ViewTree

variable {t : ViewTree} (config : Config)

/-! ## Authors -/

/-- **The unit view that a view's authored size comes from**, and the size that it authors. The
relation follows the merges downwards: `AuthoredBy t config d id author spec` holds by a chain of
views from `id` to `author`, each the first of its siblings with an authored size. -/
inductive AuthoredBy (t : ViewTree) (config : Config) (d : Dimension) :
    ViewId → ViewId → SizeSpec → Prop
  /-- A unit view authors its own size. -/
  | self {id : ViewId} {v : View} {spec : SizeSpec} (view : t.view? id = some v)
      (authored : v.authored? d = some spec) : AuthoredBy t config d id id spec
  /-- Children that share a size share the first authored one. -/
  | child {id c author : ViewId} {v : View} {spec : SizeSpec} (view : t.view? id = some v)
      (composite : v.kind.isUnit = false)
      (shares : (t.sharedSize config {} d id).isShared = true)
      (first : ((t.children id).find? fun c => (t.ownSize config {} d c).isExplicit) = some c)
      (below : AuthoredBy t config d c author spec) : AuthoredBy t config d id author spec

namespace AuthoredBy

variable {d : Dimension} {id author : ViewId} {spec : SizeSpec}

/-- Only a unit view authors a size. -/
theorem isUnit_of_authored? {v : View} (h : v.authored? d = some spec) : v.kind.isUnit = true := by
  cases hunit : v.kind.isUnit with
  | true => rfl
  | false =>
    rw [View.authored?, ViewKind.unit?_eq_none_iff.mpr hunit] at h
    cases h

/-- **A size has one author**: at each view of the chain there is one first child with an authored
size. -/
theorem unique {author' : ViewId} {spec' : SizeSpec} (h : t.AuthoredBy config d id author spec)
    (h' : t.AuthoredBy config d id author' spec') : author' = author ∧ spec' = spec := by
  induction h with
  | self view authored =>
    cases h' with
    | self view' authored' =>
      rw [view] at view'
      obtain rfl := Option.some.inj view'
      rw [authored] at authored'
      exact ⟨rfl, (Option.some.inj authored').symm⟩
    | child view' composite =>
      rw [view] at view'
      obtain rfl := Option.some.inj view'
      rw [isUnit_of_authored? authored] at composite
      cases composite
  | child view composite shares first below ih =>
    cases h' with
    | self view' authored' =>
      rw [view] at view'
      obtain rfl := Option.some.inj view'
      rw [isUnit_of_authored? authored'] at composite
      cases composite
    | child view' composite' shares' first' below' =>
      rw [first] at first'
      obtain rfl := Option.some.inj first'
      exact ih below'

/-- An author stands at or behind the view, since children stand behind their parents. -/
theorem le {id author : Nat} (h : t.AuthoredBy config d id author spec) : id ≤ author := by
  induction h with
  | self => exact Nat.le_refl _
  | child view composite shares first below ih =>
    have hc := List.mem_of_find?_eq_some first
    exact Nat.le_trans (Nat.le_of_lt (lt_of_mem_children hc).1) ih

/-- What the author authors is the size that the relation names. -/
theorem authored (h : t.AuthoredBy config d id author spec) :
    ∃ v, t.view? author = some v ∧ v.authored? d = some spec := by
  induction h with
  | self view authored => exact ⟨_, view, authored⟩
  | child view composite shares first below ih => exact ih

end AuthoredBy

/-- The first authored size of a view's children is the one that they share, if what they share is
authored. -/
theorem exists_first_of_sharedSize {d : Dimension} {id : ViewId}
    (h : (t.sharedSize config {} d id).entry.isExplicit = true) :
    ∃ c, ((t.children id).find? fun c => (t.ownSize config {} d c).isExplicit) = some c ∧
      (t.ownSize config {} d c).isExplicit = true ∧
      t.sharedSize config {} d id = .shared (t.ownSize config {} d c) := by
  cases hshared : t.sharedSize config {} d id with
  | childless => rw [hshared] at h; cases h
  | apart => rw [hshared] at h; cases h
  | shared e =>
    rw [hshared] at h
    have hfind := find?_isExplicit_of_leading? (leading?_of_sharedSize_eq config hshared)
    rw [if_pos (show e.isExplicit = true from h), List.find?_map] at hfind
    obtain ⟨c, hc, rfl⟩ := Option.map_eq_some_iff.mp hfind
    exact ⟨c, hc, h, rfl⟩

/-- An authored entry of a unit view is that of the size that it authors. -/
theorem exists_authored?_of_unitEntry {v : View} {u : UnitView} (hkind : v.kind = .unit u)
    {view : ViewConfig} {d : Dimension} (h : (v.unitEntry u view d).isExplicit = true) :
    ∃ spec, v.authored? d = some spec ∧ v.unitEntry u view d = .authored (some spec.settled) := by
  rw [← View.leafEntry_of_unit hkind, View.leafEntry] at h ⊢
  cases hspec : v.authored? d with
  | none => rw [hspec] at h; cases h
  | some spec => exact ⟨spec, rfl, rfl⟩

/-- **A size that a view comes to has an author, if it is authored.** The induction goes down the
tree; a layer passes the question on to one of its children, and a container comes to no size. -/
theorem exists_authoredBy_of_ownSize {d : Dimension} {id : ViewId}
    (h : (t.ownSize config {} d id).isExplicit = true) :
    ∃ author spec, t.AuthoredBy config d id author spec ∧
      t.ownSize config {} d id = .authored (some spec.settled) := by
  induction id using t.downInduction with
  | step id ih =>
    cases hv : t.view? id with
    | none => rw [ownSize_of_view?_none _ _ hv] at h; cases h
    | some v =>
      cases hkind : v.kind with
      | unit u =>
        rw [ownSize_of_unit _ _ hv hkind] at h ⊢
        obtain ⟨spec, hspec, hentry⟩ := exists_authored?_of_unitEntry hkind h
        exact ⟨id, spec, .self hv hspec, hentry⟩
      | layer =>
        rw [ownSize_of_layer _ _ hv hkind] at h ⊢
        obtain ⟨c, hc, hexplicit, hshared⟩ := exists_first_of_sharedSize config h
        obtain ⟨author, spec, hauthor, hown⟩ := ih c (List.mem_of_find?_eq_some hc) hexplicit
        refine ⟨author, spec, .child hv (by rw [hkind]; rfl) (by rw [hshared]; rfl) hc hauthor, ?_⟩
        rw [hshared]
        exact hown
      | _ =>
        rw [ownSize_of_container _ _ hv (by rw [hkind]; rfl) (by rw [hkind]; simp)] at h
        cases h

/-- **Every authored size of a settled tree has an author**, also the size of a container's
cells. -/
theorem exists_authoredBy_of_settledSize? {top id : ViewId} {key : LayoutKey}
    {size : Option LayoutSize}
    (h : t.settledSize? config {} top id key = some (.authored size)) :
    ∃ author spec, t.AuthoredBy config key.dimension id author spec ∧ size = some spec.settled := by
  unfold settledSize? at h
  split at h
  · cases h
  · obtain ⟨v, hv, ⟨u, hkind, hentry⟩ | ⟨hunit, hentry⟩⟩ := keptSize?_eq_some config {} rfl h
    · obtain ⟨spec, hspec, hunit⟩ := exists_authored?_of_unitEntry (d := key.dimension) hkind
        (show (v.unitEntry u config.view key.dimension).isExplicit = true by rw [← hentry]; rfl)
      rw [hunit] at hentry
      exact ⟨id, spec, .self hv hspec, congrArg Explicit.value hentry⟩
    · obtain ⟨c, hc, hexplicit, hshared⟩ := exists_first_of_sharedSize config
        (show (t.sharedSize config {} key.dimension id).entry.isExplicit = true by
          rw [← hentry]; rfl)
      obtain ⟨author, spec, hauthor, hown⟩ := exists_authoredBy_of_ownSize config hexplicit
      refine ⟨author, spec, .child hv (ViewKind.unit?_eq_none_iff.mp hunit) (by rw [hshared]; rfl)
        hc hauthor, ?_⟩
      rw [hshared] at hentry
      exact congrArg Explicit.value (hentry.trans hown)

/-! ## Declared steps -/

/-- **How long a step of an authored size is**, once the scale's range gives none: as the author
says, where the author holds the size itself, else as configured. The hypothesis on the key says
that a unit view holds sizes of its own only. -/
theorem AuthoredBy.stepSize_eq {key : LayoutKey} {id author : Nat} {step : Float}
    (h : t.AuthoredBy config key.dimension id author (.step step))
    (hkey : ∀ v, t.view? id = some v → v.kind.isUnit = true → key = key.dimension.key)
    (scale : Scale) :
    t.stepSize config id key scale =
      scale.rangeStep?.getD (if id = author then step else config.view.step) := by
  have hauthored : ((t.view? id).bind fun v => v.authoredStep? key).getD config.view.step =
      if id = author then step else config.view.step := by
    cases h with
    | self view authored =>
      rw [view, Option.bind_some, hkey _ view (isUnit_of_authored? authored),
        View.authoredStep?_key, authored]
      simp [SizeSpec.step?]
    | child view composite shares first below =>
      have hc := (lt_of_mem_children (List.mem_of_find?_eq_some first)).1
      have hne : id ≠ author := Nat.ne_of_lt (Nat.lt_of_lt_of_le hc (below.le config))
      rw [view, Option.bind_some, View.authoredStep?_of_not_isUnit composite, if_neg hne]
      rfl
  unfold stepSize
  cases scale.rangeStep? with
  | some range => rfl
  | none => exact hauthored

namespace Grown

variable (h : t.Grown) {root : ViewId} (hroot : t.root = some root)

include h hroot

/-- **The step that an authored size in steps is declared with.** One unit view has authored the
step. Where a scale is found, its step is declared, and the size as a number of such steps: the step
of the scale's range, if it has one, else the authored one where the author holds the size itself,
else the configured one. So the authored step is what a scale without a step in its range is declared
with exactly where the author has not left its size to a parent, or has authored the configured
step. -/
theorem sizeSignals_of_authored_step :
    ∃ r, t.resolveTree config = .ok r ∧ ∀ id key,
      r.value.layout.sizeAt? id key = some (.authored (some .step)) →
        ∃ author step, t.AuthoredBy config key.dimension id author (.step step) ∧
          (∀ author' spec, t.AuthoredBy config key.dimension id author' spec →
            author' = author ∧ spec = .step step) ∧
          ∀ scale, r.value.findScale? id key.dimension.channel = some scale →
            ∃ declared, (r.value.sizeSignals config id key (some .step)).value =
                [⟨scale.stepSignal, .value declared⟩,
                  ⟨r.value.sizeSignal id key, .update scale.bandExpression⟩] ∧
              declared = scale.rangeStep?.getD (if id = author then step else config.view.step) ∧
              (declared = scale.rangeStep?.getD step ↔
                scale.rangeStep?.isSome = true ∨ id = author ∨ config.view.step = step) := by
  refine ⟨_, resolveTree_of_root hroot config, fun id key hentry => ?_⟩
  have hsettled : t.settledSize? config {} root id key = some (.authored (some .step)) :=
    (h.sizeAt?_resolve_root config hroot id key).symm.trans hentry
  obtain ⟨author, spec, hauthor, hsize⟩ := exists_authoredBy_of_settledSize? config hsettled
  obtain ⟨step, rfl⟩ := SizeSpec.settled_eq_step_iff.mp (Option.some.inj hsize).symm
  -- A unit view has a size of its own only, so there the key is that of the dimension.
  have hown : ∀ v, t.view? id = some v → v.kind.isUnit = true → key = key.dimension.key := by
    intro v hv hunit
    obtain rfl := h.linked.root_eq_zero hroot
    rw [key_eq_of_settledSize? config hv hsettled nofun, ownKey, if_pos hunit,
      Dimension.dimension_key]
  refine ⟨author, step, hauthor, fun _ _ h' => hauthor.unique config h', fun scale hscale => ?_⟩
  have hstep : (t.onLayout (t.resolve config root)).value.stepSize config id key scale =
      scale.rangeStep?.getD (if id = author then step else config.view.step) :=
    hauthor.stepSize_eq config hown scale
  refine ⟨_, ?_, rfl, ?_⟩
  · unfold sizeSignals
    dsimp only
    rw [hscale]
    dsimp only
    rw [hstep]
    rfl
  · cases scale.rangeStep? with
    | some range => simp
    | none => by_cases hid : id = author <;> simp [hid]

end Grown

/-! ## A step that is lost -/

/-- A concatenation of a layer, in which a unit view authors a step of 30, and of a unit view that
authors a step of 15. Both unit views own scales in bands whose ranges give no step. -/
def layeredStep : ViewTree :=
  grow { name := "outer", kind := .concat }
    [(0, { name := "inner", kind := .layer }),
      (1, { name := "cell", kind := .unit { width := some (.step 30) },
            scales := .ofList [(.x, { name := "a", type := .band })] }),
      (0, { name := "mark", kind := .unit { width := some (.step 15) },
            scales := .ofList [(.x, { name := "b", type := .band })] })]

/-- The layer's authored step comes from the unit view in it. -/
theorem authoredBy_layeredStep : layeredStep.AuthoredBy {} .width 1 2 (.step 30) :=
  .child rfl rfl (by decide +kernel) (by decide +kernel) (.self rfl rfl)

/-- The unit view beside the layer is declared with its own step, the one in the layer is not. -/
theorem steps_layeredStep :
    ∃ r, layeredStep.resolveTree {} = .ok r ∧
      (r.value.sizeSignals {} 1 .width (some .step)).value.head? = some ⟨"a_step", .value 20⟩ ∧
      (r.value.sizeSignals {} 3 .width (some .step)).value.head? = some ⟨"b_step", .value 15⟩ := by
  obtain ⟨r, hr, hsteps⟩ := Grown.sizeSignals_of_authored_step (t := layeredStep) {}
    (grown_grow _ _) (show layeredStep.root = some 0 from rfl)
  rw [resolveTree_of_root (show layeredStep.root = some 0 from rfl)] at hr
  obtain rfl := Except.ok.inj hr
  refine ⟨_, rfl, ?_, ?_⟩
  · obtain ⟨author, step, -, hunique, hdeclared⟩ := hsteps 1 .width (by with_unfolding_all rfl)
    obtain ⟨rfl, -⟩ := hunique 2 _ authoredBy_layeredStep
    obtain ⟨declared, hdecls, rfl, -⟩ :=
      hdeclared { name := "a", type := .band } (by with_unfolding_all rfl)
    exact (congrArg List.head? hdecls).trans (by with_unfolding_all rfl)
  · obtain ⟨author, step, -, hunique, hdeclared⟩ := hsteps 3 .width (by with_unfolding_all rfl)
    obtain ⟨rfl, hstep⟩ := hunique 3 (.step 15) (.self rfl rfl)
    obtain rfl := SizeSpec.step.inj hstep
    obtain ⟨declared, hdecls, rfl, -⟩ :=
      hdeclared { name := "b", type := .band } (by with_unfolding_all rfl)
    exact (congrArg List.head? hdecls).trans (by with_unfolding_all rfl)

/-- **A step can be lost**: the unit view in the layer authors 30 for a scale without a step in its
range, and 20 is declared, which is the configured step. -/
theorem lost_layeredStep :
    layeredStep.Grown ∧ layeredStep.AuthoredBy {} .width 1 2 (.step 30) ∧
      ∃ r, layeredStep.resolveTree {} = .ok r ∧
        r.value.layout.sizeAt? 1 .width = some (.authored (some .step)) ∧
        (∃ scale, r.value.findScale? 1 .x = some scale ∧ scale.rangeStep? = none) ∧
        (r.value.sizeSignals {} 1 .width (some .step)).value.head? = some ⟨"a_step", .value 20⟩ ∧
        (20 : Float) ≠ 30 :=
  ⟨grown_grow _ _, authoredBy_layeredStep, _, rfl, by with_unfolding_all rfl,
    ⟨{ name := "a", type := .band }, by with_unfolding_all rfl, rfl⟩, by with_unfolding_all rfl,
    by decide⟩

end ViewTree

end ChartCompiler
