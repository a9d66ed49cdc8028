import ChartCompiler.Proofs.Layout.Authors
import ChartCompiler.Proofs.Layout.Duplicates

/-!
# Where inferred steps come from

A size in steps that nobody has authored was inferred for a unit view, and each view above has taken
it from its first child. The scale that it is counted with is looked for again when the size is
declared, from the top down. Both go the same way.

* `ViewTree.leftmost` — the way from a view to its first child, to the first child of that one, and
  on.
* `View.InfersStep` — **a unit view for which a size in steps is inferred**, from a scale of
  categories.
* `ViewTree.exists_infersStep_of_ownSize`, `ViewTree.exists_infersStep_of_settledSize?` — an
  inferred size in steps comes from such a unit view, at the end of the leftmost way.
* `ViewTree.findScale?_eq_findSome?_leftmost` — a scale that is found on the leftmost way at all is
  the first one on it.
* `ViewTree.Grown.declares_inferred_step` — **every inferred size in steps is declared**, with the
  first scale on the leftmost way.

The search for a scale goes down in depth first, so it follows the leftmost way until it meets a
scale. There is one at its end at the latest, that of the unit view for which the size was inferred.
The two scales need not be the same: a layer on the way may own one as well, and then the size is
counted with that. They are the same where only unit views own scales.
-/

namespace ChartCompiler

/-! ## Unit views -/

/-- **A unit view for which a size in steps is inferred**: it authors no size and owns a scale of
categories, which are given a step by the range of the scale or by the configuration. -/
structure View.InfersStep (v : View) (config : ViewConfig) (d : Dimension) (scale : Scale) : Prop where
  /-- The view draws marks itself. -/
  isUnit : v.kind.isUnit = true
  /-- It authors no size along the dimension. -/
  authored?_eq : v.authored? d = none
  /-- It owns the scale on the channel of the dimension. -/
  scale?_eq : v.scale? d.channel = some scale
  /-- The scale is one of categories. -/
  hasDiscreteDomain : scale.type.hasDiscreteDomain = true
  /-- The range or the configuration gives each category a step. -/
  hasStep : scale.hasStepRange = true ∨ (config.discreteSize d).isStep = true

/-- An inferred entry in steps of a unit view is the default of one that authors no size. -/
theorem View.exists_infersStep_of_unitEntry {v : View} {u : UnitView} {config : ViewConfig}
    {d : Dimension} (hkind : v.kind = .unit u) (h : v.unitEntry u config d = .inferred (some .step)) :
    ∃ scale, v.InfersStep config d scale := by
  have hunit : v.kind.isUnit = true := by rw [hkind]; rfl
  rw [← leafEntry_of_unit hkind, leafEntry] at h
  cases hauthored : v.authored? d with
  | some spec =>
    rw [hauthored] at h
    exact absurd (congrArg Explicit.isExplicit h) (by simp [Explicit.authored, Explicit.inferred])
  | none =>
    rw [hauthored] at h
    have hsize : v.inferredSize config d = .step := by
      simpa [Explicit.inferred] using h
    obtain ⟨scale, hscale, hdiscrete, hstep⟩ := exists_scale?_of_defaultSize hsize
    exact ⟨scale, hunit, hauthored, hscale, hdiscrete, hstep⟩

/-- A view that authors no size authors no step for it. For the sizes of cells this holds in any
case. -/
theorem View.authoredStep?_of_authored?_eq_none {v : View} {key : LayoutKey}
    (h : v.authored? key.dimension = none) : v.authoredStep? key = none := by
  have hkey : v.authoredStep? key.dimension.key = none := by
    rw [authoredStep?_key, h]
    rfl
  cases key with
  | width => exact hkey
  | height => exact hkey
  | _ => exact Option.bind_fun_none _

namespace ViewTree

variable {t : ViewTree} (config : Config)

/-! ## The leftmost way -/

/-- **The way from a view down to its first child**, to the first child of that one, and on to a
view without children. The view itself stands first. -/
def leftmost (t : ViewTree) (id : ViewId) : List ViewId :=
  match _h : (t.children id).head? with
  | none => [id]
  | some c => id :: t.leftmost c
termination_by t.size - id
decreasing_by exact size_sub_lt_of_mem_children (List.mem_of_head? ‹_›)

/-- At a view without children the way is the view alone. -/
theorem leftmost_of_head?_eq_none {id : ViewId} (h : (t.children id).head? = none) :
    t.leftmost id = [id] := by
  rw [leftmost]
  split
  · rfl
  · rename_i c hc
    rw [h] at hc
    cases hc

/-- From a view with children the way goes on from the first of them. -/
theorem leftmost_of_head?_eq_some {id c : ViewId} (h : (t.children id).head? = some c) :
    t.leftmost id = id :: t.leftmost c := by
  rw [leftmost]
  split
  · rename_i hnone
    rw [h] at hnone
    cases hnone
  · rename_i c' hc'
    rw [h] at hc'
    obtain rfl := Option.some.inj hc'
    rfl

/-- There is always a view on the way, the one that it starts from. -/
theorem leftmost_ne_nil (id : ViewId) : t.leftmost id ≠ [] := by
  cases h : (t.children id).head? with
  | none => simp [leftmost_of_head?_eq_none h]
  | some c => simp [leftmost_of_head?_eq_some h]

/-- The way down ends where that from the first child ends. -/
theorem getLast?_leftmost {id c : ViewId} (h : (t.children id).head? = some c) :
    (t.leftmost id).getLast? = (t.leftmost c).getLast? := by
  rw [leftmost_of_head?_eq_some h, List.getLast?_cons_of_ne_nil (leftmost_ne_nil c)]

/-- The way down goes on from every view that has children, so a view without children on it is its
end. -/
theorem getLast?_leftmost_of_childless {id x : ViewId} (hx : x ∈ t.leftmost id)
    (hchildless : t.children x = []) : (t.leftmost id).getLast? = some x := by
  induction id using t.downInduction with
  | step id ih =>
    cases hc : (t.children id).head? with
    | none =>
      rw [leftmost_of_head?_eq_none hc] at hx ⊢
      rw [List.mem_singleton.mp hx]
      rfl
    | some c =>
      rw [leftmost_of_head?_eq_some hc] at hx
      rw [getLast?_leftmost hc]
      rcases List.mem_cons.mp hx with rfl | hx
      · rw [hchildless] at hc
        cases hc
      · exact ih c (List.mem_of_head? hc) hx

/-! ## Where the step was inferred -/

/-- **An inferred size that children share is that of the first of them**: a later one leads only
where it is authored. -/
theorem exists_head?_of_sharedSize {d : Dimension} {id : ViewId} {size : LayoutSize}
    (h : (t.sharedSize config {} d id).entry = .inferred (some size)) :
    ∃ c, (t.children id).head? = some c ∧ t.ownSize config {} d c = .inferred (some size) := by
  cases hshared : t.sharedSize config {} d id with
  | childless =>
    rw [hshared] at h
    cases h
  | apart =>
    rw [hshared] at h
    cases h
  | shared e =>
    rw [hshared] at h
    obtain rfl : e = .inferred (some size) := h
    have hlead := leading?_of_sharedSize_eq config hshared
    have hhead := head?_of_leading? hlead (find?_isExplicit_of_leading? hlead)
    rw [List.head?_map] at hhead
    exact Option.map_eq_some_iff.mp hhead

/-- **A size in steps that a view comes to was inferred at the end of the leftmost way**, if it is not
authored. The induction goes down the tree. -/
theorem exists_infersStep_of_ownSize (hl : t.Linked) {d : Dimension} {id : ViewId}
    (h : t.ownSize config {} d id = .inferred (some .step)) :
    ∃ leaf v scale, (t.leftmost id).getLast? = some leaf ∧ t.view? leaf = some v ∧
      v.InfersStep config.view d scale := by
  induction id using t.downInduction with
  | step id ih =>
    cases hv : t.view? id with
    | none =>
      rw [ownSize_of_view?_none _ _ hv] at h
      cases h
    | some v =>
      cases hkind : v.kind with
      | unit u =>
        have hchildren := hl.children_of_isUnit hv (by rw [hkind]; rfl)
        rw [ownSize_of_unit _ _ hv hkind] at h
        obtain ⟨scale, hinfers⟩ := View.exists_infersStep_of_unitEntry hkind h
        refine ⟨id, v, scale, ?_, hv, hinfers⟩
        rw [leftmost_of_head?_eq_none (by rw [hchildren]; rfl)]
        rfl
      | layer =>
        rw [ownSize_of_layer _ _ hv hkind] at h
        obtain ⟨c, hc, hown⟩ := exists_head?_of_sharedSize config h
        rw [getLast?_leftmost hc]
        exact ih c (List.mem_of_head? hc) hown
      | _ =>
        -- A container of cells does not come to any size by itself.
        rw [ownSize_of_container _ _ hv (by rw [hkind]; rfl) (by rw [hkind]; simp)] at h
        cases h

/-- Every settled size in steps that is not authored was inferred at the end of the leftmost way
from the view that holds it, also where the size is that of a container's cells. -/
theorem exists_infersStep_of_settledSize? (hl : t.Linked) {top id : ViewId} {key : LayoutKey}
    (h : t.settledSize? config {} top id key = some (.inferred (some .step))) :
    ∃ leaf v scale, (t.leftmost id).getLast? = some leaf ∧ t.view? leaf = some v ∧
      v.InfersStep config.view key.dimension scale := by
  unfold settledSize? at h
  split at h
  · cases h
  · obtain ⟨v, hv, ⟨u, hkind, hentry⟩ | ⟨-, hentry⟩⟩ := keptSize?_eq_some config {} rfl h
    · apply exists_infersStep_of_ownSize config hl
      rw [ownSize_of_unit _ _ hv hkind]
      exact hentry.symm
    · obtain ⟨c, hc, hown⟩ := exists_head?_of_sharedSize config hentry.symm
      rw [getLast?_leftmost hc]
      exact exists_infersStep_of_ownSize config hl hown

/-! ## The scale that is found -/

/-- **The search for a scale goes the leftmost way first**, and so it ends on it if there is a scale
at its end. The induction goes down the tree: a view without a scale asks its first child first, and
by assumption something is found there. -/
theorem findScale?_eq_findSome?_leftmost {id leaf : ViewId} {channel : Channel}
    (hleaf : (t.leftmost id).getLast? = some leaf)
    (hscale : (t.scaleAt? leaf channel).isSome = true) :
    t.findScale? id channel = (t.leftmost id).findSome? (t.scaleAt? · channel) ∧
      (t.findScale? id channel).isSome = true := by
  induction id using t.downInduction with
  | step id ih =>
    have hfind : t.findScale? id channel = (t.scaleAt? id channel <|>
        (t.children id).findSome? fun c => t.findScale? c channel) := t.findScale?_eq id channel
    cases hself : t.scaleAt? id channel with
    | some own =>
      have hway : (t.leftmost id).findSome? (t.scaleAt? · channel) = some own := by
        cases hc : (t.children id).head? with
        | none => simp [leftmost_of_head?_eq_none hc, hself]
        | some c => simp [leftmost_of_head?_eq_some hc, hself]
      rw [hfind, hself, hway]
      exact ⟨rfl, rfl⟩
    | none =>
      cases hc : (t.children id).head? with
      | none =>
        -- The way ends here, where there is no scale.
        rw [leftmost_of_head?_eq_none hc] at hleaf
        obtain rfl : id = leaf := Option.some.inj hleaf
        rw [hself] at hscale
        cases hscale
      | some c =>
        rw [getLast?_leftmost hc] at hleaf
        obtain ⟨hsame, hfound⟩ := ih c (List.mem_of_head? hc) hleaf
        obtain ⟨scale, hscale⟩ := Option.isSome_iff_exists.mp hfound
        obtain ⟨rest, hrest⟩ := List.head?_eq_some_iff.mp hc
        have hid : t.findScale? id channel = some scale := by
          rw [hfind, hself, hrest, List.findSome?_cons, hscale]
          rfl
        have hway : (t.leftmost id).findSome? (t.scaleAt? · channel) = some scale := by
          rw [leftmost_of_head?_eq_some hc, List.findSome?_cons, hself, ← hscale, hsame]
        rw [hid, hway]
        exact ⟨rfl, rfl⟩

/-- **Where only unit views own scales**, the one on the leftmost way is the one at its end, because
a unit view has no children and so stands nowhere else on it. -/
theorem scale_eq_of_findSome?_leftmost (hl : t.Linked) {id leaf : ViewId} {channel : Channel}
    {scale own : Scale} (hleaf : (t.leftmost id).getLast? = some leaf)
    (hown : t.scaleAt? leaf channel = some own)
    (hscale : (t.leftmost id).findSome? (t.scaleAt? · channel) = some scale)
    (honly : ∀ x v, t.view? x = some v → v.kind.isUnit = false → v.scale? channel = none) :
    scale = own := by
  obtain ⟨x, hx, hxscale⟩ := List.exists_of_findSome?_eq_some hscale
  obtain ⟨v, hv, hvscale⟩ := Option.bind_eq_some_iff.mp hxscale
  have hunit : v.kind.isUnit = true := by
    by_contra hcomposite
    rw [honly x v hv (Bool.eq_false_iff.mpr hcomposite)] at hvscale
    cases hvscale
  have hend := getLast?_leftmost_of_childless hx (hl.children_of_isUnit hv hunit)
  rw [hleaf] at hend
  obtain rfl := Option.some.inj hend
  exact Option.some.inj (hxscale.symm.trans hown)

/-! ## Declared steps -/

/-- No view authors a size that is inferred. -/
theorem authored?_of_settledSize? {top id : ViewId} {key : LayoutKey} {size : Option LayoutSize}
    (h : t.settledSize? config {} top id key = some (.inferred size)) (hsize : size ≠ some .merged)
    {v : View} (hv : t.view? id = some v) : v.authored? key.dimension = none := by
  unfold settledSize? at h
  split at h
  · exact absurd (congrArg Explicit.value (Option.some.inj h)).symm hsize
  · obtain ⟨v', hv', ⟨u, hkind, hentry⟩ | ⟨hunit, -⟩⟩ := keptSize?_eq_some config {} rfl h
    · rw [hv] at hv'
      obtain rfl := Option.some.inj hv'
      rw [← View.leafEntry_of_unit hkind, View.leafEntry] at hentry
      cases hauthored : v.authored? key.dimension with
      | none => rfl
      | some spec =>
        rw [hauthored] at hentry
        exact absurd (congrArg Explicit.isExplicit hentry) Bool.false_ne_true
    · rw [hv] at hv'
      obtain rfl := Option.some.inj hv'
      rw [View.authored?, hunit]
      rfl

/-- What a size declares, its view declares. -/
theorem mem_viewSignals_of_sizeAt? {id : ViewId} {key : LayoutKey} {e : SizeEntry}
    (he : t.layout.sizeAt? id key = some e) {decl : SignalDecl}
    (h : decl ∈ (t.sizeSignals config id key e.value).value) :
    decl ∈ (t.viewSignals config id).value := by
  rw [value_viewSignals]
  exact List.mem_flatMap.mpr ⟨(key, e), (Table.mem_toList _ _ _).mpr he, h⟩

/-- **A size in steps for which a scale is found is declared**, beside the step of the scale, and nothing
is reported. -/
theorem sizeSignals_of_findScale? {id : ViewId} {key : LayoutKey} {scale : Scale}
    (h : t.findScale? id key.dimension.channel = some scale) :
    t.sizeSignals config id key (some .step) =
      pure [⟨scale.stepSignal, .value (t.stepSize config id key scale)⟩,
        ⟨t.sizeSignal id key, .update scale.bandExpression⟩] := by
  unfold sizeSignals
  dsimp only
  rw [h]

/-- Where no step is authored, a scale has the step of its range, or else the configured one. -/
theorem stepSize_of_authored?_eq_none {id : ViewId} {key : LayoutKey}
    (h : ∀ v, t.view? id = some v → v.authored? key.dimension = none) (scale : Scale) :
    t.stepSize config id key scale = scale.rangeStep?.getD config.view.step := by
  have hauthored : ((t.view? id).bind fun v => v.authoredStep? key) = none := by
    rw [Option.bind_eq_none_iff]
    intro v hv
    exact View.authoredStep?_of_authored?_eq_none (h v hv)
  unfold stepSize
  rw [hauthored]
  cases scale.rangeStep? <;> rfl

/-- **Every inferred size in steps is declared.** It was inferred for the unit view at the end of
the leftmost way, from a scale of categories. So a scale is found, which is the first one on that
way; its step, that of its range or else the configured one, and the size are declared with it, and
no scale is reported missing. Where only unit views own scales, this is the scale that the step was
inferred from.

Nothing is assumed of names: two scales may have the same name, and two views too. -/
theorem Grown.declares_inferred_step (h : t.Grown) {root : ViewId} (hroot : t.root = some root) :
    ∃ r, t.resolveTree config = .ok r ∧ ∀ id key,
      r.value.layout.sizeAt? id key = some (.inferred (some .step)) →
        ∃ leaf v own scale, (t.leftmost id).getLast? = some leaf ∧ t.view? leaf = some v ∧
          v.InfersStep config.view key.dimension own ∧
          r.value.findScale? id key.dimension.channel = some scale ∧
          (t.leftmost id).findSome? (t.scaleAt? · key.dimension.channel) = some scale ∧
          r.value.sizeSignals config id key (some .step) =
            pure [⟨scale.stepSignal, .value (scale.rangeStep?.getD config.view.step)⟩,
              ⟨r.value.sizeSignal id key, .update scale.bandExpression⟩] ∧
          ⟨r.value.sizeSignal id key, .update scale.bandExpression⟩ ∈
            (r.value.viewSignals config id).value ∧
          ((∀ x w, t.view? x = some w → w.kind.isUnit = false →
            w.scale? key.dimension.channel = none) → scale = own) := by
  refine ⟨_, resolveTree_of_root hroot config, fun id key hentry => ?_⟩
  have hl := h.linked
  have hsettled : t.settledSize? config {} root id key = some (.inferred (some .step)) :=
    (h.sizeAt?_resolve_root config hroot id key).symm.trans hentry
  obtain ⟨leaf, v, own, hleaf, hv, hinfers⟩ :=
    exists_infersStep_of_settledSize? config hl hsettled
  have hown : t.scaleAt? leaf key.dimension.channel = some own := by
    rw [scaleAt?, hv]
    exact hinfers.scale?_eq
  -- The leaf owns a scale, so the search comes to an end on the way to it.
  obtain ⟨hway, hfound⟩ := findScale?_eq_findSome?_leftmost hleaf (by rw [hown]; rfl)
  obtain ⟨scale, hscale⟩ := Option.isSome_iff_exists.mp hfound
  have hscale' : (t.onLayout (t.resolve config root)).value.findScale? id key.dimension.channel =
      some scale := (findScale?_withLayout _ id _).trans hscale
  -- A step that is inferred is authored nowhere, in particular not in the view itself.
  have hstep : (t.onLayout (t.resolve config root)).value.stepSize config id key scale =
      scale.rangeStep?.getD config.view.step :=
    stepSize_of_authored?_eq_none config
      (fun w hw => authored?_of_settledSize? config hsettled nofun hw) scale
  have hsignals := sizeSignals_of_findScale? config hscale'
  rw [hstep] at hsignals
  refine ⟨leaf, v, own, scale, hleaf, hv, hinfers, hscale', hway.symm.trans hscale, hsignals, ?_, ?_⟩
  · apply mem_viewSignals_of_sizeAt? config hentry
    rw [show (Explicit.inferred (some LayoutSize.step)).value = some .step from rfl, hsignals]
    exact List.mem_cons_of_mem _ (List.mem_singleton.mpr rfl)
  · intro honly
    exact scale_eq_of_findSome?_leftmost hl hleaf hown (hway.symm.trans hscale) honly

/-- A facet of a layer. The layer owns a scale in bands, and the first unit view in it an ordinal
one. -/
def facetedLayer : ViewTree :=
  grow { name := "trellis", kind := .facet }
    [(0, { name := "inner", kind := .layer, scales := .ofList [(.x, { name := "b", type := .band })] }),
      (1, { name := "cell", kind := .unit {},
            scales := .ofList [(.x, { name := "a", type := .ordinal })] }),
      (1, { name := "mark", kind := .unit {} })]

/-- The width of the facet's cells is inferred from the scale of the unit view, and counted with the
scale of the layer, which stands before it on the way down. -/
theorem inferred_facetedLayer :
    ∃ r, facetedLayer.resolveTree {} = .ok r ∧
      r.value.layout.sizeAt? 0 .childWidth = some (.inferred (some .step)) ∧
      (∃ v, facetedLayer.view? 2 = some v ∧
        v.InfersStep {} .width { name := "a", type := .ordinal }) ∧
      r.value.findScale? 0 .x = some { name := "b", type := .band } ∧
      r.value.sizeSignals {} 0 .childWidth (some .step) =
        pure [⟨"b_step", .value 20⟩,
          ⟨"trellis_child_width", .update "bandspace(domain('b').length, 0, 0) * b_step"⟩] := by
  have hroot : facetedLayer.root = some 0 := rfl
  obtain ⟨r, hr, hinferred⟩ :=
    Grown.declares_inferred_step (t := facetedLayer) {} (grown_grow _ _) hroot
  rw [resolveTree_of_root hroot] at hr
  obtain rfl := Except.ok.inj hr
  have hentry : (facetedLayer.onLayout (facetedLayer.resolve {} 0)).value.layout.sizeAt? 0 .childWidth =
      some (.inferred (some .step)) := by with_unfolding_all rfl
  obtain ⟨leaf, v, own, scale, hleaf, hv, hinfers, hscale, hway, hsignals, -, -⟩ :=
    hinferred 0 .childWidth hentry
  -- The way goes from the facet through the layer to the first unit view.
  rw [getLast?_leftmost (c := 1) rfl, getLast?_leftmost (c := 2) rfl,
    leftmost_of_head?_eq_none rfl] at hleaf
  rw [leftmost_of_head?_eq_some (c := 1) rfl, leftmost_of_head?_eq_some (c := 2) rfl] at hway
  obtain rfl := Option.some.inj hleaf
  obtain rfl := Option.some.inj hv
  obtain rfl := Option.some.inj hway
  obtain rfl := Option.some.inj hinfers.scale?_eq
  refine ⟨_, rfl, hentry, ⟨_, rfl, hinfers⟩, hscale, hsignals.trans ?_⟩
  with_unfolding_all rfl

end ViewTree

end ChartCompiler
