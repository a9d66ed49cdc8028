import ChartCompiler.Proofs.Layout.Declarations
import ChartCompiler.Proofs.Layout.References

/-!
# Where references land

A reference to the size of a unit view reads a signal that is declared only if the size is settled
where it is held. Children can leave their sizes to a parent that has none itself: the first of them
may be a container, which does not size itself. Then they are renamed to a signal that nobody
declares.

* `ViewTree.StepsHaveScales` — a unit view that authors a step owns the scale to count it with.
* `StepsHaveScales.isSome_findScale?_of_settledSize?` — then every settled size in steps has a
  scale.
* `ViewTree.Grown.mem_declared_iff_settled` — **a size that keeps its name is declared exactly when
  it is settled**.
* `ViewTree.Grown.mem_declared_sizeSignal_iff` — **when a reference lands on a declared signal**:
  the unit view holds its size itself, or the size that the children share where it is held is
  settled.
* `ViewTree.dangling_layeredCells` — a reference that lands nowhere, in a tree of four views.

A size in steps is declared together with the step of its scale, and not at all if there is no scale
to count with. Inferred sizes in steps always have one; authored ones need not, which is why the
theorems ask for it.
-/

namespace ChartCompiler.ViewTree

variable {t : ViewTree} (config : Config)

/-! ## Scales for sizes in steps -/

/-- **A unit view that authors a step owns the scale** that the size is counted with. Without one,
the size would be settled in steps and never declared. -/
def StepsHaveScales (t : ViewTree) : Prop :=
  ∀ (id : ViewId) (v : View) (u : UnitView) (d : Dimension) (step : Float),
    t.view? id = some v → v.kind = .unit u → u.size d = some (.step step) →
      ∃ scale, v.scale? d.channel = some scale

/-- A scale that is found below a child is found below the view, unless the view has one itself; in
either case one is found. -/
theorem isSome_findScale?_of_child {id c : ViewId} {channel : Channel} (hc : c ∈ t.children id)
    (h : (t.findScale? c channel).isSome = true) : (t.findScale? id channel).isSome = true := by
  have hbelow : ((t.children id).findSome? fun c => t.findScale? c channel).isSome = true :=
    List.findSome?_isSome_iff.mpr ⟨c, hc, h⟩
  rw [findScale?_eq]
  cases (t.view? id).bind fun v => v.scale? channel with
  | none => exact hbelow
  | some scale => rfl

/-- A unit view whose size is counted in steps owns a scale: by assumption where the step is
authored, and by the table of unit sizes where it is inferred. -/
theorem StepsHaveScales.isSome_scale? (h : t.StepsHaveScales) {id : ViewId} {v : View} {u : UnitView}
    (hv : t.view? id = some v) (hkind : v.kind = .unit u) {d : Dimension}
    (hstep : (v.unitEntry u config.view d).value = some .step) :
    (v.scale? d.channel).isSome = true := by
  rw [View.unitEntry_eq_tableEntry] at hstep
  rcases value_unitSize_eq_step_iff.mp hstep with ⟨step, hsize⟩ | ⟨-, hextent⟩
  · obtain ⟨scale, hscale⟩ := h id v u d step hv hkind hsize
    rw [hscale]
    rfl
  · cases hscale : v.scale? d.channel with
    | some scale => rfl
    | none =>
      rw [hscale, Option.map_none] at hextent
      rcases hextent with ⟨⟨⟩⟩ | ⟨⟨⟩, -⟩

/-- A view that comes to a size in steps by itself has a scale at or below it. The induction goes
down the tree: a layer has its size from one of its children. -/
theorem StepsHaveScales.isSome_findScale?_of_ownSize (h : t.StepsHaveScales) {d : Dimension}
    {id : ViewId} (hstep : (t.ownSize config {} d id).value = some .step) :
    (t.findScale? id d.channel).isSome = true := by
  induction id using t.downInduction with
  | step id ih =>
    cases hv : t.view? id with
    | none =>
      rw [ownSize_of_view?_none _ _ hv] at hstep
      cases hstep
    | some v =>
      cases hkind : v.kind with
      | unit u =>
        rw [ownSize_of_unit _ _ hv hkind] at hstep
        obtain ⟨scale, hscale⟩ :=
          Option.isSome_iff_exists.mp (h.isSome_scale? config hv hkind hstep)
        rw [findScale?_eq, hv, Option.bind_some, hscale]
        rfl
      | layer =>
        rw [ownSize_of_layer _ _ hv hkind] at hstep
        obtain ⟨c, hc, hvalue⟩ := exists_of_value_sharedSize config hstep
        exact isSome_findScale?_of_child hc (ih c hc hvalue)
      | _ =>
        rw [ownSize_of_container _ _ hv (by rw [hkind]; rfl) (by rw [hkind]; simp)] at hstep
        cases hstep

/-- **Every settled size in steps has a scale** to count it with, at the view or below it. The size
may have come up from a view further down than the scale that is found for it. -/
theorem StepsHaveScales.isSome_findScale?_of_settledSize? (h : t.StepsHaveScales) {id : Nat}
    {key : LayoutKey} {e : SizeEntry} (he : t.settledSize? config {} 0 id key = some e)
    (hstep : e.value = some .step) : (t.findScale? id key.dimension.channel).isSome = true := by
  unfold settledSize? at he
  split at he
  · obtain rfl := Option.some.inj he
    cases hstep
  · obtain ⟨v, hv, ⟨u, hkind, rfl⟩ | ⟨-, rfl⟩⟩ := keptSize?_eq_some config {} rfl he
    · obtain ⟨scale, hscale⟩ := Option.isSome_iff_exists.mp (h.isSome_scale? config hv hkind hstep)
      rw [findScale?_eq, hv, Option.bind_some, hscale]
      rfl
    · obtain ⟨c, hc, hvalue⟩ := exists_of_value_sharedSize config hstep
      exact isSome_findScale?_of_child hc (h.isSome_findScale?_of_ownSize config hvalue)

/-! ## Settled sizes where they are held -/

/-- A parent keeps the size that its children share. -/
theorem Linked.keptSize?_of_parent? (hl : t.Linked) {c p : ViewId} {v : View}
    (hp : t.parent? c = some p) (hv : t.view? p = some v) (d : Dimension) :
    t.keptSize? config {} p (t.parentKey p d) = some (t.sharedSize config {} d p).entry :=
  keptSize?_of_composite config {} hv
    (ViewKind.unit?_eq_none_iff.mpr (hl.isUnit_of_parent? hp hv)) d

/-- **The entry where a size is held**: the view's own, or what the children of the holder share. In
the second case the holder stands before the view and the entry is no mark of a merged size. -/
theorem Linked.settledSize?_of_heldAt (hl : t.Linked) {d : Dimension} {c holder : Nat}
    {key : LayoutKey} (hheld : t.HeldAt config {} d c holder key) :
    (holder = c ∧ key = d.key ∧ t.leavesSize config {} d c = false) ∨
      (holder < c ∧ key.dimension = d ∧ t.settledSize? config {} 0 holder key =
        some (t.sharedSize config {} d holder).entry) := by
  induction hheld with
  | self keeps => exact .inl ⟨rfl, rfl, keeps⟩
  | @cell c p v parent leaves view container =>
    have hkept := hl.keptSize?_of_parent? config parent view d
    rw [parentKey_of_container view container] at hkept
    have hne : d.cellKey ≠ d.key := by cases d <;> simp [Dimension.key, Dimension.cellKey]
    refine .inr ⟨lt_of_parent? parent, Dimension.dimension_cellKey d, ?_⟩
    rw [settledSize?, Dimension.dimension_cellKey, if_neg fun h => hne h.2.1]
    exact hkept
  | @layer c p holder key v parent leaves view isLayer held ih =>
    have hlt := lt_of_parent? parent
    rcases ih with ⟨rfl, rfl, hkeeps⟩ | ⟨hholder, hkey, hentry⟩
    · have hkept := hl.keptSize?_of_parent? config parent view d
      rw [parentKey_of_layer view isLayer] at hkept
      refine .inr ⟨hlt, Dimension.dimension_key d, ?_⟩
      rw [settledSize?, Dimension.dimension_key, hkeeps, if_neg fun h => Bool.false_ne_true h.2.2]
      exact hkept
    · exact .inr ⟨Nat.lt_trans hholder hlt, hkey, hentry⟩

/-! ## Declared names -/

/-- The scale that is found does not depend on the layout. -/
theorem findScale?_withLayout (l : Layout) (id : ViewId) (channel : Channel) :
    ({ t with layout := l } : ViewTree).findScale? id channel = t.findScale? id channel := by
  induction id using t.downInduction with
  | step id ih =>
    have hbelow : (t.children id).findSome?
          (fun c => ({ t with layout := l } : ViewTree).findScale? c channel) =
        (t.children id).findSome? fun c => t.findScale? c channel := by
      rw [← List.head?_filterMap, ← List.head?_filterMap, List.filterMap_congr ih]
    rw [findScale?_eq, findScale?_eq, ← hbelow]
    rfl

/-- The name that a reference reads once the layout has been worked on. -/
theorem sizeSignal_onLayout (f : Layout → Reported Layout) (id : ViewId) (key : LayoutKey) :
    (t.onLayout f).value.sizeSignal id key =
      (f t.layout).value.renames.resolve (t.ownSizeSignal id key) := rfl

namespace Grown

variable (h : t.Grown) (hnames : t.DistinctSizeSignals) {root : Nat} (hroot : t.root = some root)

include h hnames hroot

/-- A size that is not marked as merged keeps its name: there is no rename of it, and so a look-up
ends at once. -/
theorem resolve_ownSizeSignal {c : Nat} (hc : c < t.size) {key : LayoutKey}
    (hkeeps : t.settledSize? config {} 0 c key ≠ some .merged) :
    (t.resolve config root t.layout).value.renames.resolve (t.ownSizeSignal c key) =
      t.ownSizeSignal c key := by
  have hhas := mt (h.has_resolve_iff config hnames hroot hc key).mp
    (mt (settledSize?_eq_merged_iff config).mpr hkeeps)
  have htarget : (t.resolve config root t.layout).value.renames.target? (t.ownSizeSignal c key) =
      none := Option.not_isSome_iff_eq_none.mp hhas
  exact (Renames.Leads.stop (Renames.next?_eq_none_of_target? htarget)).resolve_eq

/-- A name that is declared is that of a settled size, and not the name of a step. What is declared
is the name of some size, or of some step; a step has another ending, and a size of that name is
this one. -/
theorem settled_of_mem_declared {c : Nat} (hc : c < t.size) {key : LayoutKey}
    (hmem : t.ownSizeSignal c key ∈ (t.onLayout (t.resolve config root)).value.declared config) :
    ∃ e, t.settledSize? config {} 0 c key = some e ∧ e.value ≠ none := by
  have hl := h.linked
  obtain rfl := hl.root_eq_zero hroot
  obtain ⟨v, hv⟩ := exists_view? hc
  obtain ⟨id, -, key', e, hentry, hname⟩ := (mem_declared_iff _ config).mp hmem
  have he : t.settledSize? config {} 0 id key' = some e :=
    (h.sizeAt?_resolve_root config hroot id key').symm.trans hentry
  have hid : id < t.size := by
    refine Nat.lt_of_not_le fun hle => ?_
    rw [settledSize?_of_view?_none config (view?_eq_none_iff.mpr hle)] at he
    cases he
  -- A size that is declared keeps its name, so the name tells which one it is.
  have hsame : ∀ {size : LayoutSize}, e.value = some size → size ≠ .merged →
      t.ownSizeSignal c key = (t.onLayout (t.resolve config 0)).value.sizeSignal id key' →
        ∃ e, t.settledSize? config {} 0 c key = some e ∧ e.value ≠ none := by
    intro size hsize hmerged hname
    have hkeeps : t.settledSize? config {} 0 id key' ≠ some .merged := by
      intro hm
      rw [he] at hm
      rw [Option.some.inj hm] at hsize
      exact hmerged (Option.some.inj hsize).symm
    rw [sizeSignal_onLayout, h.resolve_ownSizeSignal config hnames hroot hid hkeeps] at hname
    obtain ⟨rfl, rfl⟩ := hnames.eq_of_ownSizeSignal_eq hc hid hname
    exact ⟨e, he, by rw [hsize]; exact Option.some_ne_none _⟩
  rcases (mem_sizeSignals_iff _ config).mp hname with
    ⟨amount, hsize, hname⟩ | ⟨hsize, scale, -, hname | hname⟩
  · exact hsame hsize nofun hname
  · rw [ownSizeSignal, hv] at hname
    exact absurd hname.symm (scale.stepSignal_ne_sizeSignal v key)
  · exact hsame hsize nofun hname

/-- A settled size that keeps its name is declared under it. All views lie below the root, so the
walk over the tree comes by this one. -/
theorem mem_declared_of_settled (hscales : t.StepsHaveScales) {c : Nat} (hc : c < t.size)
    {key : LayoutKey} {e : SizeEntry} (he : t.settledSize? config {} 0 c key = some e)
    (hkeeps : e ≠ .merged) (hvalue : e.value ≠ none) :
    t.ownSizeSignal c key ∈ (t.onLayout (t.resolve config root)).value.declared config := by
  have hl := h.linked
  obtain rfl := hl.root_eq_zero hroot
  have hmem : c ∈ (t.onLayout (t.resolve config 0)).value.subtree 0 :=
    (hl.withLayout _).mem_subtree_root hc
  have hroot' : (t.onLayout (t.resolve config 0)).value.root.toList = [0] := by
    change t.root.toList = [0]
    rw [hroot]
    rfl
  have hname : (t.onLayout (t.resolve config 0)).value.sizeSignal c key = t.ownSizeSignal c key :=
    h.resolve_ownSizeSignal config hnames hroot hc fun hm =>
      hkeeps (Option.some.inj (he.symm.trans hm))
  rw [mem_declared_iff, hroot', List.flatMap_singleton]
  refine ⟨c, hmem, key, e, (h.sizeAt?_resolve_root config hroot c key).trans he, ?_⟩
  rw [mem_sizeSignals_iff, hname]
  obtain ⟨size, hsize⟩ := Option.ne_none_iff_exists'.mp hvalue
  cases size with
  | pixels amount => exact .inl ⟨amount, hsize, rfl⟩
  | step =>
    obtain ⟨scale, hscale⟩ := Option.isSome_iff_exists.mp
      (hscales.isSome_findScale?_of_settledSize? config he hsize)
    exact .inr ⟨hsize, scale, (findScale?_withLayout _ c _).trans hscale, .inr rfl⟩
  | merged => exact absurd (eq_merged_of_settledSize? config he hsize) hkeeps

/-- **A size that keeps its name is declared exactly when it is settled.** -/
theorem mem_declared_iff_settled (hscales : t.StepsHaveScales) {c : Nat} (hc : c < t.size)
    {key : LayoutKey} {e : SizeEntry} (he : t.settledSize? config {} 0 c key = some e)
    (hkeeps : e ≠ .merged) :
    t.ownSizeSignal c key ∈ (t.onLayout (t.resolve config root)).value.declared config ↔
      e.value ≠ none := by
  constructor
  · intro hmem
    obtain ⟨e', he', hvalue⟩ := h.settled_of_mem_declared config hnames hroot hc hmem
    obtain rfl := Option.some.inj (he.symm.trans he')
    exact hvalue
  · exact h.mem_declared_of_settled config hnames hroot hscales hc he hkeeps

/-- **When a reference lands on a declared signal.** A unit view that holds its size itself declares
it; what it has left to a parent is declared exactly if the size that the children share where it is
held is settled.

The theorem also says that the size is held somewhere, so the condition is never empty. It speaks of
unit views, whose marks make the references; a layer in between is covered by the way up from its
units. -/
theorem mem_declared_sizeSignal_iff (hscales : t.StepsHaveScales) :
    ∃ r, t.resolveTree config = .ok r ∧
      ∀ (id : ViewId) (v : View) (d : Dimension), t.view? id = some v → v.kind.isUnit = true →
        (∃ holder key, t.HeldAt config {} d id holder key) ∧
          ∀ holder key, t.HeldAt config {} d id holder key →
            (r.value.sizeSignal id d.key ∈ r.value.declared config ↔
              holder = id ∨ (t.sharedSize config {} d holder).entry.value ≠ none) := by
  refine ⟨_, resolveTree_of_root hroot config, fun id v d hv hunit =>
    ⟨exists_heldAt t config {} d id, fun holder key hheld => ?_⟩⟩
  have hl := h.linked
  have hid : id < t.size := lt_size_of_view? hv
  rw [sizeSignal_onLayout, h.resolve_of_heldAt config hnames hroot hid hheld]
  -- Either the view holds its size itself, or a view above it holds what the children share.
  rcases hl.settledSize?_of_heldAt config hheld with ⟨rfl, rfl, hkeeps⟩ | ⟨hlt, -, hentry⟩
  · obtain ⟨u, hkind⟩ := ViewKind.exists_of_isUnit hunit
    have hentry : t.settledSize? config {} 0 holder d.key =
        some (v.unitEntry u config.view d) := by
      rw [settledSize?, Dimension.dimension_key, hkeeps, if_neg fun h => Bool.false_ne_true h.2.2]
      exact keptSize?_of_unit config {} hv hkind d
    have hmerged : v.unitEntry u config.view d ≠ .merged := fun hm =>
      v.value_unitEntry_ne_merged u config.view d (congrArg Explicit.value hm)
    rw [h.mem_declared_iff_settled config hnames hroot hscales hid hentry hmerged]
    exact iff_of_true (v.value_unitEntry_ne_none u config.view d) (.inl rfl)
  · have hmerged : (t.sharedSize config {} d holder).entry ≠ .merged := fun hm =>
      value_sharedSize_ne_merged config d holder (congrArg Explicit.value hm)
    rw [h.mem_declared_iff_settled config hnames hroot hscales (Nat.lt_trans hlt hid) hentry
      hmerged]
    constructor
    · exact .inr
    · rintro (rfl | hvalue)
      · exact absurd hlt (Nat.lt_irrefl _)
      · exact hvalue

end Grown

/-! ## A reference that lands nowhere -/

/-- No view of the layer over a container authors a step, so none needs a scale for it. -/
theorem stepsHaveScales_layeredCells : layeredCells.StepsHaveScales := by
  intro id v u d step hv hkind hsize
  have hnone : ∀ w ∈ layeredCells.views.toList, w.kind.unit?.bind (UnitView.size · d) = none := by
    cases d <;> decide
  have := hnone v (Array.mem_toList_iff.mpr (Array.mem_of_getElem? hv))
  rw [hkind] at this
  change u.size d = none at this
  rw [this] at hsize
  cases hsize

/-- The reference of the cell lands, since the container's cells share a size; that of the unit view
beside the container does not, since the layer's first child has no size to share. -/
theorem landing_layeredCells :
    ∃ r, layeredCells.resolveTree {} = .ok r ∧
      r.value.sizeSignal 2 .width ∈ r.value.declared {} ∧
      r.value.sizeSignal 3 .width ∉ r.value.declared {} := by
  obtain ⟨r, hr, hland⟩ := Grown.mem_declared_sizeSignal_iff (t := layeredCells) {} (grown_grow _ _)
    (by decide +kernel) rfl stepsHaveScales_layeredCells
  refine ⟨r, hr, ?_, ?_⟩
  · have hheld : layeredCells.HeldAt {} {} .width 2 1 .childWidth :=
      .cell rfl (by decide +kernel) rfl nofun
    have hshared : layeredCells.sharedSize {} {} .width 1 =
      .shared (.inferred (some (.pixels 20))) := by with_unfolding_all rfl
    refine ((hland 2 _ .width rfl rfl).2 1 _ hheld).mpr (.inr ?_)
    rw [hshared]
    exact Option.some_ne_none _
  · have hheld : layeredCells.HeldAt {} {} .width 3 0 .width :=
      .layer rfl (by decide +kernel) rfl rfl (.self (by decide +kernel))
    have hshared : layeredCells.sharedSize {} {} .width 0 = .shared .unresolved := by
      with_unfolding_all rfl
    refine mt ((hland 3 _ .width rfl rfl).2 0 _ hheld).mp ?_
    rw [hshared]
    rintro (hself | hvalue)
    · cases hself
    · exact hvalue rfl

/-- **A reference can land nowhere**, though all names are distinct and no view authors a step: the
width of the mark reads `outer_width`, which the layer never declares. -/
theorem dangling_layeredCells :
    layeredCells.Grown ∧ layeredCells.DistinctSizeSignals ∧ layeredCells.StepsHaveScales ∧
      ∃ r, layeredCells.resolveTree {} = .ok r ∧
        r.value.sizeSignal 3 .width = "outer_width" ∧ "outer_width" ∉ r.value.declared {} :=
  ⟨grown_grow _ _, by decide +kernel, stepsHaveScales_layeredCells, _, rfl, by decide +kernel,
    by decide +kernel⟩

end ChartCompiler.ViewTree
