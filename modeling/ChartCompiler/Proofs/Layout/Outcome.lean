import ChartCompiler.Proofs.Layout.Aliases

/-!
# Settling a grown tree

The recursion of `ViewTree.settledSize?` tells what settling leaves below any view of any linked
tree, from any layout. A tree that has just been grown is the case that matters first: it has no
sizes and no renames yet, and it is settled from its root, so nothing of what was there before is
left in the outcome.

* `ViewTree.Grown.sizeAt?_layout`, `ViewTree.Grown.renames_layout` — a grown tree has no sizes and
  no renames before it is settled.
* `ViewTree.resolve_withLayout` — what settling does depends on the layout it is given, and not on
  the one that the tree has.
* `ViewTree.Grown.sizes_resolveTree` — **settling a grown tree leaves the sizes told by recursion**,
  from a layout without sizes, and changes no view.

Trees whose sizes are to be settled afresh, and trees that are settled a second time, are the
subject of later modules; they use the general form `ViewTree.Linked.sizeAt?_resolve_root`.
-/

namespace ChartCompiler.ViewTree

variable {t : ViewTree}

/-! ## Before settling -/

namespace Grown

/-- A grown tree has no sizes: each view was added with the empty table, at a place of its own. -/
theorem sizeAt?_layout (h : t.Grown) (id : Nat) (key : LayoutKey) :
    t.layout.sizeAt? id key = none := by
  have hplace : ∀ {l : Layout} {place : Nat}, l.sizeAt? id key = none →
      (l.setSizes place ∅).sizeAt? id key = none := by
    intro l place hl
    unfold Layout.sizeAt? at hl ⊢
    rw [Layout.sizes_setSizes]
    split
    · rfl
    · exact hl
  induction h with
  | empty => rfl
  | root _ added ih =>
    obtain ⟨-, -, rfl⟩ := addRoot_eq_ok added
    exact hplace ih
  | child _ added ih =>
    obtain ⟨-, -, rfl⟩ := addChild_eq_ok added
    exact hplace ih

/-- A grown tree has no renames: growing never renames a signal. -/
theorem renames_layout (h : t.Grown) : t.layout.renames = ∅ := by
  induction h with
  | empty => rfl
  | root _ added ih =>
    obtain ⟨-, -, rfl⟩ := addRoot_eq_ok added
    exact ih
  | child _ added ih =>
    obtain ⟨-, -, rfl⟩ := addChild_eq_ok added
    exact ih

end Grown

/-! ## The layout that is settled -/

/-- A tree with a root is settled from its root, and settling it never fails. -/
theorem resolveTree_of_root {root : ViewId} (hroot : t.root = some root) (config : Config) :
    t.resolveTree config = .ok (t.onLayout (t.resolve config root)) := by
  unfold resolveTree
  rw [hroot]

section withLayout

variable (config : Config) (l : Layout)

/-- A pass over views depends on what it does to each of them, and not on what it would do to
others. -/
theorem foldlM_congr_of_mem {ids : List ViewId} {f g : ViewId → Layout → Reported Layout}
    (h : ∀ c ∈ ids, f c = g c) (l : Layout) :
    ids.foldlM (fun l c => f c l) l = ids.foldlM (fun l c => g c l) l := by
  induction ids generalizing l with
  | nil => rfl
  | cons c rest ih =>
    rw [List.foldlM_cons, List.foldlM_cons, h c List.mem_cons_self]
    exact bind_congr fun l => ih (fun b hb => h b (List.mem_cons_of_mem _ hb)) l

/-- Settling works on the layout it is given, whatever the layout of the tree is. The induction goes
down the tree; a composite view passes the layout on from child to child. -/
theorem resolve_withLayout (id : ViewId) :
    ({ t with layout := l } : ViewTree).resolve config id = t.resolve config id := by
  induction id using t.downInduction with
  | step id ih =>
    funext l'
    cases hv : t.view? id with
    | none =>
      have hv' : ({ t with layout := l } : ViewTree).view? id = none := hv
      rw [resolve_of_view?_none hv, resolve_of_view?_none hv']
    | some v =>
      have hv' : ({ t with layout := l } : ViewTree).view? id = some v := hv
      cases hunit : v.kind.isUnit with
      | true =>
        rw [resolve_of_isUnit hv hunit, resolve_of_isUnit hv' hunit]
        rfl
      | false =>
        rw [resolve_of_not_isUnit hv hunit, resolve_of_not_isUnit hv' hunit]
        have hchildren : ({ t with layout := l } : ViewTree).resolveChildren config id l' =
            t.resolveChildren config id l' := foldlM_congr_of_mem ih l'
        unfold resolveComposite
        rw [hchildren]
        rfl

/-- Which views lie below a view does not depend on the layout. -/
theorem subtree_withLayout (id : ViewId) :
    ({ t with layout := l } : ViewTree).subtree id = t.subtree id := by
  induction id using t.downInduction with
  | step id ih =>
    rw [subtree_eq, subtree_eq]
    congr 1
    exact List.flatMap_congr ih

/-- A whole tree is settled from the layout it has. -/
theorem resolveTree_withLayout {root : ViewId} (hroot : t.root = some root) :
    ({ t with layout := l } : ViewTree).resolveTree config =
      .ok (({ t with layout := l } : ViewTree).onLayout (t.resolve config root)) := by
  rw [resolveTree_of_root (t := { t with layout := l }) hroot, resolve_withLayout]

end withLayout

/-! ## After settling -/

/-- Where there is no view, what was there is left: it has no parent that could take it away. -/
theorem settledSize?_of_view?_none (config : Config) {before : Layout} {top id : ViewId}
    (hv : t.view? id = none) (key : LayoutKey) :
    t.settledSize? config before top id key = before.sizeAt? id key := by
  have hparent : t.parent? id = none := by rw [parent?, hv]; rfl
  rw [settledSize?, leavesSize, hparent, keptSize?, hv]
  exact if_neg fun hleaves => Bool.false_ne_true hleaves.2.2

/-- The entries of a linked tree settled from its root are those told by recursion, at every place:
below the root lie all views, and everywhere else nothing is written. -/
theorem Linked.sizeAt?_resolve_root (hl : t.Linked) (config : Config) {root : ViewId}
    (hroot : t.root = some root) (l : Layout) (id : Nat) (key : LayoutKey) :
    (t.resolve config root l).value.sizeAt? id key = t.settledSize? config l root id key := by
  rw [sizeAt?_resolve config hl]
  by_cases hid : id ∈ t.subtree root
  · rw [if_pos hid]
  · -- What does not lie below the root is no view at all.
    obtain rfl := hl.root_eq_zero hroot
    have hview : t.view? id = none := view?_eq_none_iff.mpr
      (Nat.le_of_not_lt fun hlt => hid (hl.mem_subtree_root hlt))
    rw [if_neg hid, settledSize?_of_view?_none config hview]

namespace Grown

/-- The sizes of a grown tree before settling are those of a layout without any. -/
theorem sizeAt?_eq_empty (h : t.Grown) (id : Nat) (key : LayoutKey) :
    t.layout.sizeAt? id key = ({} : Layout).sizeAt? id key := h.sizeAt?_layout id key

/-- For a grown tree there is nothing before, so its own layout may be read as the empty one. -/
theorem sizeAt?_resolve_root (h : t.Grown) (config : Config) {root : ViewId}
    (hroot : t.root = some root) (id : Nat) (key : LayoutKey) :
    (t.resolve config root t.layout).value.sizeAt? id key =
      t.settledSize? config {} root id key := by
  have hshared : ∀ p d, t.sharedSize config t.layout d p = t.sharedSize config {} d p :=
    fun p d => sharedSize_congr config (fun x _ k => h.sizeAt?_eq_empty x k) d
  have hleaves : ∀ d, t.leavesSize config t.layout d id = t.leavesSize config {} d id :=
    fun d => by simp only [leavesSize, hshared]
  rw [h.linked.sizeAt?_resolve_root config hroot, settledSize?, settledSize?, hleaves,
    keptSize?_congr config fun x _ k => h.sizeAt?_eq_empty x k]

/-- **Settling a grown tree leaves the sizes told by recursion**, and changes no view. The pass
itself works on one layout, in which children are written over by their parents; the recursion works
on none. That both agree at every view and under every key says that each read of the pass sees the
entry that the child has come to, and never the mark that has replaced it. -/
theorem sizes_resolveTree (h : t.Grown) (config : Config) {root : ViewId}
    (hroot : t.root = some root) :
    ∃ r, t.resolveTree config = .ok r ∧ r.value.views = t.views ∧ r.value.root = t.root ∧
      ∀ id key, r.value.layout.sizeAt? id key = t.settledSize? config {} root id key :=
  ⟨_, resolveTree_of_root hroot config, rfl, rfl, h.sizeAt?_resolve_root config hroot⟩

end Grown

/-! ## A plot beside bands -/

/-- A page of a plot and of a view with bands. The plot layers a line through a continuous scale
under bars whose width is authored; the bands beside it have a step of their own. -/
def plotBesideBands : ViewTree :=
  grow { name := "page", kind := .concat }
    [(0, { name := "plot", kind := .layer }),
      (1, { name := "line", kind := .unit {},
            scales := .ofList [(.x, { name := "line_x", type := .linear })] }),
      (1, { name := "bars", kind := .unit { width := some (.pixels 70) } }),
      (0, { name := "bands", kind := .unit {},
            scales := .ofList
              [(.x, { name := "bands_x", type := .band, range := some (.step 30) })] })]

/-- The authored width of the bars goes before the one inferred for the line, so the plot has it and
both leave theirs to it. The width of the bands is counted in steps, so the page has no width for
its cells, and each cell keeps its own. The heights are all inferred alike, so they are left to the
page. -/
theorem sizes_plotBesideBands :
    ∃ r, plotBesideBands.resolveTree {} = .ok r ∧
      r.value.layout.sizeAt? 0 .childWidth = some .unresolved ∧
      r.value.layout.sizeAt? 1 .width = some (.authored (some (.pixels 70))) ∧
      r.value.layout.sizeAt? 2 .width = some .merged ∧
      r.value.layout.sizeAt? 3 .width = some .merged ∧
      r.value.layout.sizeAt? 4 .width = some (.inferred (some .step)) ∧
      r.value.layout.sizeAt? 0 .childHeight = some (.inferred (some (.pixels 20))) ∧
      r.value.layout.sizeAt? 1 .height = some .merged ∧
      r.value.layout.sizeAt? 4 .height = some .merged := by
  obtain ⟨r, hr, -, -, hsizes⟩ :=
    (show plotBesideBands.Grown from grown_grow _ _).sizes_resolveTree {} rfl
  refine ⟨r, hr, ?_, ?_, ?_, ?_, ?_, ?_, ?_, ?_⟩ <;> rw [hsizes] <;> with_unfolding_all rfl

end ChartCompiler.ViewTree
