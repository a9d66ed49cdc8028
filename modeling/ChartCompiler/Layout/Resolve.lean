import ChartCompiler.Layout.Sharing
import ChartCompiler.View.Tree

/-!
# Settling layout sizes

Sizes are settled from the leaves up, so each view finds the sizes of its children settled.

* `View.unitEntry` — **the size of a unit view**: the authored one, else a default that depends on
  the scale of the dimension and on the configuration.
* `ViewTree.share` — **merges the children's sizes into one of the parent's**. Where they merge, the
  size signal of every child goes by the name of the parent's, and the child's own entry only says
  so. Where they do not, nothing but the parent's entry changes.
* `ViewTree.resolve` — settles a view and everything below it. Layers share the size of the view
  itself, the other composite views the size of one cell.
* `ViewTree.resolveTree` — settles a whole tree.
-/

namespace ChartCompiler

/-! ## Unit views -/

namespace View

/-- The size of a unit view that authors none. A discrete scale is counted in steps where its range
or the configuration gives a step; every other size is configured in pixels. -/
def defaultSize (v : View) (hasProjection : Bool) (config : ViewConfig) (d : Dimension) :
    LayoutSize :=
  let discrete := config.discreteSize d
  match v.scale? d.channel with
  | some scale =>
    if scale.type.hasDiscreteDomain then
      if scale.hasStepRange || discrete.isStep then .step else .pixels discrete.amount
    else .pixels (config.continuousSize d)
  | none => .pixels (if hasProjection then config.continuousSize d else discrete.amount)

/-- **The entry of a unit view** for its own size. -/
def unitEntry (v : View) (u : UnitView) (config : ViewConfig) (d : Dimension) : SizeEntry :=
  match u.size d with
  | some (.step _) => .authored (some .step)
  | some (.pixels amount) => .authored (some (.pixels amount))
  | none => .inferred (some (v.defaultSize u.hasProjection config d))

end View

namespace ViewTree

/-- The layout with the sizes of a unit view settled; any other view is left alone. -/
def resolveUnit (t : ViewTree) (config : Config) (id : ViewId) (l : Layout) : Layout :=
  match t.view? id with
  | some v =>
    match v.kind.unit? with
    | some u =>
      (l.setSize id .width (v.unitEntry u config.view .width)).setSize id .height
        (v.unitEntry u config.view .height)
    | none => l
  | none => l

/-! ## Composite views -/

/-- Whether a view's children have independent scales on a channel. -/
def isIndependent (t : ViewTree) (id : ViewId) (channel : Channel) : Bool :=
  (t.view? id).any fun v => v.sharing channel == .independent

/-- The layout in which every listed child leaves its size to the signal `shared`. -/
def leaveTo (t : ViewTree) (shared : String) (key : LayoutKey) (children : List ViewId)
    (l : Layout) : Layout :=
  children.foldl
    (fun l c => (l.rename (t.ownSizeSignal c key) shared).setSize c key .merged) l

/-- **Merges the children's sizes into one of the parent's.** -/
def share (t : ViewTree) (id : ViewId) (key : LayoutKey) (l : Layout) : Reported Layout := do
  let dimension := key.dimension
  let children := t.children id
  let merged ← mergeSizes (t.isIndependent id dimension.channel) { name := dimension.key.word }
    (children.map fun c => l.size c dimension.key)
  match merged with
  | .shared entry =>
    pure ((t.leaveTo (t.ownSizeSignal id key) dimension.key children l).setSize id key entry)
  | .childless => pure (l.setSize id key .unresolved)
  | .apart => do
    Reported.report (.independentSizes key.word ((t.view? id).elim "" View.name))
    pure (l.setSize id key .unresolved)

/-- Shares the width, then the height, under the given keys of the parent. -/
def shareBoth (t : ViewTree) (id : ViewId) (key : Dimension → LayoutKey) (l : Layout) :
    Reported Layout := do
  let l ← t.share id (key .width) l
  t.share id (key .height) l

/-- The key under which a composite view keeps the size that its children share. -/
def sharedKey : ViewKind → Dimension → LayoutKey
  | .layer => Dimension.key
  | _ => Dimension.cellKey

/-- **Settles a view and everything below it.** -/
def resolve (t : ViewTree) (config : Config) (id : ViewId) (l : Layout) : Reported Layout :=
  match t.view? id with
  | none => pure l
  | some v =>
    if v.kind.isUnit then pure (t.resolveUnit config id l)
    else do
      let l ← (t.children id).attach.foldlM (fun l c => t.resolve config c.1 l) l
      t.shareBoth id (sharedKey v.kind) l
termination_by t.size - id
decreasing_by exact size_sub_lt_of_mem_children c.2

/-- Settles everything below a view, child by child. -/
def resolveChildren (t : ViewTree) (config : Config) (id : ViewId) (l : Layout) :
    Reported Layout :=
  (t.children id).foldlM (fun l c => t.resolve config c l) l

/-- Settles everything below a view, and the sizes that its children share under the given keys. -/
def resolveComposite (t : ViewTree) (config : Config) (id : ViewId) (key : Dimension → LayoutKey)
    (l : Layout) : Reported Layout := do
  let l ← t.resolveChildren config id l
  t.shareBoth id key l

/-! ## Equations -/

/-- There is nothing to settle where there is no view. -/
theorem resolve_of_view?_none {t : ViewTree} {id : ViewId} (h : t.view? id = none)
    (config : Config) (l : Layout) : t.resolve config id l = pure l := by
  rw [resolve, h]

/-- A unit view is settled by itself. -/
theorem resolve_of_isUnit {t : ViewTree} {id : ViewId} {v : View} (h : t.view? id = some v)
    (hunit : v.kind.isUnit = true) (config : Config) (l : Layout) :
    t.resolve config id l = pure (t.resolveUnit config id l) := by
  rw [resolve, h]
  simp [hunit]

/-- A composite view is settled after its children. -/
theorem resolve_of_not_isUnit {t : ViewTree} {id : ViewId} {v : View} (h : t.view? id = some v)
    (hunit : v.kind.isUnit = false) (config : Config) (l : Layout) :
    t.resolve config id l = t.resolveComposite config id (sharedKey v.kind) l := by
  rw [resolve, h]
  simp [hunit, resolveComposite, resolveChildren]

/-! ## Whole trees -/

/-- The tree with its layout worked on. -/
def onLayout (t : ViewTree) (f : Layout → Reported Layout) : Reported ViewTree := do
  let l ← f t.layout
  pure { t with layout := l }

/-- **Settles a whole tree**, which must have a root. -/
def resolveTree (t : ViewTree) (config : Config) : Except TreeError (Reported ViewTree) :=
  match t.root with
  | some root => .ok (t.onLayout (t.resolve config root))
  | none => .error .noRoot

end ViewTree

end ChartCompiler
