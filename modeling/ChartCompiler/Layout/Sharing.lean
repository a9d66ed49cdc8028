import ChartCompiler.Explicit
import ChartCompiler.Layout.Size

/-!
# Sharing one size among children

* `MergedSize` — what becomes of the sizes of a view's children: there are none, independent scales
  keep them apart, or they merge into one.
* `mergeSizes` — **merges the children's sizes in order**. With shared scales they always merge, an
  authored size outranking inferred ones. With independent scales they merge only if all children
  agree on a size that does not depend on a scale, since children counted in steps of their own
  scales can grow apart when the chart is drawn.
-/

namespace ChartCompiler

/-- **What becomes of the sizes of a view's children.** -/
inductive MergedSize
  /-- There are no children. -/
  | childless
  /-- Independent scales keep the children's sizes apart. -/
  | apart
  /-- One size holds for all children. -/
  | shared (entry : SizeEntry)

/-- Whether the sizes of children with independent scales keep apart: the later one is counted in
steps, or differs from the one before it. -/
def keepsApart (current later : SizeEntry) : Bool :=
  later.value.any LayoutSize.isStep || current.value != later.value

/-- Merges further sizes into the current one; none if they keep apart. -/
def mergeOnto (independent : Bool) (property : Property) (current : SizeEntry) :
    List SizeEntry → Reported (Option SizeEntry)
  | [] => pure (some current)
  | later :: rest =>
    if independent && keepsApart current later then pure none
    else do
      let merged ← Explicit.merge property current later
      mergeOnto independent property merged rest

/-- **Merges the children's sizes in order.** -/
def mergeSizes (independent : Bool) (property : Property) : List SizeEntry → Reported MergedSize
  | [] => pure .childless
  | first :: rest =>
    if independent && first.value.any LayoutSize.isStep then pure .apart
    else do
      let merged ← mergeOnto independent property first rest
      pure (merged.elim .apart .shared)

end ChartCompiler
