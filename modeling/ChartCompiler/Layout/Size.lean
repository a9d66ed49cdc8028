import ChartCompiler.Explicit.Table
import ChartCompiler.Layout.Key

/-!
# Layout sizes

* `LayoutSize` — the size of a view along one dimension once layout has settled it.
* `SizeTable` — the sizes of one view. An unset entry is a size that layout could not settle.
-/

namespace ChartCompiler

/-- **The size of a view along one dimension.** -/
inductive LayoutSize
  /-- A fixed number of pixels. -/
  | pixels (amount : Float)
  /-- As many steps as there are categories when the chart is drawn. -/
  | step
  /-- The parent's shared size holds for this view. -/
  | merged
deriving BEq, Inhabited

namespace LayoutSize

/-- A size in a message, with its kind. -/
instance : Diagnostic LayoutSize where
  diagnostic
    | pixels amount => "Pixels(" ++ diagnostic amount ++ ")"
    | step => "Step"
    | merged => "Merged"

/-- Whether the size is counted in steps. -/
def isStep : LayoutSize → Bool
  | step => true
  | _ => false

end LayoutSize

/-- A size that may be unsettled, and whether it was authored. -/
abbrev SizeEntry : Type := Explicit (Option LayoutSize)

/-- The entry of a size that layout could not settle. -/
def SizeEntry.unresolved : SizeEntry := .inferred none

/-- The entry of a size that the parent's shared size stands for. -/
def SizeEntry.merged : SizeEntry := .inferred (some .merged)

/-- **The sizes of one view.** -/
abbrev SizeTable : Type := PropertyTable LayoutKey LayoutSize

end ChartCompiler
