import ChartCompiler.Channel

/-!
# Dimensions and layout keys

* `Dimension` — width or height; each is determined by the scale of one positional channel.
* `LayoutKey` — what a view's table of sizes is keyed by. A container of cells sizes its cells
  (`childWidth`, `childHeight`), which is not its own size.
-/

namespace ChartCompiler

/-- **A dimension of a view.** -/
inductive Dimension
  | width
  | height
deriving DecidableEq, Repr, Inhabited

namespace Dimension

/-- Both dimensions, in order. -/
def all : List Dimension := [width, height]

/-- The word of a dimension. -/
def word : Dimension → String
  | width => "width"
  | height => "height"

/-- The positional channel whose scale determines the dimension. -/
def channel : Dimension → Channel
  | width => .x
  | height => .y

/-- The dimension that a channel or the range it ends determines. -/
def ofChannel? (c : Channel) : Option Dimension :=
  match c.main with
  | .x => some width
  | .y => some height
  | _ => none

/-- The channel of a dimension determines that dimension. -/
@[simp] theorem ofChannel?_channel (d : Dimension) : ofChannel? d.channel = some d := by
  cases d <;> rfl

end Dimension

/-- **Key of a layout size.** -/
inductive LayoutKey
  | width
  | height
  | childWidth
  | childHeight
deriving DecidableEq, Repr, Inhabited

namespace LayoutKey

/-- The word of a key. -/
def word : LayoutKey → String
  | width => "width"
  | height => "height"
  | childWidth => "childWidth"
  | childHeight => "childHeight"

/-- The keys and their words. -/
instance : Keyword LayoutKey where
  all := [width, height, childWidth, childHeight]
  name := word
  mem_all k := by cases k <;> decide
  nodup_names := by decide

/-- The dimension of the views that a size is merged from. -/
def dimension : LayoutKey → Dimension
  | width | childWidth => .width
  | height | childHeight => .height

/-- The end of the name of the signal that holds the size. -/
def suffix : LayoutKey → String
  | width => "width"
  | height => "height"
  | childWidth => "child_width"
  | childHeight => "child_height"

end LayoutKey

namespace Dimension

/-- The key of a view's own size. -/
def key : Dimension → LayoutKey
  | width => .width
  | height => .height

/-- The key of the size of a container's cells. -/
def cellKey : Dimension → LayoutKey
  | width => .childWidth
  | height => .childHeight

/-- A view's own size is merged along its own dimension. -/
@[simp] theorem dimension_key (d : Dimension) : d.key.dimension = d := by cases d <;> rfl

/-- The size of a container's cells is merged along the dimension it is the size of. -/
@[simp] theorem dimension_cellKey (d : Dimension) : d.cellKey.dimension = d := by cases d <;> rfl

end Dimension

end ChartCompiler
