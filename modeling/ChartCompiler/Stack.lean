import ChartCompiler.Channel

/-!
# Stacks

Stacking itself happens in the data flow. Placement needs only which channel is stacked and whether
gaps in its domain are imputed: imputed rows carry a precomputed mid point and no interval.
-/

namespace ChartCompiler

/-- **Baseline of a stack.** -/
inductive StackOffset
  | zero | center | normalize
deriving DecidableEq, Repr, Inhabited

namespace StackOffset

/-- The word of a stack offset. -/
def word : StackOffset → String
  | zero => "zero"
  | center => "center"
  | normalize => "normalize"

/-- The offsets of a stack and their words. -/
instance : Keyword StackOffset where
  all := [zero, center, normalize]
  name := word
  mem_all o := by cases o <;> decide
  nodup_names := by decide

end StackOffset

/-- **A stack**: the channel whose field is stacked, the channel it is grouped by, and whether gaps
are filled. -/
structure Stack where
  /-- The channel whose field is stacked. -/
  fieldChannel : Channel
  /-- The channel that the stack is grouped by. -/
  groupbyChannel : Option Channel := none
  /-- The baseline. -/
  offset : StackOffset := .zero
  /-- Whether gaps in the domain are filled. -/
  impute : Bool := false
deriving DecidableEq, Repr

end ChartCompiler
