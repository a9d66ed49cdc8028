/-!
# Sets of characters as ranges

`Ranges` — a set of code points given by its inclusive ranges, in increasing order. The Unicode
classes of this library are written in this form.
-/

namespace ChartCompiler.Text

/-- **A set of code points**, as inclusive ranges. -/
abbrev Ranges := List (Nat × Nat)

namespace Ranges

/-- Whether a code point lies in one of the ranges. -/
def has (ranges : Ranges) (point : Nat) : Bool :=
  ranges.any fun r => r.1 ≤ point && point ≤ r.2

/-- A code point lies in the set if it lies in one of the ranges. -/
theorem has_iff {ranges : Ranges} {point : Nat} :
    ranges.has point = true ↔ ∃ r ∈ ranges, r.1 ≤ point ∧ point ≤ r.2 := by
  simp [has]

end Ranges

end ChartCompiler.Text
