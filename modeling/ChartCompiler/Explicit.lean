import ChartCompiler.Diagnostic
import ChartCompiler.Notice

/-!
# Authored and inferred values

Beside a value the compiler keeps whether the author gave it or the compiler inferred it.

* `Explicit α` — a value with this mark; `Explicit.authored` and `Explicit.inferred` make one.
* `Explicit.mergeBy` — **merges two candidates**: an authored one outranks an inferred one, equal
  values keep the first, and a tie breaker decides the rest.
* `TieBreaker.keepFirst` — the usual tie breaker: the first stays, and two authored values that
  disagree are reported. `Explicit.merge` uses it.
-/

namespace ChartCompiler

/-- **A value, and whether it was authored.** -/
structure Explicit (α : Type) where
  value : α
  isExplicit : Bool
deriving DecidableEq, Repr

/-- The property a value belongs to and the thing it is a property of, for messages. The owner may
be the empty text. -/
structure Property where
  name : String
  owner : String := ""
deriving DecidableEq, Repr

/-- **Decides between two candidates** that neither rank nor equality decides. -/
abbrev TieBreaker (α : Type) : Type := Property → Explicit α → Explicit α → Reported (Explicit α)

/-- Keeps the first candidate, and reports two authored values. -/
def TieBreaker.keepFirst {α : Type} [Diagnostic α] : TieBreaker α := fun property v₁ v₂ =>
  { value := v₁
    notices :=
      if v₁.isExplicit && v₂.isExplicit then
        [.conflict property.name property.owner (diagnostic v₁.value) (diagnostic v₂.value)]
      else [] }

namespace Explicit

variable {α : Type}

/-- A value the author gave. -/
def authored (value : α) : Explicit α := ⟨value, true⟩

/-- A value the compiler inferred. -/
def inferred (value : α) : Explicit α := ⟨value, false⟩

/-- **Merges two candidates**, `tie` deciding what neither rank nor equality decides. -/
def mergeBy [BEq α] (tie : TieBreaker α) (property : Property) (v₁ v₂ : Explicit α) :
    Reported (Explicit α) :=
  if v₁.isExplicit && !v₂.isExplicit then pure v₁
  else if v₂.isExplicit && !v₁.isExplicit then pure v₂
  else if v₁.value == v₂.value then pure v₁
  else tie property v₁ v₂

/-- **Merges two candidates**, keeping the first in a tie. -/
def merge [BEq α] [Diagnostic α] (property : Property) (v₁ v₂ : Explicit α) :
    Reported (Explicit α) :=
  mergeBy .keepFirst property v₁ v₂

/-! ## Laws -/

section laws

variable [BEq α] (tie : TieBreaker α) (property : Property)

/-- An authored value outranks an inferred one that comes later. -/
@[simp] theorem mergeBy_authored_inferred (a b : α) :
    mergeBy tie property (authored a) (inferred b) = pure (authored a) := rfl

/-- An authored value outranks an inferred one that came before. -/
@[simp] theorem mergeBy_inferred_authored (a b : α) :
    mergeBy tie property (inferred a) (authored b) = pure (authored b) := rfl

/-- The merged candidate is the second only where it is authored and the first is not. -/
theorem value_merge [Diagnostic α] (v₁ v₂ : Explicit α) :
    (merge property v₁ v₂).value = if v₂.isExplicit && !v₁.isExplicit then v₂ else v₁ := by
  unfold merge mergeBy TieBreaker.keepFirst
  cases v₁.isExplicit <;> cases v₂.isExplicit <;> cases v₁.value == v₂.value <;> rfl

end laws

end Explicit

end ChartCompiler
