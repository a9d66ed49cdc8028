import ChartCompiler.Expression
import ChartCompiler.Layout.Resolve

/-!
# Size signals

* `SignalDecl` — a declared signal: a constant, or an expression that is kept up to date.
* `ViewTree.findScale?` — the view's own scale for a channel, else the first one below it.
* `ViewTree.sizeSignals` — **the declarations of one size**: a constant for pixels; a step and a
  count of bands for a size in steps; nothing for a size that is unsettled or left to the parent.
* `ViewTree.viewSignals` — the declarations of one view, in the order of its sizes.
* `ViewTree.subtree` — a view and everything below it; `ViewTree.walk` comes by the same views with
  a list of those still to visit.
* `ViewTree.signals` — the declarations of all views, parents before children.
-/

namespace ChartCompiler

/-- **What a signal is declared as.** -/
inductive SignalBody
  | value (amount : Float)
  | update (expression : String)

/-- **A declared signal.** -/
structure SignalDecl where
  name : String
  body : SignalBody

namespace Scale

/-- The name of the signal that holds the step of a scale. -/
def stepSignal (s : Scale) : String := identifier (s.name ++ "_step")

/-- The expression that counts the bands of a scale and multiplies them by its step. -/
def bandExpression (s : Scale) : String :=
  "bandspace(domain('" ++ s.name ++ "').length, " ++ Expression.number s.innerPadding ++ ", "
    ++ Expression.number s.outerPadding ++ ") * " ++ s.stepSignal

end Scale

/-- The step that a unit view authors for one of its own sizes. -/
def View.authoredStep? (v : View) (key : LayoutKey) : Option Float :=
  v.kind.unit?.bind fun u =>
    match key with
    | .width => u.width.bind SizeSpec.step?
    | .height => u.height.bind SizeSpec.step?
    | _ => none

namespace ViewTree

/-- **The scale that a size in steps is counted with**: the view's own, else the first one found
below it. -/
def findScale? (t : ViewTree) (id : ViewId) (channel : Channel) : Option Scale :=
  ((t.view? id).bind fun v => v.scale? channel)
    <|> (t.children id).attach.findSome? fun c => t.findScale? c.1 channel
termination_by t.size - id
decreasing_by exact size_sub_lt_of_mem_children c.2

/-- The step of a size counted with a scale: that of its range, else the authored one, else the
configured one. -/
def stepSize (t : ViewTree) (config : Config) (id : ViewId) (key : LayoutKey) (scale : Scale) :
    Float :=
  (scale.rangeStep? <|> (t.view? id).bind fun v => v.authoredStep? key).getD config.view.step

/-- **The declarations of one size.** -/
def sizeSignals (t : ViewTree) (config : Config) (id : ViewId) (key : LayoutKey)
    (size : Option LayoutSize) : Reported (List SignalDecl) :=
  let name := t.sizeSignal id key
  match size with
  | none | some .merged => pure []
  | some (.pixels amount) => pure [⟨name, .value amount⟩]
  | some .step =>
    let channel := key.dimension.channel
    match t.findScale? id channel with
    | some scale =>
      pure [⟨scale.stepSignal, .value (t.stepSize config id key scale)⟩,
        ⟨name, .update scale.bandExpression⟩]
    | none => do
      Reported.report (.missingScale channel key.word ((t.view? id).elim "" View.name))
      pure []

/-- **The declarations of one view**, in the order of its sizes. -/
def viewSignals (t : ViewTree) (config : Config) (id : ViewId) : Reported (List SignalDecl) := do
  let decls ← (t.layout.sizes id).toList.mapM fun e => t.sizeSignals config id e.1 e.2.value
  pure decls.flatten

/-! ## From the root down -/

/-- **A view and everything below it**, each view before the views below it. -/
def subtree (t : ViewTree) (id : ViewId) : List ViewId :=
  id :: (t.children id).attach.flatMap fun c => t.subtree c.1
termination_by t.size - id
decreasing_by exact size_sub_lt_of_mem_children c.2

/-- A view, then the views below each of its children. -/
theorem subtree_eq (t : ViewTree) (id : ViewId) :
    t.subtree id = id :: (t.children id).flatMap t.subtree := by
  rw [subtree]
  congr 1
  rw [List.flatMap_subtype (fun _ _ => rfl), List.unattach_attach]

/-- **The views from the pending ones down.** A view is taken from the front of the pending ones,
and its children are put there in its place. -/
def walk (t : ViewTree) : List ViewId → List ViewId
  | [] => []
  | id :: pending => id :: t.walk (t.children id ++ pending)
termination_by pending => (pending.flatMap t.subtree).length
decreasing_by
  rw [List.flatMap_append, List.flatMap_cons, t.subtree_eq id]
  simp

/-- **The declarations of a tree**, parents before children; none without a root. -/
def signals (t : ViewTree) (config : Config) : Reported (List SignalDecl) := do
  let decls ← (t.walk t.root.toList).mapM (t.viewSignals config)
  pure decls.flatten

end ViewTree

end ChartCompiler
