import ChartCompiler.Config
import ChartCompiler.Naming
import ChartCompiler.Scale

/-!
# Views

* `ScaleSharing` — whether the children of a view share one scale on a channel.
* `ViewKind` — unit views draw marks; layers, concatenations, facets and repeats compose others.
* `View` — a view with the scales it owns, its authored sharing, and its place in a tree of views.
* `View.sharing` — the sharing in force: the authored one, else the default of the kind.
* `View.signalName` — the name of a signal of the view.
-/

namespace ChartCompiler

/-- **Whether children share one scale.** -/
inductive ScaleSharing
  | shared
  | independent
deriving DecidableEq, Repr, Inhabited

namespace ScaleSharing

/-- The word of a sharing. -/
def word : ScaleSharing → String
  | shared => "shared"
  | independent => "independent"

/-- The two ways of sharing and their words. -/
instance : Keyword ScaleSharing where
  all := [shared, independent]
  name := word
  mem_all s := by cases s <;> decide
  nodup_names := by decide

end ScaleSharing

/-- **What a unit view is authored with.** -/
structure UnitView where
  /-- The authored width. -/
  width : Option SizeSpec := none
  /-- The authored height. -/
  height : Option SizeSpec := none
  /-- Whether the view draws through a geographic projection. -/
  hasProjection : Bool := false

namespace UnitView

/-- The authored size along a dimension. -/
def size (u : UnitView) : Dimension → Option SizeSpec
  | .width => u.width
  | .height => u.height

end UnitView

/-- **The kind of a view.** -/
inductive ViewKind
  | unit (definition : UnitView)
  | layer
  | concat
  | facet
  | repeat

namespace ViewKind

/-- Whether the view draws marks itself. -/
def isUnit : ViewKind → Bool
  | unit _ => true
  | _ => false

/-- The definition of a unit view. -/
def unit? : ViewKind → Option UnitView
  | unit definition => some definition
  | _ => none

/-- The word of a kind. -/
def word : ViewKind → String
  | unit _ => "unit"
  | layer => "layer"
  | concat => "concat"
  | facet => "facet"
  | «repeat» => "repeat"

/-- **The sharing of a kind.** Layers and facets share their scales. Concatenated and repeated views
each have an extent of their own on `x` and `y`. -/
def defaultSharing (kind : ViewKind) (channel : Channel) : ScaleSharing :=
  match kind with
  | concat | «repeat» => if channel.isXY then .independent else .shared
  | _ => .shared

end ViewKind

/-- The place of a view in the tree. A view is always stored behind its parent. -/
abbrev ViewId : Type := Nat

/-- A place as it stands in messages. -/
def ViewId.text (id : ViewId) : String := "#" ++ id.repr

/-- **A view.** -/
structure View where
  /-- The name; the root commonly has the empty one. -/
  name : String
  /-- The kind, with the definition of a unit view. -/
  kind : ViewKind
  /-- The scales the view owns. -/
  scales : Table Channel Scale := ∅
  /-- The authored sharing of its children's scales. -/
  resolve : Table Channel ScaleSharing := ∅
  /-- The view that this one is a child of. -/
  parent : Option ViewId := none
  /-- The children, in the order in which they were added. -/
  children : List ViewId := []

namespace View

/-- The scale the view owns for a channel. -/
def scale? (v : View) (channel : Channel) : Option Scale := v.scales.get? channel

/-- **The sharing in force** for a channel. -/
def sharing (v : View) (channel : Channel) : ScaleSharing :=
  (v.resolve.get? channel).getD (v.kind.defaultSharing channel)

/-- **The name of a signal of the view**: its own name, if it has one, then what the signal is for;
a valid identifier in any case. -/
def signalName (v : View) (what : String) : String :=
  identifier (if v.name.isEmpty then what else v.name ++ "_" ++ what)

/-- The name of the signal that holds a size of the view. -/
def sizeSignal (v : View) (key : LayoutKey) : String := v.signalName key.suffix

end View

end ChartCompiler
