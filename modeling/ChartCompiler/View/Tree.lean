import ChartCompiler.Layout.Size
import ChartCompiler.Naming.Renames
import ChartCompiler.View

/-!
# Trees of views

* `Layout` — what layout has settled: the sizes of every view, and the size signals that go by the
  name of a shared one.
* `ViewTree` — **the views of a composition in the order they were added**, the first one being the
  root, with their layout. A view is stored behind its parent; `ViewTree.children` lists only places
  behind the view itself, so every walk down the tree ends.
* `ViewTree.addRoot`, `addChild` — growing a tree, and `TreeError`, the ways this can fail. A view
  that is added gives up the links it had elsewhere.
-/

namespace ChartCompiler

/-! ## Layout -/

/-- **The settled layout** of the views of a tree. Views without sizes of their own have the empty
table. -/
structure Layout where
  /-- The sizes of each view, at its place. -/
  tables : Array SizeTable := #[]
  /-- The size signals that go by the name of another. -/
  renames : Renames := ∅

namespace Layout

/-- The sizes of a view. -/
def sizes (l : Layout) (id : ViewId) : SizeTable := l.tables.getD id ∅

/-- The entry of one size of a view. -/
def size (l : Layout) (id : ViewId) (key : LayoutKey) : SizeEntry := (l.sizes id).entry key

/-- Places a table at an index, with empty tables before it where there are none yet. -/
def place (tables : Array SizeTable) (id : ViewId) (table : SizeTable) : Array SizeTable :=
  if h : id < tables.size then tables.set id table
  else (tables ++ Array.replicate (id - tables.size) ∅).push table

/-- The layout with the sizes of a view replaced. -/
def setSizes (l : Layout) (id : ViewId) (table : SizeTable) : Layout :=
  { l with tables := place l.tables id table }

/-- The layout with one size of a view replaced. -/
def setSize (l : Layout) (id : ViewId) (key : LayoutKey) (entry : SizeEntry) : Layout :=
  l.setSizes id ((l.sizes id).put key entry)

/-- The layout with a signal renamed. -/
def rename (l : Layout) (old new : String) : Layout :=
  { l with renames := l.renames.rename old new }

end Layout

/-! ## Trees -/

/-- **A tree of views.** -/
structure ViewTree where
  /-- The views, each at its place. -/
  views : Array View := #[]
  /-- The place of the root, once there is one. -/
  root : Option ViewId := none
  /-- What layout has settled so far. -/
  layout : Layout := {}

/-- **Why a tree cannot be grown or laid out.** -/
inductive TreeError
  | rootExists (root : ViewId) (name : String)
  | unknownParent (id : ViewId)
  | unitParent (name : String)
  | noRoot
deriving DecidableEq, Repr

namespace TreeError

/-- What is wrong. -/
def reason : TreeError → String
  | rootExists root name =>
    "View tree already has a root (" ++ root.text ++ " '" ++ name ++ "')"
  | unknownParent id => "Unknown parent view " ++ id.text
  | unitParent name => "Unit view '" ++ name ++ "' cannot have children"
  | noRoot => "View tree has no root"

/-- **The text of an error.** -/
def message (e : TreeError) : String := "View tree error: " ++ e.reason

end TreeError

namespace ViewTree

/-- The tree without views. -/
def empty : ViewTree := {}

/-- A tree may start without views. -/
instance : Inhabited ViewTree := ⟨empty⟩

/-- The number of views. -/
def size (t : ViewTree) : Nat := t.views.size

/-- The view at a place. -/
def view? (t : ViewTree) (id : ViewId) : Option View := t.views[id]?

/-- Whether there is a view at a place. -/
def contains (t : ViewTree) (id : ViewId) : Bool := (t.view? id).isSome

/-- **The children of a view**, in the order they were added. -/
def children (t : ViewTree) (id : ViewId) : List ViewId :=
  match t.view? id with
  | some v => v.children.filter fun c => id < c && c < t.size
  | none => []

/-- Children are stored behind their parent. -/
theorem lt_of_mem_children {t : ViewTree} {id c : Nat} (h : c ∈ t.children id) :
    id < c ∧ c < t.size := by
  unfold children at h
  split at h
  · rw [List.mem_filter] at h
    simpa using h.2
  · cases h

/-- Going down to a child leaves fewer places behind. -/
theorem size_sub_lt_of_mem_children {t : ViewTree} {id c : Nat} (h : c ∈ t.children id) :
    t.size - c < t.size - id := by
  have := lt_of_mem_children h
  omega

/-- **Induction down the tree**: what holds of a view once it holds of its children holds of all. -/
theorem downInduction (t : ViewTree) {P : ViewId → Prop}
    (step : ∀ id, (∀ c ∈ t.children id, P c) → P id) (id : ViewId) : P id := by
  induction hn : t.size - id using Nat.strongRecOn generalizing id with
  | ind n ih =>
    subst hn
    exact step id fun c hc => ih _ (size_sub_lt_of_mem_children hc) c rfl

/-! ## Growing -/

/-- The tree with a view behind all others, linked to `parent` only, and with its sizes. -/
def push (t : ViewTree) (v : View) (sizes : SizeTable) (parent : Option ViewId) : ViewTree :=
  { t with
    views := t.views.push { v with parent := parent, children := [] }
    layout := t.layout.setSizes t.size sizes }

/-- The tree with a child appended to those of a view. -/
def link (t : ViewTree) (parent child : ViewId) : ViewTree :=
  { t with views := t.views.modify parent fun v => { v with children := v.children ++ [child] } }

/-- **Adds the root.** The result gives its place beside the tree. -/
def addRoot (t : ViewTree) (v : View) (sizes : SizeTable) : Except TreeError (ViewId × ViewTree) :=
  match t.root with
  | some root => .error (.rootExists root ((t.view? root).elim "" View.name))
  | none => .ok (t.size, { t.push v sizes none with root := some t.size })

/-- **Adds a view** as the last child of `parent`. -/
def addChild (t : ViewTree) (parent : ViewId) (v : View) (sizes : SizeTable) :
    Except TreeError (ViewId × ViewTree) :=
  match t.view? parent with
  | none => .error (.unknownParent parent)
  | some p =>
    if p.kind.isUnit then .error (.unitParent p.name)
    else .ok (t.size, (t.push v sizes (some parent)).link parent t.size)

/-! ## Changing views -/

/-- The tree with a view's scale for a channel replaced. -/
def setScale (t : ViewTree) (id : ViewId) (channel : Channel) (scale : Scale) : ViewTree :=
  { t with views := t.views.modify id fun v => { v with scales := v.scales.insert channel scale } }

/-- The tree with a view's sharing on a channel replaced. -/
def setSharing (t : ViewTree) (id : ViewId) (channel : Channel) (sharing : ScaleSharing) :
    ViewTree :=
  { t with
    views := t.views.modify id fun v => { v with resolve := v.resolve.insert channel sharing } }

/-- The tree with one size of a view replaced. -/
def setSize (t : ViewTree) (id : ViewId) (key : LayoutKey) (entry : SizeEntry) : ViewTree :=
  { t with layout := t.layout.setSize id key entry }

/-- The tree with a signal renamed. -/
def rename (t : ViewTree) (old new : String) : ViewTree :=
  { t with layout := t.layout.rename old new }

/-! ## Names -/

/-- The name of a view's size signal before any renaming. -/
def ownSizeSignal (t : ViewTree) (id : ViewId) (key : LayoutKey) : String :=
  (t.view? id).elim "" fun v => v.sizeSignal key

/-- **The name that a reference to a view's size reads.** -/
def sizeSignal (t : ViewTree) (id : ViewId) (key : LayoutKey) : String :=
  t.layout.renames.resolve (t.ownSizeSignal id key)

end ViewTree

end ChartCompiler
