import ChartCompiler.Layout.Resolve
import ChartCompiler.Proofs.Tree.Descent
import Mathlib.Data.List.Nodup
import Mathlib.Logic.Relation

/-!
# Histories of a tree

A tree changes by calls only, and a call works on the tree in place: what it has done before it
fails stays done. So that a failed call leaves no trace, it has to fail before it does anything.

* `ViewTree.Action` — a program that works on a tree in place and may fail; `Action.addRoot`,
  `Action.addChild`, `Action.settle` and `Action.settleTree` are those of a tree's calls.
* `ViewTree.Call` — the calls; `Call.Refused` says which of them a tree refuses.
* `ViewTree.Call.run_cases` — **what a call does**: nothing where it fails, and otherwise it adds
  one view or works on the layout.
* `ViewTree.links_after` — **what holds after any history of calls**, failed ones included: the
  parents that views name and the children that they list are one and the same tree below the first
  view; and what a further call does if it fails.

The functions of `ViewTree` give a new tree or an error, so that a failure leaves no trace is built
into them. A program in place is another matter, and it is modelled by a state that survives an
error. Each action is proved to come to what the function gives (`Action.run_addRoot` and the
others), which is where it shows that its tests come before its changes.
-/

namespace ChartCompiler.ViewTree

/-! ## Programs that work on a tree in place -/

/-- **Why a call fails**: the tree cannot be grown or laid out, or there is no such view. -/
inductive Failure
  /-- The tree says why. -/
  | tree (error : TreeError)
  /-- There is no view at this place. -/
  | noView (id : ViewId)

/-- **A program that works on a tree in place** and may fail. What it has done to the tree before it
fails stays done. -/
abbrev Action : Type → Type := EStateM Failure ViewTree

namespace Action

/-- Puts a view behind all others, and gives its place. This never fails. -/
def append (v : View) (sizes : SizeTable) (parent : Option ViewId) : Action ViewId := do
  let id := (← get).size
  modify fun t => t.push v sizes parent
  pure id

/-- Adds the root, unless there is one. -/
def addRoot (v : View) (sizes : SizeTable) : Action Unit := do
  let t ← get
  match t.root with
  | some root => throw (.tree (.rootExists root ((t.view? root).elim "" View.name)))
  | none =>
    let id ← append v sizes none
    modify fun t => { t with root := some id }

/-- Adds a child to a view, unless there is no such view or it is a unit view. -/
def addChild (parent : ViewId) (v : View) (sizes : SizeTable) : Action Unit := do
  let t ← get
  match t.view? parent with
  | none => throw (.tree (.unknownParent parent))
  | some p =>
    if p.kind.isUnit then throw (.tree (.unitParent p.name))
    let id ← append v sizes (some parent)
    modify fun t => t.link parent id

/-- Works on the layout from a view on, if there is such a view; if there is none, it fails before
anything is done. -/
def settle (id : ViewId) (f : ViewTree → Layout → Reported Layout) : Action Unit := do
  let t ← get
  if t.contains id then set (t.onLayout (f t)).value else throw (.noView id)

/-- Settles the whole tree, if there is a root. -/
def settleTree (config : Config) : Action Unit := do
  match (← get).resolveTree config with
  | .ok r => set r.value
  | .error e => throw (.tree e)

/-! ## What the programs come to -/

variable (t : ViewTree)

/-- **Adding the root in place** comes to what `ViewTree.addRoot` gives. -/
theorem run_addRoot (v : View) (sizes : SizeTable) :
    (addRoot v sizes).run t =
      match t.addRoot v sizes with
      | .ok (_, added) => .ok () added
      | .error e => .error (.tree e) t := by
  unfold ViewTree.addRoot
  cases hroot : t.root with
  | none => simp [addRoot, append, hroot]
  | some root => simp [addRoot, hroot]

/-- **Adding a child in place** comes to what `ViewTree.addChild` gives. -/
theorem run_addChild (parent : ViewId) (v : View) (sizes : SizeTable) :
    (addChild parent v sizes).run t =
      match t.addChild parent v sizes with
      | .ok (_, added) => .ok () added
      | .error e => .error (.tree e) t := by
  unfold ViewTree.addChild
  cases hview : t.view? parent with
  | none => simp [addChild, hview]
  | some p =>
    cases hunit : p.kind.isUnit with
    | true => simp [addChild, hview, hunit]
    | false => simp [addChild, append, hview, hunit]

/-- Settling from a view on works on the layout only. -/
theorem run_settle (id : ViewId) (f : ViewTree → Layout → Reported Layout) :
    (settle id f).run t =
      if t.contains id then .ok () (t.onLayout (f t)).value else .error (.noView id) t := by
  cases hid : t.contains id with
  | true => simp [settle, hid]
  | false => simp [settle, hid]

/-- Settling the whole tree works on the layout only, and needs a root. -/
theorem run_settleTree (config : Config) :
    (settleTree config).run t =
      match t.root with
      | some root => .ok () (t.onLayout (t.resolve config root)).value
      | none => .error (.tree .noRoot) t := by
  cases hroot : t.root with
  | none => simp [settleTree, resolveTree, hroot]
  | some root => simp [settleTree, resolveTree, hroot]

end Action

/-! ## Calls -/

/-- **A call on a tree.** A view that is added may come with any links and sizes, such as those it
had in another tree; a call may name places where there is no view, and be repeated. -/
inductive Call
  /-- Adds the root, with sizes that it may have. -/
  | addRoot (v : View) (sizes : SizeTable)
  /-- Adds a view as the last child of another one. -/
  | addChild (parent : ViewId) (v : View) (sizes : SizeTable)
  /-- Records that a signal goes by another name. -/
  | rename (old new : String)
  /-- Settles the whole tree from its root. -/
  | settleTree (config : Config)
  /-- Settles a view and everything below it. -/
  | settle (config : Config) (id : ViewId)
  /-- Settles a unit view by itself; any other view is left alone. -/
  | settleUnit (config : Config) (id : ViewId)
  /-- Settles everything below a view. -/
  | settleChildren (config : Config) (id : ViewId)
  /-- Settles everything below a view, and the sizes its children share, as those of a layer. -/
  | settleLayer (config : Config) (id : ViewId)
  /-- Settles everything below a view, and the sizes its children share, as those of the view's
  cells. -/
  | settleCells (config : Config) (id : ViewId)

namespace Call

/-- **What a call does**, in place. -/
def action : Call → Action Unit
  | addRoot v sizes => .addRoot v sizes
  | addChild parent v sizes => .addChild parent v sizes
  | rename old new => modify fun t => t.rename old new
  | settleTree config => .settleTree config
  | settle config id => .settle id fun t => t.resolve config id
  | settleUnit config id => .settle id fun t l => pure (t.resolveUnit config id l)
  | settleChildren config id => .settle id fun t => t.resolveChildren config id
  | settleLayer config id => .settle id fun t => t.resolveComposite config id Dimension.key
  | settleCells config id => .settle id fun t => t.resolveComposite config id Dimension.cellKey

/-- The number of views that a call adds. -/
def added : Call → Nat
  | addRoot .. | addChild .. => 1
  | _ => 0

/-- **The calls that a tree refuses**: to add a second root, to add a child to an unknown view or to a
unit view, and to settle what is not there. -/
def Refused (t : ViewTree) : Call → Prop
  | addRoot .. => t.root ≠ none
  | addChild parent .. => ∀ p, t.view? parent = some p → p.kind.isUnit = true
  | rename .. => False
  | settleTree _ => t.root = none
  | settle _ id | settleUnit _ id | settleChildren _ id | settleLayer _ id | settleCells _ id =>
    t.view? id = none

/-- What can come of a call on a tree: a failure that leaves the tree alone, one more view, or
another layout. In the first case the tree refuses the call, in the others it does not. -/
inductive Outcome (t : ViewTree) (call : Call) : EStateM.Result Failure ViewTree Unit → Prop
  /-- The call is refused, and the tree is as it was. -/
  | failed (refused : call.Refused t) (e : Failure) : Outcome t call (.error e t)
  /-- The root is added. -/
  | root {v : View} {sizes : SizeTable} {id : ViewId} {t' : ViewTree} (accepted : ¬ call.Refused t)
      (one : call.added = 1) (ok : t.addRoot v sizes = .ok (id, t')) : Outcome t call (.ok () t')
  /-- A child is added. -/
  | child {parent : ViewId} {v : View} {sizes : SizeTable} {id : ViewId} {t' : ViewTree}
      (accepted : ¬ call.Refused t) (one : call.added = 1)
      (ok : t.addChild parent v sizes = .ok (id, t')) : Outcome t call (.ok () t')
  /-- The views stay, and the layout may be another one. -/
  | layout (accepted : ¬ call.Refused t) (none : call.added = 0) (l : Layout) :
      Outcome t call (.ok () { t with layout := l })

variable (t : ViewTree)

/-- Settling from a view on is refused exactly where there is no such view. -/
theorem outcome_settle {call : Call} {id : ViewId} {f : ViewTree → Layout → Reported Layout}
    (haction : call.action = .settle id f) (hadded : call.added = 0)
    (hrefused : call.Refused t ↔ t.view? id = none) : Outcome t call (call.action.run t) := by
  rw [haction, Action.run_settle]
  cases hview : t.view? id with
  | none =>
    have hid : t.contains id = false := by rw [contains, hview]; rfl
    rw [hid, if_neg Bool.false_ne_true]
    exact .failed (hrefused.mpr hview) _
  | some v =>
    have hid : t.contains id = true := by rw [contains, hview]; rfl
    rw [hid, if_pos rfl]
    refine .layout (fun h => ?_) hadded (f t t.layout).value
    rw [hrefused.mp h] at hview
    cases hview

/-- **What a call does.** It fails exactly if the tree refuses it, and then it has done nothing.
There is one case for each call. -/
theorem run_cases (call : Call) : Outcome t call (call.action.run t) := by
  cases call with
  | addRoot v sizes =>
    rw [action, Action.run_addRoot]
    cases hadd : t.addRoot v sizes with
    | ok added =>
      have hroot := (addRoot_eq_ok hadd).1
      exact .root (fun hrefused => hrefused hroot) rfl hadd
    | error e =>
      have hrefused : (Call.addRoot v sizes).Refused t := by
        intro hroot
        rw [ViewTree.addRoot, hroot] at hadd
        cases hadd
      exact .failed hrefused _
  | addChild parent v sizes =>
    rw [action, Action.run_addChild]
    cases hadd : t.addChild parent v sizes with
    | ok added =>
      obtain ⟨⟨p, hp, hunit⟩, -⟩ := addChild_eq_ok hadd
      have haccepted : ¬ (Call.addChild parent v sizes).Refused t := by
        intro hrefused
        rw [hrefused p hp] at hunit
        cases hunit
      exact .child haccepted rfl hadd
    | error e =>
      have hrefused : (Call.addChild parent v sizes).Refused t := by
        intro p hp
        rw [ViewTree.addChild, hp] at hadd
        cases hunit : p.kind.isUnit with
        | true => rfl
        | false => simp [hunit] at hadd
      exact .failed hrefused _
  | rename old new => exact .layout id rfl (t.layout.rename old new)
  | settleTree config =>
    rw [action, Action.run_settleTree]
    cases hroot : t.root with
    | none =>
      have hrefused : (Call.settleTree config).Refused t := hroot
      exact .failed hrefused _
    | some root =>
      have haccepted : ¬ (Call.settleTree config).Refused t := by
        intro hrefused
        rw [Refused, hroot] at hrefused
        cases hrefused
      exact .layout haccepted rfl (t.resolve config root t.layout).value
  | settle config id => exact outcome_settle t rfl rfl Iff.rfl
  | settleUnit config id => exact outcome_settle t rfl rfl Iff.rfl
  | settleChildren config id => exact outcome_settle t rfl rfl Iff.rfl
  | settleLayer config id => exact outcome_settle t rfl rfl Iff.rfl
  | settleCells config id => exact outcome_settle t rfl rfl Iff.rfl

namespace Outcome

variable {t : ViewTree} {call : Call} {result : EStateM.Result Failure ViewTree Unit}

/-- A call fails exactly if the tree refuses it. -/
theorem refused_iff (h : Outcome t call result) :
    call.Refused t ↔ ∃ e t', result = .error e t' := by
  cases h with
  | failed refused e => exact iff_of_true refused ⟨e, t, rfl⟩
  | root accepted _ _ => exact iff_of_false accepted nofun
  | child accepted _ _ => exact iff_of_false accepted nofun
  | layout accepted _ _ => exact iff_of_false accepted nofun

/-- A call that fails has done nothing. -/
theorem eq_of_error {e : Failure} {t' : ViewTree} (h : Outcome t call (.error e t')) : t' = t := by
  cases h with
  | failed _ _ => rfl

/-- A call that does not fail adds the views it is for: one, or none. -/
theorem size_of_ok {t' : ViewTree} (h : Outcome t call (.ok () t')) :
    t'.size = t.size + call.added := by
  cases h with
  | root _ one ok =>
    obtain ⟨-, -, rfl⟩ := addRoot_eq_ok ok
    rw [one]
    exact Array.size_push _
  | child _ one ok =>
    obtain ⟨-, -, rfl⟩ := addChild_eq_ok ok
    rw [one, size_link_push]
  | layout _ none l =>
    rw [none]
    rfl

end Outcome

end Call

/-! ## Histories -/

/-- The tree that a call leaves, whether it fails or not. -/
def perform (t : ViewTree) (call : Call) : ViewTree :=
  match call.action.run t with
  | .ok _ t' => t'
  | .error _ t' => t'

/-- **The tree after a history of calls**, from nothing. -/
def after (calls : List Call) : ViewTree := calls.foldl perform .empty

/-- **A call keeps the links in agreement**, whether it fails or not. -/
theorem Linked.perform {t : ViewTree} (hl : t.Linked) (call : Call) : (t.perform call).Linked := by
  unfold ViewTree.perform
  have houtcome := call.run_cases t
  generalize call.action.run t = result at houtcome ⊢
  cases houtcome with
  | failed _ e => exact hl
  | root _ _ ok => exact hl.addRoot ok
  | child _ _ ok => exact hl.addChild ok
  | layout _ _ l => exact hl.withLayout l

/-- **Links agree after any history.** The induction is on the calls. -/
theorem linked_after (calls : List Call) : (after calls).Linked := by
  have hrun : ∀ t : ViewTree, t.Linked → (calls.foldl ViewTree.perform t).Linked := by
    induction calls with
    | nil => exact fun t hl => hl
    | cons call rest ih => exact fun t hl => ih _ (hl.perform call)
  exact hrun _ .empty

/-! ## The tree that the links make up -/

/-- The children that a view lists, as they are stored. -/
def listed (t : ViewTree) (p : ViewId) : List ViewId := (t.view? p).elim [] View.children

/-- The parent that a view names, as it is stored. -/
def named? (t : ViewTree) (c : ViewId) : Option ViewId := (t.view? c).bind View.parent

namespace Linked

variable {t : ViewTree}

/-- **A view lists those views that name it.** -/
theorem mem_listed_iff (hl : t.Linked) {p c : ViewId} : c ∈ t.listed p ↔ t.named? c = some p := by
  unfold listed named?
  cases hv : t.view? p with
  | none =>
    rw [Option.elim_none]
    constructor
    · intro hc
      cases hc
    · intro hp
      obtain ⟨w, hw, hparent⟩ := Option.bind_eq_some_iff.mp hp
      have hlt := Nat.lt_trans (hl.lt_of_parent hw hparent) (lt_size_of_view? hw)
      exact absurd hlt (Nat.not_lt.mpr (view?_eq_none_iff.mp hv))
  | some v => rw [Option.elim_some, hl.mem_children_iff p v hv c, Option.bind_eq_some_iff]

/-- No child is listed twice. -/
theorem nodup_listed (hl : t.Linked) (p : ViewId) : (t.listed p).Nodup := by
  unfold listed
  cases hv : t.view? p with
  | none => exact List.nodup_nil
  | some v => exact hl.nodup_children p v hv

/-- A view is listed behind its parent. -/
theorem lt_of_mem_listed (hl : t.Linked) {p c : Nat} (hc : c ∈ t.listed p) : p < c := by
  obtain ⟨w, hw, hparent⟩ := Option.bind_eq_some_iff.mp (hl.mem_listed_iff.mp hc)
  exact hl.lt_of_parent hw hparent

/-- **Every view is reached from the first one** by way of listed children. The induction is on the
place of the view: its parent stands before it. -/
theorem reaches (hl : t.Linked) {c : Nat} (hc : c < t.size) :
    Relation.ReflTransGen (fun p c => c ∈ t.listed p) 0 c := by
  induction c using Nat.strongRecOn with
  | ind c ih =>
    by_cases hzero : c = 0
    · subst hzero
      exact .refl
    · obtain ⟨w, hw⟩ := exists_view? hc
      obtain ⟨p, hparent, hlt⟩ := hl.parent_lt c w hw hzero
      have hlisted : c ∈ t.listed p := by
        rw [hl.mem_listed_iff, named?, hw]
        exact hparent
      exact .tail (ih p hlt (Nat.lt_trans hlt hc)) hlisted

end Linked

/-- **After any history of calls**, failed ones included, and whatever links the views came with:
there is a root exactly if there are views, and then it is the first one; a view lists a child
exactly if the child names it, once, and behind itself; every view is reached from the first; and
unit views list none. A further call fails exactly if the tree refuses it, and then it leaves the
tree as it was.

The links are those that are stored, not what `ViewTree.children` and `ViewTree.parent?` make of
them by leaving out places where the tree has no view. -/
theorem links_after (calls : List Call) :
    let t := after calls
    (t.size = 0 ↔ t.root = none) ∧
    (∀ root, t.root = some root → root = 0) ∧
    (∀ c p, t.named? c = some p ↔ c ∈ t.listed p) ∧
    (∀ c p, c ∈ t.listed p →
      (t.listed p).count c = 1 ∧ (∀ q, c ∈ t.listed q → q = p) ∧ p < c) ∧
    (∀ c < t.size, Relation.ReflTransGen (fun p c => c ∈ t.listed p) 0 c) ∧
    (∀ id v, t.view? id = some v → v.kind.isUnit = true → t.listed id = []) ∧
    ∀ call : Call,
      (call.Refused t ↔ ∃ e t', call.action.run t = .error e t') ∧
      (∀ e t', call.action.run t = .error e t' → t' = t) ∧
      ∀ t', call.action.run t = .ok () t' → t'.size = t.size + call.added := by
  intro t
  have hl : t.Linked := linked_after calls
  refine ⟨?_, ?_, ?_, ?_, ?_, ?_, ?_⟩
  · rw [hl.root_eq]
    by_cases hempty : t.size = 0 <;> simp [hempty]
  · intro root hroot
    exact hl.root_eq_zero hroot
  · intro c p
    exact hl.mem_listed_iff.symm
  · intro c p hc
    refine ⟨List.count_eq_one_of_mem (hl.nodup_listed p) hc, ?_, hl.lt_of_mem_listed hc⟩
    intro q hq
    have hboth : some q = some p := (hl.mem_listed_iff.mp hq).symm.trans (hl.mem_listed_iff.mp hc)
    exact Option.some.inj hboth
  · intro c hc
    exact hl.reaches hc
  · intro id v hv hunit
    rw [listed, hv]
    exact hl.children_unit id v hv hunit
  · intro call
    have houtcome := call.run_cases t
    refine ⟨houtcome.refused_iff, ?_, ?_⟩
    · intro e t' hrun
      exact Call.Outcome.eq_of_error (hrun ▸ houtcome)
    · intro t' hrun
      exact Call.Outcome.size_of_ok (hrun ▸ houtcome)

/-- A second root and a child of a unit view are refused, and the links that views came with are
forgotten. -/
example :
    let chart := after
      [.addRoot { name := "chart", kind := .layer, parent := some 7, children := [3, 4] } ∅,
        .addRoot { name := "again", kind := .layer } ∅,
        .addChild 0 { name := "mark", kind := .unit {}, children := [0] } ∅,
        .addChild 1 { name := "below", kind := .unit {} } ∅]
    chart.size = 2 ∧ chart.named? 0 = none ∧ chart.listed 0 = [1] ∧ chart.listed 1 = [] := by
  decide

end ChartCompiler.ViewTree
