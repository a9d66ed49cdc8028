import ChartCompiler.Proofs.Layout.Declarations
import ChartCompiler.Proofs.Tree.Histories
import Mathlib.Data.List.Flatten

/-!
# The traversal with a stack

The declarations of a tree can be collected in a loop over a stack of views. A turn takes the view
on top of it, appends what the view declares, and puts the children of the view there, the first of
them on top. They can also be collected by recursion down the tree.

* `ViewTree.Traversal` — the state of the loop; `Traversal.turn?` is one turn and `Traversal.turns`
  some number of them.
* `ViewTree.declarations` — the declarations by recursion: those of a view, then those of the
  subtrees of its children.
* `Traversal.OnTheWay` — the invariant of the loop: what was visited and what the stack leads to are
  together the walk down the tree.
* `ViewTree.Linked.traversal_eq_declarations` — **the loop ends after as many turns as there are
  views**. It has then visited every view once, a view before all that lie below it and what lies
  below one child before what lies below a later one, and has collected what the recursion collects.

A single turn keeps the invariant (`OnTheWay.exists_turn?`) and takes one view off what lies ahead,
so the loop ends (`OnTheWay.exists_turns`). At the end nothing lies ahead, and what was visited is
the whole walk. The two statements about order are those of the subtrees, which are lists: that one
view comes before another is that the two form a sublist.
-/

namespace ChartCompiler

/-! ## Collecting -/

/-- **What the members of a list give**, one after another, in one list. What is reported on the way
is kept in order. -/
def Reported.gather {α β : Type} (f : α → Reported (List β)) (l : List α) : Reported (List β) :=
  List.flatten <$> l.mapM f

namespace Reported

variable {α β γ : Type} (f : α → Reported (List β))

/-- No members give nothing, and nothing is reported. -/
@[simp] theorem gather_nil : gather f [] = pure [] := rfl

/-- The first member gives first. -/
theorem gather_cons (a : α) (l : List α) :
    gather f (a :: l) = (do
      let own ← f a
      let rest ← gather f l
      pure (own ++ rest)) := by
  unfold gather
  rw [List.mapM_cons]
  simp only [map_bind, map_pure, bind_map_left, List.flatten_cons]

/-- Lists that are put together give one after the other. -/
theorem gather_append (l₁ l₂ : List α) :
    gather f (l₁ ++ l₂) = (do
      let front ← gather f l₁
      let back ← gather f l₂
      pure (front ++ back)) := by
  induction l₁ with
  | nil => simp
  | cons a l₁ ih =>
    simp only [List.cons_append, gather_cons, ih, bind_assoc, pure_bind, List.append_assoc]

/-- A single member gives what it gives. -/
@[simp] theorem gather_singleton (a : α) : gather f [a] = f a := by simp [gather_cons]

/-- What is gathered depends on what the members give, reports included. -/
theorem gather_congr {f g : α → Reported (List β)} {l : List α} (h : ∀ a ∈ l, f a = g a) :
    gather f l = gather g l := by
  induction l with
  | nil => rfl
  | cons a l ih =>
    rw [List.forall_mem_cons] at h
    rw [gather_cons, gather_cons, h.1, ih h.2]

/-- What lists of members give is gathered list by list. -/
theorem gather_flatMap (g : γ → List α) (l : List γ) :
    gather f (l.flatMap g) = gather (fun c => gather f (g c)) l := by
  induction l with
  | nil => rfl
  | cons c l ih => rw [List.flatMap_cons, gather_append, gather_cons, ih]

/-- A member that there may be gives what it gives, or else nothing. -/
theorem gather_toList (o : Option α) : gather f o.toList = o.elim (pure []) f := by
  cases o <;> simp

end Reported

namespace ViewTree

open Reported (gather)
open scoped List

variable {t : ViewTree} (config : Config)

/-! ## By recursion -/

/-- What a view declares for one of its sizes: nothing if it has none. -/
def keySignals (t : ViewTree) (config : Config) (id : ViewId) (key : LayoutKey) :
    Reported (List SignalDecl) :=
  (t.layout.sizeAt? id key).elim (pure []) fun e => t.sizeSignals config id key e.value

/-- **The declarations of a view and of everything below it**: those of its sizes, in order, then
those of its children's subtrees, in order. The order of the sizes is written out here, key by
key. -/
def declarations (t : ViewTree) (config : Config) (id : ViewId) : Reported (List SignalDecl) := do
  let own ← gather (t.keySignals config id) [.width, .height, .childWidth, .childHeight]
  let below ← (t.children id).attach.mapM fun c => t.declarations config c.1
  pure (own ++ below.flatten)
termination_by t.size - id
decreasing_by exact size_sub_lt_of_mem_children c.2

/-- A view declares size by size. -/
theorem viewSignals_eq_gather (id : ViewId) :
    t.viewSignals config id =
      gather (t.keySignals config id) [.width, .height, .childWidth, .childHeight] := by
  have hall : ([.width, .height, .childWidth, .childHeight] : List LayoutKey) = Keyword.all := rfl
  have hview : t.viewSignals config id = gather (fun e : LayoutKey × SizeEntry =>
      t.sizeSignals config id e.1 e.2.value) (t.layout.sizes id).toList := rfl
  rw [hview, hall]
  unfold PropertyTable.toList Table.toList
  rw [List.filterMap_eq_flatMap_toList, Reported.gather_flatMap]
  congr 1
  funext key
  rw [Reported.gather_toList]
  change ((t.layout.sizeAt? id key).map _).elim _ _ = _
  unfold keySignals
  cases t.layout.sizeAt? id key <;> rfl

/-- The recursion by one step, with the declarations of the view itself as the program collects
them. -/
theorem declarations_eq (id : ViewId) :
    t.declarations config id = (do
      let own ← t.viewSignals config id
      let below ← gather (t.declarations config) (t.children id)
      pure (own ++ below)) := by
  have hbelow : ((t.children id).attach.mapM fun c => t.declarations config c.1) =
      (t.children id).mapM (t.declarations config) := by
    rw [List.mapM_subtype (g := t.declarations config) (fun _ _ => rfl), List.unattach_attach]
  rw [declarations, hbelow, viewSignals_eq_gather]
  congr 1
  funext own
  rw [gather, bind_map_left]

/-- **The recursion collects what the views of the subtree declare**, in order. -/
theorem declarations_eq_gather (id : ViewId) :
    t.declarations config id = gather (t.viewSignals config) (t.subtree id) := by
  induction id using t.downInduction with
  | step id ih =>
    rw [declarations_eq, subtree_eq, Reported.gather_cons, Reported.gather_flatMap,
      Reported.gather_congr ih]

/-! ## The order of the views -/

/-- A child has its subtree in that of the parent, in the same order. -/
theorem subtree_sublist_of_mem_children {p c : ViewId} (hc : c ∈ t.children p) :
    t.subtree c <+ t.subtree p := by
  have hbelow : [c].flatMap t.subtree <+ (t.children p).flatMap t.subtree :=
    (List.singleton_sublist.mpr hc).flatMap t.subtree
  rw [List.flatMap_singleton] at hbelow
  rw [subtree_eq t p]
  exact hbelow.trans (List.sublist_cons_self p _)

/-- What lies in a subtree has its own subtree there, in the same order. -/
theorem subtree_sublist {a b : ViewId} (hb : b ∈ t.subtree a) : t.subtree b <+ t.subtree a := by
  induction a using t.downInduction with
  | step a ih =>
    rcases mem_subtree_iff.mp hb with rfl | ⟨c, hc, hb⟩
    · exact List.Sublist.refl _
    · exact (ih c hc hb).trans (subtree_sublist_of_mem_children hc)

/-- **A view comes before all that lie below it.** -/
theorem before_below {a b : ViewId} (hb : b ∈ t.subtree a) (hne : b ≠ a) :
    [a, b] <+ t.subtree a := by
  rw [subtree_eq, List.mem_cons] at hb
  rw [subtree_eq]
  exact (List.singleton_sublist.mpr (hb.resolve_left hne)).cons_cons a

/-- **What lies below one child comes before what lies below a later one.** Here `[c, d] <+ l` says
that `c` stands before `d` in the list `l`. -/
theorem before_beside {p c d a b : ViewId} (hcd : [c, d] <+ t.children p) (ha : a ∈ t.subtree c)
    (hb : b ∈ t.subtree d) : [a, b] <+ t.subtree p := by
  have hab : [a] ++ [b] <+ t.subtree c ++ t.subtree d :=
    (List.singleton_sublist.mpr ha).append (List.singleton_sublist.mpr hb)
  have hbelow : t.subtree c ++ t.subtree d <+ (t.children p).flatMap t.subtree := by
    have hpair := hcd.flatMap t.subtree
    rwa [List.flatMap_cons, List.flatMap_singleton] at hpair
  rw [subtree_eq]
  exact (hab.trans hbelow).trans (List.sublist_cons_self p _)

namespace Linked

/-- In a linked tree the children that a view lists are all the children it has: every place in its
list lies behind it and holds a view. -/
theorem listed_eq_children (hl : t.Linked) (p : ViewId) : t.listed p = t.children p := by
  cases hv : t.view? p with
  | none => simp [listed, children, hv]
  | some v => simp [listed, hl.children_eq hv, hv]

/-- What is reached by way of listed children lies in the subtree. -/
theorem mem_subtree_of_reaches (hl : t.Linked) {a b : ViewId}
    (h : Relation.ReflTransGen (fun p c => c ∈ t.listed p) a b) : b ∈ t.subtree a := by
  induction h with
  | refl => exact mem_subtree_self a
  | tail _ hc ih =>
    rw [hl.listed_eq_children] at hc
    exact mem_subtree_of_mem_children ih hc

/-- A linked tree is walked from its first view, if it has any. -/
theorem walk_root_eq (hl : t.Linked) :
    t.walk t.root.toList = if t.size = 0 then [] else t.subtree 0 := by
  rw [walk_eq_flatMap, hl.root_eq]
  split
  · rfl
  · exact List.flatMap_singleton ..

/-- **The walk comes by every view once.** -/
theorem perm_walk_root (hl : t.Linked) : (t.walk t.root.toList).Perm (List.range t.size) := by
  rw [hl.walk_root_eq]
  by_cases hsize : t.size = 0
  · rw [if_pos hsize, hsize]
    exact List.Perm.refl _
  · rw [if_neg hsize, List.perm_ext_iff_of_nodup (hl.nodup_subtree 0) List.nodup_range]
    intro id
    rw [List.mem_range]
    constructor
    · intro hid
      rcases hl.mem_subtree_iff_parent?.mp hid with rfl | ⟨p, hp, -⟩
      · exact Nat.pos_of_ne_zero hsize
      · exact lt_size_of_parent? hp
    · exact hl.mem_subtree_root

/-- The subtree of every view is passed on the walk, in order. -/
theorem subtree_sublist_walk (hl : t.Linked) {a : ViewId} (ha : a < t.size) :
    t.subtree a <+ t.walk t.root.toList := by
  rw [hl.walk_root_eq, if_neg (Nat.ne_zero_of_lt ha)]
  exact subtree_sublist (hl.mem_subtree_root ha)

/-- **On the walk a view comes before all that lie below it.** -/
theorem walk_before_below (hl : t.Linked) {a b : ViewId}
    (hab : Relation.TransGen (fun p c => c ∈ t.listed p) a b) : [a, b] <+ t.walk t.root.toList := by
  obtain ⟨c, hc, hcb⟩ := Relation.TransGen.head'_iff.mp hab
  rw [hl.listed_eq_children] at hc
  have hb := hl.mem_subtree_of_reaches hcb
  have hne : b ≠ a := fun heq => not_mem_subtree_of_child hc (heq ▸ hb)
  have hlt := lt_of_mem_children hc
  exact (before_below (mem_subtree_of_child hc hb) hne).trans
    (hl.subtree_sublist_walk (Nat.lt_trans hlt.1 hlt.2))

/-- **What lies below one child comes before what lies below a later one**, on the walk too. -/
theorem walk_before_beside (hl : t.Linked) {p c d a b : ViewId} (hcd : [c, d] <+ t.listed p)
    (ha : Relation.ReflTransGen (fun p c => c ∈ t.listed p) c a)
    (hb : Relation.ReflTransGen (fun p c => c ∈ t.listed p) d b) :
    [a, b] <+ t.walk t.root.toList := by
  rw [hl.listed_eq_children] at hcd
  have hlt := lt_of_mem_children (hcd.subset List.mem_cons_self)
  exact (before_beside hcd (hl.mem_subtree_of_reaches ha) (hl.mem_subtree_of_reaches hb)).trans
    (hl.subtree_sublist_walk (Nat.lt_trans hlt.1 hlt.2))

end Linked

/-! ## With a stack -/

/-- **The state of the loop**: the views still to visit, the next one last, those visited before,
and what they have declared. -/
structure Traversal where
  /-- The views still to visit. The top of the stack is its last member. -/
  stack : List ViewId
  /-- The views visited so far, in order. -/
  visited : List ViewId := []
  /-- What they have declared, and what was reported on the way. -/
  declared : Reported (List SignalDecl) := pure []

namespace Traversal

/-- Only the root is still to visit, if there is one. -/
def start (t : ViewTree) : Traversal where
  stack := t.root.toList

/-- **One turn.** It takes the last view from the stack, appends its declarations, and puts its
children there, the first one last. There is none if the stack is empty, or if there is no such
view. The children are those that the view lists, whatever they are. -/
def turn? (t : ViewTree) (config : Config) (s : Traversal) : Option Traversal := do
  let id ← s.stack.getLast?
  let v ← t.view? id
  some {
    stack := s.stack.dropLast ++ v.children.reverse
    visited := s.visited ++ [id]
    declared := do
      let before ← s.declared
      let own ← t.viewSignals config id
      pure (before ++ own) }

/-- **A number of turns**; none if one of them is none. -/
def turns (t : ViewTree) (config : Config) : Nat → Traversal → Option Traversal
  | 0, s => some s
  | n + 1, s => (s.turn? t config).bind (turns t config n)

/-- The views that the stack leads to, in the order in which the walk comes by them. The stack is
read from its top, so it is reversed. -/
def ahead (t : ViewTree) (s : Traversal) : List ViewId := t.walk s.stack.reverse

/-- **What every turn keeps**: there are views only on the stack, what was visited and what lies ahead
make up the walk from the root, and what has been declared is what was visited declares. -/
structure OnTheWay (t : ViewTree) (config : Config) (s : Traversal) : Prop where
  /-- There are views only on the stack. -/
  isView : ∀ id ∈ s.stack, id < t.size
  /-- What was visited and what lies ahead make up the walk from the root. -/
  visited_append : s.visited ++ s.ahead t = t.walk t.root.toList
  /-- What has been declared is what was visited declares. -/
  declared_eq : s.declared = gather (t.viewSignals config) s.visited

variable {config} {s : Traversal}

/-- A turn on a stack with a view on top. -/
theorem turn?_eq_some {stack : List ViewId} {id : ViewId} {v : View}
    (hstack : s.stack = stack ++ [id]) (hv : t.view? id = some v) :
    s.turn? t config = some {
      stack := stack ++ v.children.reverse
      visited := s.visited ++ [id]
      declared := do
        let before ← s.declared
        let own ← t.viewSignals config id
        pure (before ++ own) } := by
  unfold turn?
  rw [hstack, List.getLast?_concat, List.dropLast_concat]
  simp [hv]

/-- **A turn visits the first of the views ahead** and keeps the rest ahead. -/
theorem OnTheWay.exists_turn? (hl : t.Linked) (hs : s.OnTheWay t config) {id : ViewId}
    {rest : List ViewId} (hahead : s.ahead t = id :: rest) :
    ∃ s', s.turn? t config = some s' ∧ s'.ahead t = rest ∧ s'.OnTheWay t config := by
  rcases List.eq_nil_or_concat' s.stack with hnil | ⟨stack, top, hstack⟩
  · unfold ahead at hahead
    rw [hnil, List.reverse_nil, walk] at hahead
    cases hahead
  · have hwalk : s.ahead t = top :: t.walk (t.children top ++ stack.reverse) := by
      unfold ahead
      rw [hstack, List.reverse_concat, walk]
    obtain ⟨v, hv⟩ := exists_view? (hs.isView top (by rw [hstack]; simp))
    obtain ⟨rfl, rfl⟩ := List.cons.inj (hwalk.symm.trans hahead)
    -- The children come off the stack in their own order.
    have hrest : t.walk (stack ++ v.children.reverse).reverse =
        t.walk (t.children top ++ stack.reverse) := by
      rw [List.reverse_append, List.reverse_reverse, hl.children_eq hv]
    refine ⟨_, turn?_eq_some hstack hv, hrest, ?_, ?_, ?_⟩
    · intro c hc
      rcases List.mem_append.mp hc with hc | hc
      · exact hs.isView c (by rw [hstack]; exact List.mem_append_left _ hc)
      · rw [List.mem_reverse, ← hl.children_eq hv] at hc
        exact (lt_of_mem_children hc).2
    · rw [← hs.visited_append, hwalk, ahead, hrest, List.append_assoc]
      rfl
    · change _ = gather (t.viewSignals config) (s.visited ++ [top])
      rw [Reported.gather_append, Reported.gather_singleton, hs.declared_eq]

/-- **As many turns as there are views ahead** empty the stack. The induction is on the views
ahead. -/
theorem OnTheWay.exists_turns (hl : t.Linked) (hs : s.OnTheWay t config) :
    ∃ last, turns t config (s.ahead t).length s = some last ∧ last.stack = [] ∧
      last.OnTheWay t config := by
  induction hahead : s.ahead t generalizing s with
  | nil =>
    refine ⟨s, rfl, ?_, hs⟩
    rcases List.eq_nil_or_concat' s.stack with hnil | ⟨stack, top, hstack⟩
    · exact hnil
    · unfold ahead at hahead
      rw [hstack, List.reverse_concat, walk] at hahead
      cases hahead
  | cons id rest ih =>
    obtain ⟨s', hturn, hahead', hs'⟩ := hs.exists_turn? hl hahead
    obtain ⟨last, hlast, hempty, hway⟩ := ih hs' hahead'
    refine ⟨last, ?_, hempty, hway⟩
    rw [List.length_cons, turns, hturn]
    exact hlast

/-- The loop starts on the way: nothing was visited, and the whole walk lies ahead. -/
theorem onTheWay_start (config : Config) (hl : t.Linked) : (start t).OnTheWay t config := by
  refine ⟨?_, ?_, rfl⟩
  · intro id hid
    exact hl.lt_size_of_root (Option.mem_toList.mp hid)
  · unfold start ahead
    cases t.root <;> rfl

end Traversal

/-! ## The whole traversal -/

/-- The declarations of a tree are those of the views on the walk. -/
theorem signals_eq_gather : t.signals config = gather (t.viewSignals config) (t.walk t.root.toList) :=
  rfl

/-- **The declarations of a tree by recursion**: those of the root, or none. -/
theorem signals_eq_declarations : t.signals config = t.root.elim (pure []) (t.declarations config) := by
  rw [signals_eq_gather, walk_eq_flatMap]
  cases t.root with
  | none => rfl
  | some root =>
    rw [Option.toList_some, List.flatMap_singleton, ← declarations_eq_gather]
    rfl

/-- **The loop over a stack does what the recursion does**, on every tree whose links agree and
whatever its layout and the configuration. It ends after as many turns as there are views, with every
view visited once, and has collected the declarations of the tree. These are what the recursion collects:
the sizes of a view in order, then the subtrees of the children that it lists, in order; without a root
there are none. They stand there view by view as they were visited, a view before all that lie below it,
and what lies below one child before what lies below a later one. -/
theorem Linked.traversal_eq_declarations (hl : t.Linked) :
    ∃ last, Traversal.turns t config t.size (.start t) = some last ∧ last.stack = [] ∧
      last.declared = t.signals config ∧
      t.signals config = t.root.elim (pure []) (t.declarations config) ∧
      (∀ id, t.declarations config id = (do
        let own ← gather (t.keySignals config id) [.width, .height, .childWidth, .childHeight]
        let below ← gather (t.declarations config) (t.listed id)
        pure (own ++ below))) ∧
      last.visited.Perm (List.range t.size) ∧
      (t.signals config).value = last.visited.flatMap (fun id => (t.viewSignals config id).value) ∧
      (∀ a b, Relation.TransGen (fun p c => c ∈ t.listed p) a b → [a, b] <+ last.visited) ∧
      ∀ p c d a b, [c, d] <+ t.listed p → Relation.ReflTransGen (fun p c => c ∈ t.listed p) c a →
        Relation.ReflTransGen (fun p c => c ∈ t.listed p) d b → [a, b] <+ last.visited := by
  have hstart := Traversal.onTheWay_start config hl
  -- At the start the whole walk is ahead, which comes by each view once.
  have hlength : (Traversal.ahead t (.start t)).length = t.size := by
    have hwalk := hstart.visited_append
    rw [show (Traversal.start t).visited = [] from rfl, List.nil_append] at hwalk
    rw [hwalk, hl.perm_walk_root.length_eq, List.length_range]
  obtain ⟨last, hlast, hempty, hway⟩ := hstart.exists_turns hl
  rw [hlength] at hlast
  -- At the end nothing is ahead, so all of it has been visited.
  have hvisited : last.visited = t.walk t.root.toList := by
    rw [← hway.visited_append, Traversal.ahead, hempty, List.reverse_nil, walk, List.append_nil]
  refine ⟨last, hlast, hempty, ?_, signals_eq_declarations config, ?_, ?_, ?_, ?_, ?_⟩
  · rw [hway.declared_eq, hvisited]
    rfl
  · intro id
    rw [declarations_eq, viewSignals_eq_gather, hl.listed_eq_children]
  · rw [hvisited]
    exact hl.perm_walk_root
  · rw [hvisited, walk_eq_flatMap]
    exact t.value_signals config
  · intro a b hab
    rw [hvisited]
    exact hl.walk_before_below hab
  · intro p c d a b hcd ha hb
    rw [hvisited]
    exact hl.walk_before_beside hcd ha hb

/-- A layer in a layer, beside a unit view. The mark in the inner one was added last, so it stands
behind the unit view in the list of views, but before it on the walk. -/
def panels : ViewTree :=
  { grow { name := "panels", kind := .layer }
      [(0, { name := "left", kind := .layer }), (0, { name := "right", kind := .unit {} }),
        (1, { name := "mark", kind := .unit {} })] with
    layout := (({} : Layout).setSize 2 .height (.inferred (some (.pixels 30)))).setSize 3 .width
      (.inferred (some (.pixels 20))) }

/-- The mark is visited before the unit view beside its layer, and declares first. -/
theorem traversal_panels :
    ∃ last, Traversal.turns panels {} 4 (.start panels) = some last ∧ last.visited = [0, 1, 3, 2] ∧
      last.visited.Perm (List.range 4) ∧ last.declared = panels.signals {} ∧
      panels.declared {} = ["mark_width", "right_height"] := by
  have hl : panels.Linked := (grown_grow _ _).linked.withLayout _
  obtain ⟨last, hlast, -, hdeclared, -, -, hperm, -⟩ := hl.traversal_eq_declarations {}
  have hsize : panels.size = 4 := rfl
  rw [hsize] at hlast hperm
  refine ⟨last, hlast, ?_, hperm, hdeclared, ?_⟩
  · have hrun : (Traversal.turns panels {} 4 (.start panels)).map Traversal.visited =
        some [0, 1, 3, 2] := by with_unfolding_all rfl
    rw [hlast] at hrun
    exact Option.some.inj hrun
  · with_unfolding_all rfl

end ViewTree

end ChartCompiler
