import ChartCompiler.Proofs.Layout.Outcome
import ChartCompiler.Proofs.Tree.Histories

/-!
# Settling is local

All views share one layout and one table of renames, and a parent writes over what its children have
settled. Still, the call that settles a view reads and writes the sizes of its own subtree only.

* `ViewTree.perform_settle` — what the call leaves: the same views, with another layout.
* `ViewTree.CopiedTo.sizes_settle` — the same subtree in another tree is left with the same sizes.
* `ViewTree.Linked.sizes_settle_comm` — **subtrees that are apart settle in any order**.
* `ViewTree.Linked.settle_local` — **what the call changes, and what this depends on**.

The call may come at any time: after other views have been settled, with sizes and renames left from
before, and on a view that is not the root. All that is asked of the tree is that its links agree.
Renames are the one thing in which the order of calls can show, because each is recorded in the one
table that all views share; only the sizes are said to come out the same.
-/

namespace ChartCompiler

namespace ViewTree

variable {t u : ViewTree} (config : Config)

/-! ## The call -/

/-- **The call that settles a view** works on the layout. Where there is no view it does nothing. -/
theorem perform_settle (t : ViewTree) (id : ViewId) :
    t.perform (.settle config id) = { t with layout := (t.resolve config id t.layout).value } := by
  have hrun : (Call.settle config id).action.run t = _ := Action.run_settle t id _
  rw [perform, hrun, contains]
  cases hv : t.view? id with
  | some v => rfl
  | none =>
    rw [resolve_of_view?_none hv]
    rfl

namespace Linked

variable (hl : t.Linked)

include hl

/-- The entries that the call leaves: those told by recursion in the subtree of the view, and those
from before outside of it. -/
theorem sizeAt?_settle (id x : ViewId) (k : LayoutKey) :
    (t.perform (.settle config id)).layout.sizeAt? x k =
      if x ∈ t.subtree id then t.settledSize? config t.layout id x k
      else t.layout.sizeAt? x k := by
  rw [perform_settle]
  exact sizeAt?_resolve config hl id t.layout x k

/-- **The call leaves the sizes outside of the subtree** as they were. -/
theorem sizes_settle_of_not_mem {id x : ViewId} (hx : x ∉ t.subtree id) :
    (t.perform (.settle config id)).layout.sizes x = t.layout.sizes x := by
  refine Layout.sizes_ext fun k => ?_
  rw [hl.sizeAt?_settle, if_neg hx]

end Linked

/-! ## What the call renames -/

/-- **Whether a view lies below another one**: in its subtree, and not at its top. -/
def IsBelow (t : ViewTree) (id top : ViewId) : Prop := id ∈ t.subtree top ∧ id ≠ top

/-- Children of what lies in a subtree lie below its top. -/
theorem isBelow_of_mem_children {top p c : Nat} (hp : p ∈ t.subtree top) (hc : c ∈ t.children p) :
    t.IsBelow c top := by
  have hlt := Nat.lt_of_le_of_lt (le_of_mem_subtree hp) (lt_of_mem_children hc).1
  exact ⟨mem_subtree_of_mem_children hp hc, Nat.ne_of_gt hlt⟩

/-- **The call renames size signals of views below**, and no others. The size of the view itself
keeps its name, since whether it is left to a parent is decided by another call. -/
theorem Linked.renames_settle (hl : t.Linked) (id : ViewId) :
    ∃ written : List (String × String),
      (t.perform (.settle config id)).layout.renames = t.layout.renames.renameAll written ∧
        ∀ a ∈ written, ∃ c d, t.IsBelow c id ∧ a.1 = t.ownSizeSignal c (Dimension.key d) := by
  refine ⟨t.aliases config t.layout id, ?_, ?_⟩
  · rw [perform_settle]
    exact renames_resolve config hl id t.layout
  · intro a ha
    obtain ⟨p, hp, c, hc, d, -, rfl⟩ := (mem_aliases_iff config).mp ha
    exact ⟨c, d, isBelow_of_mem_children hp hc, rfl⟩

/-! ## The same subtree elsewhere -/

/-- **The call leaves the same sizes** wherever the subtree stands: what is above it and beside it,
its place in the tree and the names of its views do not matter. -/
theorem CopiedTo.sizes_settle {place : ViewId → ViewId} {id : ViewId}
    (h : t.CopiedTo u t.layout u.layout place id) (hl : t.Linked) (hu : u.Linked) {x : ViewId}
    (hx : x ∈ t.subtree id) :
    (u.perform (.settle config (place id))).layout.sizes (place x) =
      (t.perform (.settle config id)).layout.sizes x := by
  refine Layout.sizes_ext fun k => ?_
  rw [hl.sizeAt?_settle, hu.sizeAt?_settle, if_pos hx, if_pos (h.mem_subtree hx),
    h.settledSize?_eq config hl hu hx]

/-! ## Subtrees that are apart -/

namespace Linked

variable (hl : t.Linked)

include hl

/-- Of two views none of which lies below the other the subtrees are apart, as every view has one
parent. -/
theorem not_mem_subtree_of_not_isBelow {a b x : ViewId} (hne : a ≠ b) (hab : ¬ t.IsBelow a b)
    (hba : ¬ t.IsBelow b a) (hx : x ∈ t.subtree a) : x ∉ t.subtree b := by
  intro hxb
  rcases hl.mem_subtree_or_mem_subtree hx hxb with ha | hb
  · exact hab ⟨ha, hne⟩
  · exact hba ⟨hb, hne.symm⟩

/-- **What settles after a subtree that is apart** is left with the same sizes as without it, and the
other sizes are those that were left by then. -/
theorem sizes_settle_settle {a b : ViewId} (hapart : ∀ x ∈ t.subtree a, x ∉ t.subtree b)
    (x : ViewId) :
    ((t.perform (.settle config a)).perform (.settle config b)).layout.sizes x =
      if x ∈ t.subtree b then (t.perform (.settle config b)).layout.sizes x
      else (t.perform (.settle config a)).layout.sizes x := by
  have hlinked := hl.perform (.settle config a)
  have hentry : ∀ y ∈ t.subtree b, ∀ k,
      t.layout.sizeAt? y k = (t.perform (.settle config a)).layout.sizeAt? y k := by
    intro y hy k
    rw [hl.sizeAt?_settle, if_neg fun hya => hapart y hya hy]
  have hcopied := CopiedTo.of_sizeAt? hentry
  rw [perform_settle config t a] at hlinked hcopied ⊢
  split
  · rename_i hb
    exact (hcopied.withLayout _).sizes_settle config hl hlinked hb
  · rename_i hb
    rw [hlinked.sizes_settle_of_not_mem config (by rwa [subtree_withLayout])]

/-- **Subtrees that are apart settle in any order**, as far as sizes are concerned. -/
theorem sizes_settle_comm {a b : ViewId} (hab : ¬ t.IsBelow a b) (hba : ¬ t.IsBelow b a)
    (x : ViewId) :
    ((t.perform (.settle config a)).perform (.settle config b)).layout.sizes x =
      ((t.perform (.settle config b)).perform (.settle config a)).layout.sizes x := by
  by_cases hne : a = b
  · rw [hne]
  have hapart : ∀ x ∈ t.subtree a, x ∉ t.subtree b := fun x =>
    hl.not_mem_subtree_of_not_isBelow hne hab hba
  rw [hl.sizes_settle_settle config hapart,
    hl.sizes_settle_settle config fun x hb ha => hapart x ha hb]
  by_cases ha : x ∈ t.subtree a
  · rw [if_pos ha, if_neg (hapart x ha)]
  · by_cases hb : x ∈ t.subtree b
    · rw [if_neg ha, if_pos hb]
    · rw [if_neg ha, if_neg hb, hl.sizes_settle_of_not_mem config ha,
        hl.sizes_settle_of_not_mem config hb]

/-- **Settling a view is local.** The views and the root stay as they are, and so do the sizes
outside of the subtree. Renamed are size signals of views below. The sizes in the subtree are told
by what was there before: a copy of it in any other tree is left with the same ones. And so views of
which none lies below the other may be settled in any order. -/
theorem settle_local (id : ViewId) :
    let t' := t.perform (.settle config id)
    t'.views = t.views ∧ t'.root = t.root ∧
    (∀ x, x ∉ t.subtree id → t'.layout.sizes x = t.layout.sizes x) ∧
    (∃ written : List (String × String),
      t'.layout.renames = t.layout.renames.renameAll written ∧
        ∀ a ∈ written, ∃ c d, t.IsBelow c id ∧ a.1 = t.ownSizeSignal c (Dimension.key d)) ∧
    (∀ (u : ViewTree) (place : ViewId → ViewId), u.Linked →
      t.CopiedTo u t.layout u.layout place id → ∀ x ∈ t.subtree id,
        (u.perform (.settle config (place id))).layout.sizes (place x) = t'.layout.sizes x) ∧
    ∀ other, ¬ t.IsBelow other id → ¬ t.IsBelow id other → ∀ x,
      (t'.perform (.settle config other)).layout.sizes x =
        ((t.perform (.settle config other)).perform (.settle config id)).layout.sizes x := by
  have hperform := perform_settle config t id
  refine ⟨by rw [hperform], by rw [hperform], ?_, hl.renames_settle config id, ?_, ?_⟩
  · intro x hx
    exact hl.sizes_settle_of_not_mem config hx
  · intro u place hu hcopied x hx
    exact hcopied.sizes_settle config hl hu hx
  · intro other hother hid x
    exact hl.sizes_settle_comm config hid hother x

end Linked

/-! ## Two layers side by side -/

/-- What a container of cells may have been left with before: a size of its cells from some earlier
run. -/
def leftOver : SizeTable := (∅ : SizeTable).put .childWidth (.authored (some (.pixels 7)))

/-- A container over two layers, the first one of a container without cells and a unit view. Sizes
and a rename are left from before. -/
def layersBeside : ViewTree :=
  after
    [.addRoot { name := "chart", kind := .concat } leftOver,
      .addChild 0 { name := "left", kind := .layer } ∅,
      .addChild 1 { name := "cells", kind := .concat } leftOver,
      .addChild 1 { name := "mark", kind := .unit { width := some (.pixels 30) } } ∅,
      .addChild 0 { name := "right", kind := .layer } leftOver,
      .addChild 4 { name := "bar", kind := .unit {} } ∅,
      .rename "mark_width" "old_width"]

/-- The first of the layers as a chart of its own, under other names. -/
def layerAlone : ViewTree :=
  after
    [.addRoot { name := "", kind := .layer } ∅,
      .addChild 0 { name := "x", kind := .concat } leftOver,
      .addChild 0 { name := "y", kind := .unit { width := some (.pixels 30) } } ∅]

/-- The first layer of the one tree stands as the root of the other, each view one place further to
the front. -/
theorem copiedTo_layerAlone :
    layersBeside.CopiedTo layerAlone layersBeside.layout layerAlone.layout (· - 1) 1 := by
  have hmem : ∀ x ∈ layersBeside.subtree 1, x = 1 ∨ x = 2 ∨ x = 3 := by decide +kernel
  constructor
  case view =>
    intro x hx
    rcases hmem x hx with rfl | rfl | rfl <;> exact .some ⟨rfl, rfl, rfl⟩
  case children =>
    intro x hx
    rcases hmem x hx with rfl | rfl | rfl <;> decide +kernel
  case entry =>
    intro x hx k
    rcases hmem x hx with rfl | rfl | rfl <;> cases k <;> rfl

/-- The first layer settles as it does alone, and in any order with the second. What was left over
in the second is not touched by settling the first. -/
theorem settle_local_layersBeside :
    layersBeside.Linked ∧ layerAlone.Linked ∧
      layersBeside.CopiedTo layerAlone layersBeside.layout layerAlone.layout (· - 1) 1 ∧
      ¬ layersBeside.IsBelow 4 1 ∧ ¬ layersBeside.IsBelow 1 4 ∧
      (∀ x ∈ [1, 2, 3],
        (layerAlone.perform (.settle {} 0)).layout.sizes (x - 1) =
          (layersBeside.perform (.settle {} 1)).layout.sizes x) ∧
      (∀ x, ((layersBeside.perform (.settle {} 1)).perform (.settle {} 4)).layout.sizes x =
        ((layersBeside.perform (.settle {} 4)).perform (.settle {} 1)).layout.sizes x) ∧
      (layersBeside.perform (.settle {} 1)).layout.sizes 4 = layersBeside.layout.sizes 4 := by
  have hlinked : layersBeside.Linked := linked_after _
  have hsubtree : layersBeside.subtree 1 = [1, 2, 3] := by decide +kernel
  have hother : layersBeside.subtree 4 = [4, 5] := by decide +kernel
  have hbelow : ¬ layersBeside.IsBelow 4 1 := by simp [IsBelow, hsubtree]
  have hbelow' : ¬ layersBeside.IsBelow 1 4 := by simp [IsBelow, hother]
  obtain ⟨-, -, houtside, -, hcopied, hcomm⟩ := hlinked.settle_local {} 1
  rw [hsubtree] at houtside hcopied
  exact ⟨hlinked, linked_after _, copiedTo_layerAlone, hbelow, hbelow',
    hcopied layerAlone (· - 1) (linked_after _) copiedTo_layerAlone,
    hcomm 4 hbelow hbelow', houtside 4 (by decide)⟩

end ViewTree

end ChartCompiler
