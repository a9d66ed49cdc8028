import ChartCompiler.View.Tree
import Mathlib.Tactic.ByContra

/-!
# Links of a tree

A tree keeps its links twice: every view names its parent, and every parent lists its children.

* `ViewTree.parent?` — the parent of a view. Like `ViewTree.children` it lists only what lies on the
  right side of the view, so every walk up the tree ends.
* `ViewTree.Linked` — **the links agree**: the first view is the root, every other view stands
  behind its parent, and a view is listed exactly once, by its parent.
* `ViewTree.Grown` — trees that were only grown, from nothing and with views without sizes;
  `ViewTree.grow` grows one from a list of views.
* `ViewTree.Grown.linked` — **growing keeps the links in agreement**.

A tree is an array of views, and a link is a place in it. That a child stands behind its parent is
what makes every recursion over the tree end, and it is kept because views are only ever added at
the back. Adding a child changes two views, the new one and its parent, and the section on a tree
with a child added says how each kind of link changes with them; the proof that links stay in
agreement then goes field by field.
-/

namespace ChartCompiler.ViewTree

/-- The parent of a view: the one that it names, if that stands before it. -/
def parent? (t : ViewTree) (id : ViewId) : Option ViewId :=
  ((t.view? id).bind View.parent).filter (· < id)

/-- A parent stands before its children. -/
theorem lt_of_parent? {t : ViewTree} {id p : Nat} (h : t.parent? id = some p) : p < id := by
  have := (Option.filter_eq_some_iff.mp h).2
  simpa using this

/-- **The links of a tree agree.** Everything that is proved of settling and declaring asks this of
a tree and nothing more, unless it speaks of sizes left from before. -/
structure Linked (t : ViewTree) : Prop where
  /-- Without views there is no root, and otherwise the first view is. -/
  root_eq : t.root = if t.size = 0 then none else some 0
  /-- The root has no parent. -/
  parent_root : ∀ v, t.view? 0 = some v → v.parent = none
  /-- Every view other than the root has a parent, and stands behind it. -/
  parent_lt : ∀ id v, t.view? id = some v → id ≠ 0 → ∃ p, v.parent = some p ∧ p < id
  /-- A view lists those views that name it as their parent. -/
  mem_children_iff : ∀ p v, t.view? p = some v → ∀ c,
    c ∈ v.children ↔ ∃ w, t.view? c = some w ∧ w.parent = some p
  /-- A view lists each of its children once. -/
  nodup_children : ∀ p v, t.view? p = some v → v.children.Nodup
  /-- Unit views have no children. -/
  children_unit : ∀ id v, t.view? id = some v → v.kind.isUnit = true → v.children = []

/-! ## Growing -/

/-- There are views at the places before the size, and nowhere else. -/
theorem view?_eq_none_iff {t : ViewTree} {id : Nat} : t.view? id = none ↔ t.size ≤ id :=
  Array.getElem?_eq_none_iff

/-- A view stands before the end of the tree. -/
theorem lt_size_of_view? {t : ViewTree} {id : Nat} {v : View} (h : t.view? id = some v) :
    id < t.size := by
  refine Nat.lt_of_not_le fun hle => ?_
  rw [view?_eq_none_iff.mpr hle] at h
  cases h

/-- At each place before the size there is a view. -/
theorem exists_view? {t : ViewTree} {id : Nat} (h : id < t.size) : ∃ v, t.view? id = some v :=
  ⟨t.views[id], Array.getElem?_eq_getElem h⟩

/-- Only views have parents. -/
theorem lt_size_of_parent? {t : ViewTree} {id p : Nat} (h : t.parent? id = some p) :
    id < t.size := by
  obtain ⟨v, hv, -⟩ := Option.bind_eq_some_iff.mp (Option.filter_eq_some_iff.mp h).1
  exact lt_size_of_view? hv

/-- A view that is added stands behind all others, with the parent it was added to and without
children, whatever links it came with. -/
theorem view?_push (t : ViewTree) (v : View) (sizes : SizeTable) (parent : Option Nat)
    (id : Nat) :
    (t.push v sizes parent).view? id =
      if id = t.size then some { v with parent := parent, children := [] } else t.view? id :=
  Array.getElem?_push

/-- Linking a child changes one list of children only. -/
theorem view?_link (t : ViewTree) (parent child id : Nat) :
    (t.link parent child).view? id =
      (t.view? id).map fun v =>
        if id = parent then { v with children := v.children ++ [child] } else v := by
  show (t.views.modify parent _)[id]? = t.views[id]?.map _
  rw [Array.getElem?_modify]
  by_cases h : parent = id
  · simp [h]
  · have h' : id ≠ parent := fun he => h he.symm
    simp [h, h']

/-- **What adding the root does**: it needs a tree without one. -/
theorem addRoot_eq_ok {t t' : ViewTree} {v : View} {sizes : SizeTable} {id : Nat}
    (h : t.addRoot v sizes = .ok (id, t')) :
    t.root = none ∧ id = t.size ∧ t' = { t.push v sizes none with root := some t.size } := by
  unfold addRoot at h
  cases hroot : t.root with
  | some root => rw [hroot] at h; cases h
  | none =>
    rw [hroot] at h
    obtain ⟨rfl, rfl⟩ := Prod.mk.inj (Except.ok.inj h)
    exact ⟨rfl, rfl, rfl⟩

/-- **What adding a child does**: it needs a parent that is not a unit view, and pushes the view
before it links it. -/
theorem addChild_eq_ok {t t' : ViewTree} {parent : Nat} {v : View} {sizes : SizeTable}
    {id : Nat} (h : t.addChild parent v sizes = .ok (id, t')) :
    (∃ p, t.view? parent = some p ∧ p.kind.isUnit = false) ∧ id = t.size ∧
      t' = (t.push v sizes (some parent)).link parent t.size := by
  unfold addChild at h
  cases hview : t.view? parent with
  | none => rw [hview] at h; cases h
  | some p =>
    rw [hview] at h
    cases hunit : p.kind.isUnit with
    | true => simp [hunit] at h
    | false =>
      simp only [hunit, Bool.false_eq_true, if_false, Except.ok.injEq, Prod.mk.injEq] at h
      exact ⟨⟨p, rfl, hunit⟩, h.1.symm, h.2.symm⟩

/-- The views of a tree with a child added: the new one, its parent with one more child, and all
others as they were. -/
theorem view?_link_push {t : ViewTree} {parent : Nat} (hparent : parent < t.size) (v : View)
    (sizes : SizeTable) (id : Nat) :
    ((t.push v sizes (some parent)).link parent t.size).view? id =
      if id = t.size then some { v with parent := some parent, children := [] }
      else (t.view? id).map fun w =>
        if id = parent then { w with children := w.children ++ [t.size] } else w := by
  rw [view?_link, view?_push]
  by_cases h : id = t.size
  · have hne : t.size ≠ parent := by omega
    simp [h, hne]
  · simp [h]

/-! ## A tree with a child added -/

section link_push

variable {t : ViewTree} {parent : Nat} {v : View} {sizes : SizeTable}

/-- There is one more view. -/
theorem size_link_push :
    ((t.push v sizes (some parent)).link parent t.size).size = t.size + 1 := by
  simp [ViewTree.size, link, push]

/-- The view that was added has the parent it was added to, and no children. -/
theorem of_view?_link_push_last (hparent : parent < t.size) {w : View}
    (hw : ((t.push v sizes (some parent)).link parent t.size).view? t.size = some w) :
    w.parent = some parent ∧ w.children = [] := by
  rw [view?_link_push hparent, if_pos rfl] at hw
  obtain rfl := Option.some.inj hw
  exact ⟨rfl, rfl⟩

/-- **What changed of the other views** is the parent's list of children. -/
theorem exists_of_view?_link_push (hparent : parent < t.size) {id : Nat} {w : View}
    (hw : ((t.push v sizes (some parent)).link parent t.size).view? id = some w)
    (hid : id ≠ t.size) :
    ∃ w', t.view? id = some w' ∧ w.parent = w'.parent ∧ w.kind = w'.kind ∧
      w.children = if id = parent then w'.children ++ [t.size] else w'.children := by
  rw [view?_link_push hparent, if_neg hid] at hw
  obtain ⟨w', hw', rfl⟩ := Option.map_eq_some_iff.mp hw
  refine ⟨w', hw', ?_⟩
  split <;> exact ⟨rfl, rfl, rfl⟩

/-- **Who names whom as its parent**: beside the links from before, the view that was added. -/
theorem exists_parent_link_push_iff (hparent : parent < t.size) {q c : Nat} :
    (∃ w, ((t.push v sizes (some parent)).link parent t.size).view? c = some w ∧
        w.parent = some q) ↔
      (c = t.size ∧ q = parent) ∨ ∃ w, t.view? c = some w ∧ w.parent = some q := by
  by_cases hc : c = t.size
  · subst hc
    rw [view?_eq_none_iff.mpr (Nat.le_refl _), view?_link_push hparent, if_pos rfl]
    simp [eq_comm]
  · rw [view?_link_push hparent, if_neg hc]
    constructor
    · rintro ⟨w, hw, hq⟩
      obtain ⟨w', hw', rfl⟩ := Option.map_eq_some_iff.mp hw
      refine .inr ⟨w', hw', ?_⟩
      split at hq <;> exact hq
    · rintro (⟨hc', -⟩ | ⟨w', hw', hq⟩)
      · exact absurd hc' hc
      · refine ⟨_, Option.map_eq_some_iff.mpr ⟨w', hw', rfl⟩, ?_⟩
        split <;> exact hq

end link_push

/-! ## Keeping the links in agreement -/

namespace Linked

variable {t : ViewTree}

/-- The tree without views is linked: there is nothing to agree. -/
theorem empty : ViewTree.empty.Linked where
  root_eq := rfl
  parent_root v h := by cases h
  parent_lt id v h := by cases h
  mem_children_iff p v h := by cases h
  nodup_children p v h := by cases h
  children_unit id v h := by cases h

/-- A named parent stands before the view that names it. -/
theorem lt_of_parent (h : t.Linked) {id p : Nat} {v : View} (hv : t.view? id = some v)
    (hp : v.parent = some p) : p < id := by
  by_cases hid : id = 0
  · subst hid
    rw [h.parent_root v hv] at hp
    cases hp
  · obtain ⟨p', hp', hlt⟩ := h.parent_lt id v hv hid
    rw [hp'] at hp
    exact Option.some.inj hp ▸ hlt

/-- The root is the first view. -/
theorem root_eq_zero (h : t.Linked) {root : Nat} (hroot : t.root = some root) : root = 0 := by
  rw [h.root_eq] at hroot
  split at hroot
  · cases hroot
  · exact (Option.some.inj hroot).symm

/-- The root is one of the views. -/
theorem lt_size_of_root (h : t.Linked) {root : Nat} (hroot : t.root = some root) :
    root < t.size := by
  rw [h.root_eq] at hroot
  split at hroot
  · cases hroot
  · next hsize =>
    rw [← Option.some.inj hroot]
    exact Nat.pos_of_ne_zero hsize

/-- The links of a tree do not depend on the layout. -/
theorem withLayout (h : t.Linked) (l : Layout) : ({ t with layout := l } : ViewTree).Linked :=
  ⟨h.root_eq, h.parent_root, h.parent_lt, h.mem_children_iff, h.nodup_children, h.children_unit⟩

/-- **Adding the root keeps the links in agreement.** A tree without a root has no views, so the
root is all there is. -/
theorem addRoot (h : t.Linked) {t' : ViewTree} {v : View} {sizes : SizeTable} {id : Nat}
    (hadd : t.addRoot v sizes = .ok (id, t')) : t'.Linked := by
  obtain ⟨hroot, rfl, rfl⟩ := addRoot_eq_ok hadd
  have hsize : t.size = 0 := by
    by_contra hne
    rw [h.root_eq, if_neg hne] at hroot
    cases hroot
  have hview : ∀ id w, ({ t.push v sizes none with root := some t.size } : ViewTree).view? id
      = some w → id = 0 ∧ w = { v with parent := none, children := [] } := by
    intro id w hw
    change (t.push v sizes none).view? id = some w at hw
    rw [view?_push] at hw
    by_cases hid : id = t.size
    · rw [if_pos hid] at hw
      exact ⟨hid.trans hsize, (Option.some.inj hw).symm⟩
    · rw [if_neg hid, view?_eq_none_iff.mpr (by omega)] at hw
      cases hw
  refine
    { root_eq := ?root_eq
      parent_root := ?parent_root
      parent_lt := ?parent_lt
      mem_children_iff := ?mem_children
      nodup_children := ?nodup_children
      children_unit := ?children_unit }
  case root_eq =>
    have : ({ t.push v sizes none with root := some t.size } : ViewTree).size = t.size + 1 :=
      Array.size_push _
    rw [this, if_neg (by omega), hsize]
  case parent_root =>
    intro w hw
    rw [(hview 0 w hw).2]
  case parent_lt =>
    intro id w hw hid
    exact absurd (hview id w hw).1 hid
  case mem_children =>
    intro p w hw c
    obtain ⟨-, rfl⟩ := hview p w hw
    constructor
    · intro hc
      cases hc
    · rintro ⟨w', hw', hp⟩
      rw [(hview c w' hw').2] at hp
      cases hp
  case nodup_children =>
    intro p w hw
    rw [(hview p w hw).2]
    exact List.nodup_nil
  case children_unit =>
    intro id w hw _
    rw [(hview id w hw).2]

/-- A view that is not there yet is nobody's child. So a child that is added is listed once. -/
theorem size_not_mem_children (h : t.Linked) {id : Nat} {v : View} (hv : t.view? id = some v) :
    t.size ∉ v.children := by
  intro hmem
  obtain ⟨w, hw, -⟩ := (h.mem_children_iff id v hv _).mp hmem
  exact Nat.lt_irrefl _ (lt_size_of_view? hw)

/-- **Adding a child keeps the links in agreement.** Each field is checked for the new view, for its
parent and for all other views. -/
theorem addChild (h : t.Linked) {t' : ViewTree} {parent : Nat} {v : View} {sizes : SizeTable}
    {id : Nat} (hadd : t.addChild parent v sizes = .ok (id, t')) : t'.Linked := by
  obtain ⟨⟨p, hp, hunit⟩, rfl, rfl⟩ := addChild_eq_ok hadd
  have hlt : parent < t.size := lt_size_of_view? hp
  refine
    { root_eq := ?root_eq
      parent_root := ?parent_root
      parent_lt := ?parent_lt
      mem_children_iff := ?mem_children
      nodup_children := ?nodup_children
      children_unit := ?children_unit }
  case root_eq =>
    have hroot : t.root = some 0 := by rw [h.root_eq, if_neg (by omega)]
    rw [size_link_push, if_neg (by omega)]
    exact hroot
  case parent_root =>
    intro w hw
    obtain ⟨w', hw', hpar, -, -⟩ := exists_of_view?_link_push hlt hw (by omega)
    exact hpar.trans (h.parent_root w' hw')
  case parent_lt =>
    intro id w hw hid
    by_cases hlast : id = t.size
    · subst hlast
      exact ⟨parent, (of_view?_link_push_last hlt hw).1, hlt⟩
    · obtain ⟨w', hw', hpar, -, -⟩ := exists_of_view?_link_push hlt hw hlast
      rw [hpar]
      exact h.parent_lt id w' hw' hid
  case mem_children =>
    intro q w hw c
    rw [exists_parent_link_push_iff hlt]
    -- The new view has no children yet; of the others only the parent lists one more.
    by_cases hlast : q = t.size
    · subst hlast
      rw [(of_view?_link_push_last hlt hw).2]
      constructor
      · intro hc
        cases hc
      · rintro (⟨-, hq⟩ | ⟨w', hw', hq⟩)
        · exact absurd (hq ▸ hlt) (Nat.lt_irrefl _)
        · have := h.lt_of_parent hw' hq
          have := lt_size_of_view? hw'
          omega
    · obtain ⟨w', hw', -, -, hchildren⟩ := exists_of_view?_link_push hlt hw hlast
      rw [hchildren, ← h.mem_children_iff q w' hw']
      by_cases hq : q = parent
      · rw [if_pos hq, List.mem_append, List.mem_singleton, or_comm]
        simp [hq]
      · rw [if_neg hq]
        simp [hq]
  case nodup_children =>
    intro q w hw
    by_cases hlast : q = t.size
    · subst hlast
      rw [(of_view?_link_push_last hlt hw).2]
      exact List.nodup_nil
    · obtain ⟨w', hw', -, -, hchildren⟩ := exists_of_view?_link_push hlt hw hlast
      have hnodup := h.nodup_children q w' hw'
      rw [hchildren]
      split
      · refine List.nodup_append.mpr ⟨hnodup, List.pairwise_singleton _ _, ?_⟩
        rintro a ha b hb rfl
        exact h.size_not_mem_children hw' (List.mem_singleton.mp hb ▸ ha)
      · exact hnodup
  case children_unit =>
    intro id w hw hkind
    by_cases hlast : id = t.size
    · subst hlast
      exact (of_view?_link_push_last hlt hw).2
    · obtain ⟨w', hw', -, hk, hchildren⟩ := exists_of_view?_link_push hlt hw hlast
      rw [hk] at hkind
      -- The parent, which is given a child, is no unit view: the tree has refused that.
      have hne : id ≠ parent := by
        rintro rfl
        rw [hp] at hw'
        obtain rfl := Option.some.inj hw'
        rw [hunit] at hkind
        cases hkind
      rw [hchildren, if_neg hne]
      exact h.children_unit id w' hw' hkind

end Linked

/-- **Trees that were only grown**, with views without sizes. No scale, sharing or rename was set
afterwards, and nothing has been settled. The views themselves may come with any scales and
sharing. -/
inductive Grown : ViewTree → Prop
  /-- The tree without views. -/
  | empty : Grown .empty
  /-- A grown tree with its root added. -/
  | root {t t' : ViewTree} {v : View} {id : ViewId} (grown : Grown t)
      (added : t.addRoot v ∅ = .ok (id, t')) : Grown t'
  /-- A grown tree with a child added to one of its views. -/
  | child {t t' : ViewTree} {parent : ViewId} {v : View} {id : ViewId} (grown : Grown t)
      (added : t.addChild parent v ∅ = .ok (id, t')) : Grown t'

/-- The tree after an attempt to add a view; a failed one leaves it as it was. -/
def orSelf (t : ViewTree) : Except TreeError (ViewId × ViewTree) → ViewTree
  | .ok (_, added) => added
  | .error _ => t

/-- **Grows a tree** from its root and further views, each with the place of its parent. Views that
cannot be added are left out. -/
def grow (root : View) (views : List (ViewId × View)) : ViewTree :=
  views.foldl (fun t v => t.orSelf (t.addChild v.1 v.2 ∅))
    (ViewTree.empty.orSelf (ViewTree.empty.addRoot root ∅))

/-- What has been grown is a grown tree, whichever views were left out. -/
theorem grown_grow (root : View) (views : List (ViewId × View)) : (grow root views).Grown := by
  have hviews : ∀ t : ViewTree, t.Grown →
      (views.foldl (fun t v => t.orSelf (t.addChild v.1 v.2 ∅)) t).Grown := by
    induction views with
    | nil => exact fun t ht => ht
    | cons v rest ih =>
      intro t ht
      rw [List.foldl_cons]
      refine ih _ ?_
      cases hadd : t.addChild v.1 v.2 ∅ with
      | error e => exact ht
      | ok added => exact .child ht hadd
  exact hviews _ (.root .empty rfl)

/-- **The links of a grown tree agree.** The induction is on how it was grown. -/
theorem Grown.linked {t : ViewTree} (h : t.Grown) : t.Linked := by
  induction h with
  | empty => exact .empty
  | root _ added ih => exact ih.addRoot added
  | child _ added ih => exact ih.addChild added

end ChartCompiler.ViewTree
