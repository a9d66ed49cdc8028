import ChartCompiler.Layout.Signals
import ChartCompiler.Proofs.Tree.Links
import Mathlib.Data.List.Nodup

/-!
# Up and down a linked tree

In a linked tree the way up, by parents, undoes the way down, by children.

* `Linked.mem_children_iff_parent?` — a view is a child of its parent and of no other view.
* `mem_subtree_iff` — what lies in a subtree, told from the children at its top;
  `Linked.mem_subtree_iff_parent?` — the same told from the parent of the view itself.
* `Linked.disjoint_subtrees` — **the subtrees of two children have no view in common**.
* `Linked.nodup_subtree` — no view comes twice in a subtree.
* `Linked.mem_subtree_root` — **every view lies below the root**.

Inductions down the tree (`downInduction`) hold in any tree, since children stand behind their
parent. Inductions up the tree go by the place of the view, since its parent stands before it, and
these need the links to agree. That two subtrees are disjoint needs both: of two views above a third
one, the later one is met first on the way up.
-/

namespace ChartCompiler.ViewTree

variable {t : ViewTree}

/-! ## Children and parents -/

namespace Linked

/-- All children that a view of a linked tree lists stand behind it. -/
theorem children_eq (h : t.Linked) {id : Nat} {v : View} (hv : t.view? id = some v) :
    t.children id = v.children := by
  unfold children
  rw [hv]
  refine List.filter_eq_self.mpr fun c hc => ?_
  obtain ⟨w, hw, hp⟩ := (h.mem_children_iff id v hv c).mp hc
  simpa using ⟨h.lt_of_parent hw hp, lt_size_of_view? hw⟩

/-- Unit views have no children, listed or not. -/
theorem children_of_isUnit (h : t.Linked) {id : Nat} {v : View} (hv : t.view? id = some v)
    (hunit : v.kind.isUnit = true) : t.children id = [] := by
  rw [h.children_eq hv, h.children_unit id v hv hunit]

/-- A view with children is a composite one. -/
theorem exists_composite_of_mem_children (h : t.Linked) {c p : Nat} (hc : c ∈ t.children p) :
    ∃ v, t.view? p = some v ∧ v.kind.isUnit = false := by
  have hlt := lt_of_mem_children hc
  obtain ⟨v, hv⟩ := exists_view? (Nat.lt_trans hlt.1 hlt.2)
  refine ⟨v, hv, Bool.eq_false_iff.mpr fun hunit => ?_⟩
  rw [h.children_of_isUnit hv hunit] at hc
  cases hc

/-- **A view is a child of its parent** and of no other view. -/
theorem mem_children_iff_parent? (h : t.Linked) {c p : Nat} :
    c ∈ t.children p ↔ t.parent? c = some p := by
  constructor
  · intro hc
    have hlt := lt_of_mem_children hc
    obtain ⟨v, hv⟩ := exists_view? (Nat.lt_trans hlt.1 hlt.2)
    rw [h.children_eq hv, h.mem_children_iff p v hv] at hc
    obtain ⟨w, hw, hp⟩ := hc
    simp [parent?, hw, hp, hlt.1]
  · intro hp
    have hlt := lt_of_parent? hp
    obtain ⟨w, hw, hparent⟩ := Option.bind_eq_some_iff.mp (Option.filter_eq_some_iff.mp hp).1
    obtain ⟨v, hv⟩ := exists_view? (Nat.lt_trans hlt (lt_size_of_view? hw))
    rw [h.children_eq hv, h.mem_children_iff p v hv]
    exact ⟨w, hw, hparent⟩

/-- No child is listed twice. -/
theorem children_nodup (h : t.Linked) (id : Nat) : (t.children id).Nodup := by
  cases hv : t.view? id with
  | none =>
    unfold children
    rw [hv]
    exact List.nodup_nil
  | some v =>
    rw [h.children_eq hv]
    exact h.nodup_children id v hv

/-- Every view but the root has a parent. -/
theorem exists_parent? (h : t.Linked) {id : Nat} (hpos : 0 < id) (hid : id < t.size) :
    ∃ p, t.parent? id = some p := by
  obtain ⟨v, hv⟩ := exists_view? hid
  obtain ⟨p, hp, hlt⟩ := h.parent_lt id v hv (Nat.pos_iff_ne_zero.mp hpos)
  exact ⟨p, by simp [parent?, hv, hp, hlt]⟩

/-- Parents are no unit views. -/
theorem isUnit_of_parent? (h : t.Linked) {c p : ViewId} {v : View} (hp : t.parent? c = some p)
    (hv : t.view? p = some v) : v.kind.isUnit = false := by
  obtain ⟨w, hw, hunit⟩ := h.exists_composite_of_mem_children (h.mem_children_iff_parent?.mpr hp)
  rw [hv] at hw
  exact Option.some.inj hw ▸ hunit

end Linked

/-! ## Subtrees -/

/-- **What lies in a subtree**: the view at its top, and what lies in the subtrees of its children. -/
theorem mem_subtree_iff {id c : Nat} :
    c ∈ t.subtree id ↔ c = id ∨ ∃ child ∈ t.children id, c ∈ t.subtree child := by
  rw [subtree_eq, List.mem_cons, List.mem_flatMap]

/-- A view lies in its own subtree, at the top. -/
theorem mem_subtree_self (id : Nat) : id ∈ t.subtree id := mem_subtree_iff.mpr (.inl rfl)

/-- What lies below a child lies below the view. -/
theorem mem_subtree_of_child {id child c : Nat} (hchild : child ∈ t.children id)
    (hc : c ∈ t.subtree child) : c ∈ t.subtree id :=
  mem_subtree_iff.mpr (.inr ⟨child, hchild, hc⟩)

/-- The children of what lies in a subtree lie in it too. -/
theorem mem_subtree_of_mem_children {id p c : Nat} (hp : p ∈ t.subtree id)
    (hc : c ∈ t.children p) : c ∈ t.subtree id := by
  induction id using t.downInduction with
  | step id ih =>
    rcases mem_subtree_iff.mp hp with rfl | ⟨child, hchild, hp⟩
    · exact mem_subtree_of_child hc (mem_subtree_self c)
    · exact mem_subtree_of_child hchild (ih child hchild hp)

/-- What lies below something in a subtree lies in it too. -/
theorem mem_subtree_trans {a b c : Nat} (hb : b ∈ t.subtree a) (hc : c ∈ t.subtree b) :
    c ∈ t.subtree a := by
  induction b using t.downInduction with
  | step b ih =>
    rcases mem_subtree_iff.mp hc with rfl | ⟨child, hchild, hc⟩
    · exact hb
    · exact ih child hchild (mem_subtree_of_mem_children hb hchild) hc

/-- What lies in a subtree stands behind the view at its top, or is this view. -/
theorem le_of_mem_subtree {id c : Nat} (hc : c ∈ t.subtree id) : id ≤ c := by
  induction id using t.downInduction with
  | step id ih =>
    rcases mem_subtree_iff.mp hc with rfl | ⟨child, hchild, hc⟩
    · exact Nat.le_refl _
    · have := ih child hchild hc
      have := lt_of_mem_children hchild
      omega

/-- A view does not lie below its children. -/
theorem not_mem_subtree_of_child {id child : Nat} (hchild : child ∈ t.children id) :
    id ∉ t.subtree child := by
  intro hmem
  have := le_of_mem_subtree hmem
  have := lt_of_mem_children hchild
  omega

namespace Linked

/-- **What lies in a subtree**, told from the parent of the view in question. -/
theorem mem_subtree_iff_parent? (h : t.Linked) {id c : Nat} :
    c ∈ t.subtree id ↔ c = id ∨ ∃ p, t.parent? c = some p ∧ p ∈ t.subtree id := by
  constructor
  · intro hc
    induction id using t.downInduction with
    | step id ih =>
      rcases mem_subtree_iff.mp hc with rfl | ⟨child, hchild, hc⟩
      · exact .inl rfl
      · rcases ih child hchild hc with rfl | ⟨p, hp, hmem⟩
        · exact .inr ⟨id, h.mem_children_iff_parent?.mp hchild, mem_subtree_self id⟩
        · exact .inr ⟨p, hp, mem_subtree_of_child hchild hmem⟩
  · rintro (rfl | ⟨p, hp, hmem⟩)
    · exact mem_subtree_self c
    · exact mem_subtree_of_mem_children hmem (h.mem_children_iff_parent?.mpr hp)

/-- Of two subtrees with a view in common, one holds the top of the other. The induction goes up
from the view in common. -/
theorem mem_subtree_or_mem_subtree (h : t.Linked) {a b c : Nat} (ha : c ∈ t.subtree a)
    (hb : c ∈ t.subtree b) : a ∈ t.subtree b ∨ b ∈ t.subtree a := by
  induction c using Nat.strongRecOn with
  | ind c ih =>
    rcases h.mem_subtree_iff_parent?.mp ha with rfl | ⟨p, hp, hpa⟩
    · exact .inl hb
    · rcases h.mem_subtree_iff_parent?.mp hb with rfl | ⟨q, hq, hqb⟩
      · exact .inr ha
      · rw [hp] at hq
        obtain rfl := Option.some.inj hq
        exact ih p (lt_of_parent? hp) hpa hqb

/-- **The subtrees of two children have no view in common.** -/
theorem disjoint_subtrees (h : t.Linked) {id a b c : Nat} (ha : a ∈ t.children id)
    (hb : b ∈ t.children id) (hca : c ∈ t.subtree a) (hcb : c ∈ t.subtree b) : a = b := by
  have honly : ∀ {x y : Nat}, x ∈ t.children id → y ∈ t.children id → x ∈ t.subtree y → x = y := by
    intro x y hx hy hxy
    rcases h.mem_subtree_iff_parent?.mp hxy with rfl | ⟨p, hp, hmem⟩
    · rfl
    · rw [h.mem_children_iff_parent?.mp hx] at hp
      obtain rfl := Option.some.inj hp
      exact absurd hmem (not_mem_subtree_of_child hy)
  rcases h.mem_subtree_or_mem_subtree hca hcb with hab | hba
  · exact honly ha hb hab
  · exact (honly hb ha hba).symm

/-- The subtrees of a view's children have nothing in common, as a statement about the list of
children. -/
theorem pairwise_disjoint_children (h : t.Linked) (id : ViewId) :
    (t.children id).Pairwise fun a b => ∀ x ∈ t.subtree a, x ∉ t.subtree b := by
  refine List.Pairwise.imp_of_mem (fun ha hb hne x hxa hxb => ?_) (h.children_nodup id)
  exact hne (h.disjoint_subtrees ha hb hxa hxb)

/-- No view comes twice on the way down. -/
theorem nodup_subtree (h : t.Linked) (id : ViewId) : (t.subtree id).Nodup := by
  induction id using t.downInduction with
  | step id ih =>
    rw [subtree_eq, List.nodup_cons, List.nodup_flatMap]
    refine ⟨?_, ih, ?_⟩
    · intro hmem
      obtain ⟨c, hc, hid⟩ := List.mem_flatMap.mp hmem
      exact not_mem_subtree_of_child hc hid
    · exact (h.pairwise_disjoint_children id).imp fun hdisjoint x hxa hxb => hdisjoint x hxa hxb

/-- **Every view lies below the root.** The induction is on the place of the view. -/
theorem mem_subtree_root (h : t.Linked) {c : Nat} (hc : c < t.size) : c ∈ t.subtree 0 := by
  induction c using Nat.strongRecOn with
  | ind c ih =>
    rcases Nat.eq_zero_or_pos c with rfl | hpos
    · exact mem_subtree_self 0
    · obtain ⟨p, hp⟩ := h.exists_parent? hpos hc
      have hlt := lt_of_parent? hp
      exact h.mem_subtree_iff_parent?.mpr (.inr ⟨p, hp, ih p hlt (by omega)⟩)

end Linked

end ChartCompiler.ViewTree
