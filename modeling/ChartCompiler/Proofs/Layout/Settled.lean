import ChartCompiler.Proofs.Layout.Entries
import ChartCompiler.Proofs.Layout.Units
import ChartCompiler.Proofs.Tree.Descent

/-!
# What settling comes to

Settling works on one layout for all views: a parent writes over the sizes of its children once it
has read them, and a container of cells never writes its own. Here the outcome is told without that
layout, by recursion down the tree, from the sizes before.

* `ViewTree.ownSize` — **the size a view comes to by itself**, before its parent looks at it: for a
  unit view the row of the table of unit sizes, for a layer what its children share, and for a
  container what was there before.
* `ViewTree.sharedSize` — what the sizes of a view's children come to.
* `ViewTree.settledSize?` — the entries that settling leaves: the mark of a merged size where a
  parent has taken it, else what the view keeps for itself.
* `ViewTree.CopiedTo` — the same subtree in another tree or layout, perhaps at other places and
  under other names; `CopiedTo.settledSize?_eq` says that it is left with the same entries.
* `ViewTree.sizeAt?_resolve` — **settling leaves exactly these entries**, and no other view's
  change.

The difficulty is that a view's own size may be gone by the time anyone looks: its parent has put
the mark of a merged size over it. The recursion never reads a mark. It is tied to the program by
the statement `ViewTree.Settles`, which speaks of one subtree and of every layout that it may be
settled from: what is in the subtree is left as told, and everything beside it is left alone. Since
the subtrees of two children have nothing in common, the children can be settled one after another,
and each still finds below it what was there before the first of them.

Nothing here asks for a layout without sizes. A second run over a settled layout is told by the same
recursion, from the sizes that the first run has left.
-/

namespace ChartCompiler

namespace ViewKind

/-- A kind has a definition exactly if it is that of a unit view with this definition. -/
theorem unit?_eq_some_iff {kind : ViewKind} {u : UnitView} :
    kind.unit? = some u ↔ kind = .unit u := by
  cases kind <;> simp [unit?]

/-- A kind that draws marks is that of a unit view with some definition. -/
theorem exists_of_isUnit {kind : ViewKind} (h : kind.isUnit = true) : ∃ u, kind = .unit u := by
  cases kind with
  | unit u => exact ⟨u, rfl⟩
  | _ => cases h

/-- A kind without a definition is one that draws no marks itself. -/
theorem unit?_eq_none_iff {kind : ViewKind} : kind.unit? = none ↔ kind.isUnit = false := by
  cases kind <;> simp [unit?, isUnit]

end ViewKind

namespace View

/-- **Whether views size alike**: they are of the same kind, with the same scales and sharing. Their
names may differ, and so may their links, since neither has a say in the size that a view comes to
by itself. -/
structure IsLike (v w : View) : Prop where
  kind : w.kind = v.kind
  resolve : w.resolve = v.resolve
  scales : w.scales = v.scales

namespace IsLike

variable {v w : View} (h : v.IsLike w)

include h

/-- Views that size alike share scales alike, whether the sharing is authored or that of the
kind. -/
theorem sharing_eq (channel : Channel) : w.sharing channel = v.sharing channel := by
  rw [sharing, sharing, h.kind, h.resolve]

/-- Unit views that size alike are in the same row of the table of unit sizes. -/
theorem tableEntry_eq (u : UnitView) (config : ViewConfig) (d : Dimension) :
    w.tableEntry u config d = v.tableEntry u config d := by
  unfold tableEntry scale?
  rw [h.scales]

end IsLike

end View

namespace ViewTree

variable (t : ViewTree) (config : Config) (before : Layout)

/-!
## Sizes by recursion

The definitions follow the tree and not the order of settling. They read the layout `before` only
where the program would find what was there before: at containers of cells, which have no size of
their own along a dimension, and at keys that a view of its kind never writes.
-/

/-- **The size a view comes to by itself** along a dimension, that is, the entry that its parent
reads. A unit view has the size that the table of unit sizes gives it. A layer has what its children
come to, by the rule of merging. A container of cells sizes its cells and not itself, so what its
parent reads is whatever the layout had there before; in a layout without sizes that is the
unresolved entry. -/
def ownSize (d : Dimension) (id : ViewId) : SizeEntry :=
  match t.view? id with
  | none => before.size id d.key
  | some v =>
    match v.kind with
    | .unit u => v.tableEntry u config.view d
    | .layer =>
      (MergedSize.ofEntries (t.isIndependent id d.channel)
        ((t.children id).attach.map fun c => ownSize d c.1)).entry
    | _ => before.size id d.key
termination_by t.size - id
decreasing_by exact size_sub_lt_of_mem_children c.2

/-- **What the sizes of a view's children come to**, by recursion: they are shared, or there are no
children, or independent scales keep them apart. What the merge of a list of entries comes to is
`MergedSize.ofEntries`, which is about lists only. -/
def sharedSize (d : Dimension) (id : ViewId) : MergedSize :=
  .ofEntries (t.isIndependent id d.channel) ((t.children id).map (t.ownSize config before d))

/-- The key under which a view would keep the size that its children share: its own key for layers,
that of its cells for any other view. -/
def parentKey (id : ViewId) (d : Dimension) : LayoutKey :=
  (t.view? id).elim d.key fun v => sharedKey v.kind d

/-- The entry that a view is left with by itself, when nobody has taken it away. Under the key that
views of its kind write it is the size that the table or the merge gives; under any other it is what
was there before. -/
def keptSize? (id : ViewId) (key : LayoutKey) : Option SizeEntry :=
  match t.view? id with
  | none => before.sizeAt? id key
  | some v =>
    match v.kind.unit? with
    | some u =>
      if key = key.dimension.key then some (v.tableEntry u config.view key.dimension)
      else before.sizeAt? id key
    | none =>
      if key = sharedKey v.kind key.dimension then
        some (t.sharedSize config before key.dimension id).entry
      else before.sizeAt? id key

/-- **Whether a view leaves its size to its parent**: it has a parent, and the sizes of the parent's
children can be shared. -/
def leavesSize (d : Dimension) (id : ViewId) : Bool :=
  (t.parent? id).any fun p => (t.sharedSize config before d p).isShared

/-- **The entry after settling** what lies below `top`. A view below the top that leaves its size to
its parent is marked as merged, under its own key; the sizes of cells are never left to anyone. In
all other cases the entry is the one that the view keeps by itself. -/
def settledSize? (top id : ViewId) (key : LayoutKey) : Option SizeEntry :=
  if id ≠ top ∧ key = key.dimension.key ∧ t.leavesSize config before key.dimension id then
    some .merged
  else t.keptSize? config before id key

/-!
## Equations

One equation for each kind of view. Later proofs split on the kind and rewrite with these; none of
them opens the recursion again.
-/

section equations

variable {t} {id : ViewId} {v : View}

/-- A unit view comes to the entry that the program gives it: the table and the program agree. -/
theorem ownSize_of_unit {u : UnitView} (hv : t.view? id = some v) (hkind : v.kind = .unit u)
    (d : Dimension) : t.ownSize config before d id = v.unitEntry u config.view d := by
  rw [ownSize, hv, View.unitEntry_eq_tableEntry]
  simp only [hkind]

/-- A layer comes to what its children share. -/
theorem ownSize_of_layer (hv : t.view? id = some v) (hkind : v.kind = .layer) (d : Dimension) :
    t.ownSize config before d id = (t.sharedSize config before d id).entry := by
  rw [ownSize, hv, sharedSize]
  simp only [hkind]
  rw [List.map_subtype (fun _ _ => rfl), List.unattach_attach]

/-- A container of cells does not size itself. -/
theorem ownSize_of_container (hv : t.view? id = some v) (hunit : v.kind.isUnit = false)
    (hkind : v.kind ≠ .layer) (d : Dimension) :
    t.ownSize config before d id = before.size id d.key := by
  rw [ownSize, hv]
  cases hk : v.kind with
  | unit u => rw [hk] at hunit; cases hunit
  | layer => exact absurd hk hkind
  | concat => simp only [hk]
  | facet => simp only [hk]
  | «repeat» => simp only [hk]

/-- Where there is no view, the size is what was there before. -/
theorem ownSize_of_view?_none (hv : t.view? id = none) (d : Dimension) :
    t.ownSize config before d id = before.size id d.key := by
  rw [ownSize, hv]

/-- A unit view keeps its own size, along both dimensions. -/
theorem keptSize?_of_unit {u : UnitView} (hv : t.view? id = some v) (hkind : v.kind = .unit u)
    (d : Dimension) :
    t.keptSize? config before id d.key = some (v.unitEntry u config.view d) := by
  rw [keptSize?, hv, View.unitEntry_eq_tableEntry]
  simp [ViewKind.unit?, hkind]

/-- Layers keep the size that their children share under the same key as the children. -/
theorem parentKey_of_layer (hv : t.view? id = some v)
    (hkind : v.kind = .layer) {d : Dimension} : t.parentKey id d = d.key := by
  rw [parentKey, hv, Option.elim_some, hkind, sharedKey]

/-- Views other than layers keep the size that their children share under the key of their cells. -/
theorem parentKey_of_container (hv : t.view? id = some v)
    (hkind : v.kind ≠ .layer) {d : Dimension} : t.parentKey id d = d.cellKey := by
  rw [parentKey, hv, Option.elim_some]
  cases hk : v.kind with
  | layer => exact absurd hk hkind
  | _ => rfl

/-- A composite view keeps the size that its children share, even if it is not resolved. -/
theorem keptSize?_of_composite (hv : t.view? id = some v) (hunit : v.kind.unit? = none)
    (d : Dimension) :
    t.keptSize? config before id (t.parentKey id d) =
      some (t.sharedSize config before d id).entry := by
  rw [keptSize?, parentKey, hv]
  simp [hunit, dimension_sharedKey]

/-- A view that had a size before keeps one: what settling writes is always an entry, resolved or
not. -/
theorem isSome_keptSize? {key : LayoutKey} (h : (before.sizeAt? id key).isSome = true) :
    (t.keptSize? config before id key).isSome = true := by
  unfold keptSize?
  split
  · exact h
  · split <;> split <;> first | rfl | exact h

/-- Only what a composite view keeps of its children can change once a view has kept its sizes. At
every other key a second run reads back what the first has left, and writes it again. -/
theorem keptSize?_again_of_ne {after : Layout} {key : LayoutKey}
    (hread : after.sizeAt? id key = t.keptSize? config before id key)
    (hne : ∀ v, t.view? id = some v → v.kind.unit? = none → key ≠ t.parentKey id key.dimension) :
    t.keptSize? config after id key = t.keptSize? config before id key := by
  unfold keptSize? at hread ⊢
  cases hv : t.view? id with
  | none =>
    rw [hv] at hread
    exact hread
  | some v =>
    rw [hv] at hread
    dsimp only at hread ⊢
    cases hunit : v.kind.unit? with
    | some u =>
      rw [hunit] at hread
      dsimp only at hread ⊢
      split_ifs at hread ⊢ with hkey
      · rfl
      · exact hread
    | none =>
      rw [hunit] at hread
      dsimp only at hread ⊢
      have hkey : key ≠ sharedKey v.kind key.dimension := fun h => hne v hv hunit (by
        rw [parentKey, hv]
        exact h)
      rw [if_neg hkey] at hread
      rw [if_neg hkey, if_neg hkey]
      exact hread

/-- **What a view can be left with by itself**, where there was nothing before: a unit view with its
own size, a composite one with the size that its children share. This is the case analysis that
statements about settled entries begin with. -/
theorem keptSize?_eq_some {key : LayoutKey} {e : SizeEntry} (hbefore : before.sizeAt? id key = none)
    (h : t.keptSize? config before id key = some e) :
    ∃ v, t.view? id = some v ∧
      ((∃ u, v.kind = .unit u ∧ e = v.unitEntry u config.view key.dimension) ∨
        (v.kind.unit? = none ∧ e = (t.sharedSize config before key.dimension id).entry)) := by
  unfold keptSize? at h
  rw [hbefore] at h
  cases hv : t.view? id with
  | none => rw [hv] at h; cases h
  | some v =>
    rw [hv] at h
    dsimp only at h
    refine ⟨v, rfl, ?_⟩
    cases hunit : v.kind.unit? with
    | some u =>
      rw [hunit] at h
      obtain ⟨-, he⟩ := Option.ite_none_right_eq_some.mp h
      rw [← View.unitEntry_eq_tableEntry] at he
      exact .inl ⟨u, ViewKind.unit?_eq_some_iff.mp hunit, (Option.some.inj he).symm⟩
    | none =>
      rw [hunit] at h
      obtain ⟨-, he⟩ := Option.ite_none_right_eq_some.mp h
      exact .inr ⟨rfl, (Option.some.inj he).symm⟩

end equations

/-- By itself a view keeps the size it comes to under its own key. For a layer both are what the
children share, and for a container both are what was there before, because its own key is not that
of its cells. -/
theorem getD_keptSize? (id : ViewId) (d : Dimension) :
    (t.keptSize? config before id d.key).getD .unresolved = t.ownSize config before d id := by
  unfold keptSize?
  cases hv : t.view? id with
  | none => exact (ownSize_of_view?_none config before hv d).symm
  | some v =>
    cases hkind : v.kind with
    | unit u =>
      rw [ownSize_of_unit config before hv hkind, View.unitEntry_eq_tableEntry]
      simp [ViewKind.unit?, hkind]
    | layer => rw [ownSize_of_layer config before hv hkind]; simp [ViewKind.unit?, hkind, sharedKey]
    | _ =>
      rw [ownSize_of_container config before hv (by rw [hkind]; rfl) (by rw [hkind]; simp)]
      have hne : d.key ≠ d.cellKey := by cases d <;> simp [Dimension.key, Dimension.cellKey]
      simp [ViewKind.unit?, hkind, sharedKey, hne, Layout.size_eq]

/-- The top of what is settled keeps what it comes to by itself: whether its parent takes the size
is decided when the parent is settled. -/
theorem settledSize?_self (id : ViewId) (key : LayoutKey) :
    t.settledSize? config before id id key = t.keptSize? config before id key := by
  simp [settledSize?]

/-- A view leaves its size if it has a parent for which the sizes merge. -/
theorem leavesSize_eq_true_iff {d : Dimension} {id : ViewId} :
    t.leavesSize config before d id = true ↔
      ∃ p, t.parent? id = some p ∧ (t.sharedSize config before d p).isShared = true := by
  rw [leavesSize, Option.any_eq_true]

/-!
## What sizes depend on

The sizes of a subtree are told by the views in it alone. To say so once for all uses, a subtree is
compared with a copy of it: in the same tree and another layout, in the tree with another view
changed, or in another tree in which it stands at other places.
-/

/-- **Whether a subtree stands in another tree too**, each of its views at the place that `place`
gives: a view that sizes alike, with the same children in the same order and the same sizes before.
Nothing is asked of the parents above the subtree, and `place` may do anything to places outside
it. -/
structure CopiedTo (t u : ViewTree) (before before' : Layout) (place : ViewId → ViewId)
    (id : ViewId) : Prop where
  /-- There is a view in both trees or in none, and both size alike. -/
  view : ∀ x ∈ t.subtree id, Option.Rel View.IsLike (t.view? x) (u.view? (place x))
  /-- The children stand at the places of the children, in their order. -/
  children : ∀ x ∈ t.subtree id, u.children (place x) = (t.children x).map place
  /-- The sizes before are the same, under every key. -/
  entry : ∀ x ∈ t.subtree id, ∀ k, before'.sizeAt? (place x) k = before.sizeAt? x k

namespace CopiedTo

variable {t u : ViewTree} {before before' : Layout} {place : ViewId → ViewId} {id : ViewId}

/-- A subtree is copied to its own place in a layout that has the same sizes there. -/
theorem of_sizeAt? (h : ∀ x ∈ t.subtree id, ∀ k, before.sizeAt? x k = before'.sizeAt? x k) :
    t.CopiedTo t before before' (fun x => x) id where
  view x _ := by
    cases t.view? x with
    | none => exact .none
    | some v => exact .some ⟨rfl, rfl, rfl⟩
  children x _ := (List.map_id' _).symm
  entry x hx k := (h x hx k).symm

section views

variable (h : t.CopiedTo u before before' place id)

include h

/-- What the layout of the other tree is does not matter, since `before'` is given beside it. -/
theorem withLayout (l : Layout) : t.CopiedTo { u with layout := l } before before' place id :=
  ⟨h.view, h.children, h.entry⟩

/-- With a subtree stand those in it. -/
theorem of_mem {x : ViewId} (hx : x ∈ t.subtree id) : t.CopiedTo u before before' place x where
  view y hy := h.view y (mem_subtree_trans hx hy)
  children y hy := h.children y (mem_subtree_trans hx hy)
  entry y hy := h.entry y (mem_subtree_trans hx hy)

/-- With a view the subtrees of its children are copied. -/
theorem of_mem_children {c : ViewId} (hc : c ∈ t.children id) :
    t.CopiedTo u before before' place c :=
  h.of_mem (mem_subtree_of_child hc (mem_subtree_self c))

/-- At the top there is a view in both trees, or in none. -/
theorem view?_cases :
    (t.view? id = none ∧ u.view? (place id) = none) ∨
      ∃ v w, t.view? id = some v ∧ u.view? (place id) = some w ∧ v.IsLike w := by
  have hview := h.view id (mem_subtree_self id)
  generalize t.view? id = v? at hview ⊢
  generalize u.view? (place id) = w? at hview ⊢
  cases hview with
  | none => exact .inl ⟨rfl, rfl⟩
  | some hlike => exact .inr ⟨_, _, rfl, rfl, hlike⟩

/-- The top had the same sizes before. -/
theorem sizeAt?_eq (k : LayoutKey) : before'.sizeAt? (place id) k = before.sizeAt? id k :=
  h.entry id (mem_subtree_self id) k

/-- At the top, children share scales in both trees or in none. -/
theorem isIndependent_eq (channel : Channel) :
    u.isIndependent (place id) channel = t.isIndependent id channel := by
  unfold isIndependent
  rcases h.view?_cases with ⟨hv, hw⟩ | ⟨v, w, hv, hw, hlike⟩
  · rw [hv, hw]
  · rw [hv, hw, Option.any_some, Option.any_some, hlike.sharing_eq]

/-- What the sizes of the children come to, once each child comes to the same. The order of the
children counts, so it is part of what a copy keeps. -/
theorem sharedSize_eq_of_children {d : Dimension}
    (hown : ∀ c ∈ t.children id, u.ownSize config before' d (place c) = t.ownSize config before d c) :
    u.sharedSize config before' d (place id) = t.sharedSize config before d id := by
  unfold sharedSize
  rw [h.isIndependent_eq, h.children id (mem_subtree_self id), List.map_map]
  congr 1
  exact List.map_congr_left hown

end views

/-- **A view comes to the same size** by itself. The induction goes down the tree, with a case for
each kind of view; only layers need their children. -/
theorem ownSize_eq (h : t.CopiedTo u before before' place id) (d : Dimension) :
    u.ownSize config before' d (place id) = t.ownSize config before d id := by
  induction id using t.downInduction with
  | step id ih =>
    have hself : before'.size (place id) d.key = before.size id d.key := by
      rw [Layout.size_eq, Layout.size_eq, h.sizeAt?_eq]
    rcases h.view?_cases with ⟨hv, hw⟩ | ⟨v, w, hv, hw, hlike⟩
    · rw [ownSize_of_view?_none _ _ hv, ownSize_of_view?_none _ _ hw, hself]
    · have hkind := hlike.kind
      cases hk : v.kind with
      | unit definition =>
        rw [hk] at hkind
        rw [ownSize_of_unit _ _ hv hk, ownSize_of_unit _ _ hw hkind, View.unitEntry_eq_tableEntry,
          View.unitEntry_eq_tableEntry, hlike.tableEntry_eq]
      | layer =>
        rw [hk] at hkind
        rw [ownSize_of_layer _ _ hv hk, ownSize_of_layer _ _ hw hkind,
          h.sharedSize_eq_of_children config fun c hc => ih c hc (h.of_mem_children hc)]
      | _ =>
        have hunit : v.kind.isUnit = false := by rw [hk]; rfl
        have hlayer : v.kind ≠ .layer := by rw [hk]; simp
        rw [ownSize_of_container _ _ hv hunit hlayer,
          ownSize_of_container _ _ hw (hkind ▸ hunit) (hkind ▸ hlayer), hself]

/-- The children of a copied view share the same size. -/
theorem sharedSize_eq (h : t.CopiedTo u before before' place id) (d : Dimension) :
    u.sharedSize config before' d (place id) = t.sharedSize config before d id :=
  h.sharedSize_eq_of_children config fun _ hc => (h.of_mem_children hc).ownSize_eq config d

/-- A copied view keeps the same entries by itself, under every key. -/
theorem keptSize?_eq (h : t.CopiedTo u before before' place id) (key : LayoutKey) :
    u.keptSize? config before' (place id) key = t.keptSize? config before id key := by
  unfold keptSize?
  rw [h.sizeAt?_eq, h.sharedSize_eq config]
  rcases h.view?_cases with ⟨hv, hw⟩ | ⟨v, w, hv, hw, hlike⟩
  · rw [hv, hw]
  · rw [hv, hw]
    dsimp only
    rw [hlike.kind]
    cases v.kind.unit? with
    | none => rfl
    | some definition =>
      dsimp only
      rw [hlike.tableEntry_eq]

/-- All views of the subtree stand in the copy of it. -/
theorem mem_subtree (h : t.CopiedTo u before before' place id) {x : ViewId}
    (hx : x ∈ t.subtree id) : place x ∈ u.subtree (place id) := by
  induction id using t.downInduction with
  | step id ih =>
    rcases mem_subtree_iff.mp hx with rfl | ⟨child, hchild, hx⟩
    · exact mem_subtree_self _
    · refine mem_subtree_of_child ?_ (ih child hchild (h.of_mem_children hchild) hx)
      rw [h.children id (mem_subtree_self id)]
      exact List.mem_map_of_mem hchild

/-- Where the links agree, parents stand at the places given for them. The links are needed here and
in the next theorem because it is the parent that says whether a size is left to it. -/
theorem parent?_eq (h : t.CopiedTo u before before' place id) (hl : t.Linked) (hu : u.Linked)
    {p x : ViewId} (hp : p ∈ t.subtree id) (hparent : t.parent? x = some p) :
    u.parent? (place x) = some (place p) := by
  rw [← hu.mem_children_iff_parent?, h.children p hp]
  exact List.mem_map_of_mem (hl.mem_children_iff_parent?.mpr hparent)

/-- **Settling leaves the same entries** in the whole subtree. Whether a view below the top leaves
its size depends on its parent, which stands in the subtree as well; the top itself keeps its own in
any case. -/
theorem settledSize?_eq (h : t.CopiedTo u before before' place id) (hl : t.Linked) (hu : u.Linked)
    {x : ViewId} (hx : x ∈ t.subtree id) (key : LayoutKey) :
    u.settledSize? config before' (place id) (place x) key =
      t.settledSize? config before id x key := by
  unfold settledSize?
  rw [(h.of_mem hx).keptSize?_eq config]
  rcases hl.mem_subtree_iff_parent?.mp hx with rfl | ⟨p, hparent, hp⟩
  · rw [if_neg fun h => h.1 rfl, if_neg fun h => h.1 rfl]
  · -- Below the top a view has its parent in the subtree, and so it stands behind the top.
    have hcopied := h.parent?_eq hl hu hp hparent
    have hne : x ≠ id :=
      Nat.ne_of_gt (Nat.lt_of_le_of_lt (le_of_mem_subtree hp) (lt_of_parent? hparent))
    have hne' : place x ≠ place id :=
      Nat.ne_of_gt (Nat.lt_of_le_of_lt (le_of_mem_subtree (h.mem_subtree hp))
        (lt_of_parent? hcopied))
    have hleaves : u.leavesSize config before' key.dimension (place x) =
        t.leavesSize config before key.dimension x := by
      unfold leavesSize
      rw [hparent, hcopied, Option.any_some, Option.any_some, (h.of_mem hp).sharedSize_eq config]
    simp only [hne, hne', hleaves, ne_eq, not_false_eq_true]

end CopiedTo

section congr

variable {t} {before} {before' : Layout} {id : ViewId}

/-- What children share depends on what was there before at and below their parent. -/
theorem sharedSize_congr (h : ∀ x ∈ t.subtree id, ∀ k, before.sizeAt? x k = before'.sizeAt? x k)
    (d : Dimension) : t.sharedSize config before d id = t.sharedSize config before' d id :=
  ((CopiedTo.of_sizeAt? h).sharedSize_eq config d).symm

/-- What a view keeps depends on what was there before at and below it. -/
theorem keptSize?_congr (h : ∀ x ∈ t.subtree id, ∀ k, before.sizeAt? x k = before'.sizeAt? x k)
    (key : LayoutKey) : t.keptSize? config before id key = t.keptSize? config before' id key :=
  ((CopiedTo.of_sizeAt? h).keptSize?_eq config key).symm

/-- **What settling leaves depends on what was there before at and below its top.** -/
theorem settledSize?_congr (hl : t.Linked) {top id : Nat} (hid : id ∈ t.subtree top)
    (h : ∀ x ∈ t.subtree top, ∀ k, before.sizeAt? x k = before'.sizeAt? x k) (key : LayoutKey) :
    t.settledSize? config before top id key = t.settledSize? config before' top id key :=
  ((CopiedTo.of_sizeAt? h).settledSize?_eq config hl hl hid key).symm

end congr

/-! ## Settling one view -/

section entries

variable {t}

/-- The program settles a unit view along both dimensions, and touches no other view. -/
theorem sizeAt?_resolveUnit {id : ViewId} {v : View} {u : UnitView} (hv : t.view? id = some v)
    (hkind : v.kind = .unit u) (l : Layout) (x : ViewId) (k : LayoutKey) :
    (t.resolveUnit config id l).sizeAt? x k =
      if x = id then t.keptSize? config l id k else l.sizeAt? x k := by
  have hunit : v.kind.unit? = some u := by rw [hkind]; rfl
  unfold resolveUnit keptSize?
  rw [hv]
  simp only [hunit, View.unitEntry_eq_tableEntry]
  rw [Layout.sizeAt?_setSize, Layout.sizeAt?_setSize]
  by_cases hx : x = id
  · subst hx
    cases k <;> simp [LayoutKey.dimension, Dimension.key]
  · simp [hx]

/-- What the children's sizes come to in a layout, once each child has been settled by itself. -/
theorem mergedSize_eq_sharedSize {before l : Layout} {id : ViewId}
    (h : ∀ c ∈ t.children id, ∀ k, l.sizeAt? c k = t.keptSize? config before c k)
    (d : Dimension) : t.mergedSize l id d = t.sharedSize config before d id := by
  unfold mergedSize sharedSize
  congr 1
  refine List.map_congr_left fun c hc => ?_
  rw [Layout.size_eq, h c hc, getD_keptSize?]

/-! ## Settling the children in order -/

/-- **Whether settling `id` leaves what the recursion tells**, from every layout: the entries of its
subtree are those told from that layout, and everything beside the subtree is as it was. The layout
is quantified here, inside the statement, because a child is settled from the layout that its elder
siblings have left. -/
def Settles (t : ViewTree) (config : Config) (id : ViewId) : Prop :=
  ∀ (l : Layout) (x : ViewId) (k : LayoutKey),
    (t.resolve config id l).value.sizeAt? x k =
      if x ∈ t.subtree id then t.settledSize? config l id x k else l.sizeAt? x k

/-- **Views whose subtrees have nothing in common settle independently**: each is left with the
entries told from the layout at the start, and what is in none of the subtrees stays. The induction
is on the views still to settle; those already settled have left the entries below these as they
were. -/
theorem sizeAt?_foldlM_resolve (hl : t.Linked) {ids : List ViewId}
    (hids : ids.Pairwise fun a b => ∀ x ∈ t.subtree a, x ∉ t.subtree b)
    (hsettles : ∀ c ∈ ids, t.Settles config c) (l : Layout) :
    (∀ c ∈ ids, ∀ x ∈ t.subtree c, ∀ k,
      (ids.foldlM (fun l c => t.resolve config c l) l).value.sizeAt? x k =
        t.settledSize? config l c x k) ∧
    ∀ x, (∀ c ∈ ids, x ∉ t.subtree c) → ∀ k,
      (ids.foldlM (fun l c => t.resolve config c l) l).value.sizeAt? x k = l.sizeAt? x k := by
  induction ids generalizing l with
  | nil => exact ⟨fun c hc => absurd hc List.not_mem_nil, fun x _ k => rfl⟩
  | cons first rest ih =>
    rw [List.pairwise_cons] at hids
    rw [List.foldlM_cons, Reported.value_bind]
    obtain ⟨hin, hout⟩ := ih hids.2 (fun c hc => hsettles c (List.mem_cons_of_mem _ hc))
      (t.resolve config first l).value
    have hfirst := hsettles first (List.mem_cons_self ..) l
    refine ⟨fun c hc x hx k => ?_, fun x hx k => ?_⟩
    · rcases List.mem_cons.mp hc with rfl | hc
      · rw [hout x (fun b hb => hids.1 b hb x hx), hfirst, if_pos hx]
      · rw [hin c hc x hx]
        refine settledSize?_congr config hl hx (fun y hy k => ?_) k
        rw [hfirst, if_neg fun hy' => hids.1 c hc y hy' hy]
    · rw [hout x (fun b hb => hx b (List.mem_cons_of_mem _ hb)), hfirst,
        if_neg (hx first (List.mem_cons_self ..))]

/-! ## Settling a whole subtree -/

/-- Below the top, a settled child has lost to its parent what the parent's merge took. For
everything further down, being settled from the parent and from the child is the same. -/
theorem settledSize?_child (hl : t.Linked) (l : Layout) {id child x : Nat}
    (hchild : child ∈ t.children id) (hx : x ∈ t.subtree child) (k : LayoutKey) :
    t.settledSize? config l id x k =
      if (t.sharedSize config l k.dimension id).isShared ∧ x ∈ t.children id ∧
          k = k.dimension.key then some .merged
      else t.settledSize? config l child x k := by
  have hne : x ≠ id := by
    rintro rfl
    exact not_mem_subtree_of_child hchild hx
  by_cases hxc : x = child
  · subst hxc
    have hparent := hl.mem_children_iff_parent?.mp hchild
    simp [settledSize?, leavesSize, hne, hparent, hchild, and_comm]
  · have hnot : x ∉ t.children id := fun hmem =>
      hxc (hl.disjoint_subtrees hmem hchild (mem_subtree_self x) hx)
    simp [settledSize?, hne, hxc, hnot]

/-- Where there is no view, nothing is settled. -/
theorem settles_of_view?_none {id : ViewId} (hv : t.view? id = none) : t.Settles config id := by
  intro l x k
  have hchildren : t.children id = [] := by rw [children, hv]
  rw [resolve_of_view?_none hv, Reported.value_pure]
  by_cases hx : x ∈ t.subtree id
  · have hxid : x = id := by simpa [subtree_eq, hchildren] using hx
    subst hxid
    rw [if_pos hx, settledSize?_self, keptSize?, hv]
  · rw [if_neg hx]

/-- A unit view settles by itself: it has no children, so its subtree is the view alone. -/
theorem settles_of_unit (hl : t.Linked) {id : ViewId} {v : View} {u : UnitView}
    (hv : t.view? id = some v) (hkind : v.kind = .unit u) : t.Settles config id := by
  intro l x k
  have hunit : v.kind.isUnit = true := by rw [hkind]; rfl
  have hchildren := hl.children_of_isUnit hv hunit
  rw [resolve_of_isUnit hv hunit, Reported.value_pure, sizeAt?_resolveUnit config hv hkind]
  have hx : x ∈ t.subtree id ↔ x = id := by simp [subtree_eq, hchildren]
  by_cases hxid : x = id
  · subst hxid
    rw [if_pos rfl, if_pos (mem_subtree_self x), settledSize?_self]
  · rw [if_neg hxid, if_neg (mt hx.mp hxid)]

/-- Once the children of a composite view have settled, what their sizes come to is told by
recursion. -/
theorem mergedSize_resolveChildren (hl : t.Linked) {id : ViewId}
    (hsettles : ∀ c ∈ t.children id, t.Settles config c) (l : Layout) (d : Dimension) :
    t.mergedSize (t.resolveChildren config id l).value id d = t.sharedSize config l d id := by
  obtain ⟨hin, -⟩ := sizeAt?_foldlM_resolve config hl (hl.pairwise_disjoint_children id) hsettles l
  refine mergedSize_eq_sharedSize config (fun c hc k => ?_) d
  rw [← settledSize?_self]
  exact hin c hc c (mem_subtree_self c) k

/-- A composite view settles once its children do. An entry of the subtree is one of the view
itself, which sharing has put there, or it lies below one child, where it is the child's own unless
the merge has taken it. -/
theorem settles_of_children (hl : t.Linked) {id : ViewId} {v : View} (hv : t.view? id = some v)
    (hunit : v.kind.unit? = none) (hsettles : ∀ c ∈ t.children id, t.Settles config c) :
    t.Settles config id := by
  intro l x k
  obtain ⟨hin, hout⟩ := sizeAt?_foldlM_resolve config hl (hl.pairwise_disjoint_children id)
    hsettles l
  rw [resolve_of_not_isUnit hv (ViewKind.unit?_eq_none_iff.mp hunit)]
  unfold resolveComposite
  rw [Reported.value_bind, sizeAt?_shareBoth t (dimension_sharedKey v.kind),
    mergedSize_resolveChildren config hl hsettles]
  by_cases hx : x ∈ t.subtree id
  · rw [if_pos hx]
    rcases mem_subtree_iff.mp hx with rfl | ⟨child, hchild, hxc⟩
    · -- The view itself is none of its children, so it keeps what sharing has put there.
      have hself : x ∉ t.children x := fun hmem => Nat.lt_irrefl x (lt_of_mem_children hmem).1
      have hbefore : (t.resolveChildren config x l).value.sizeAt? x k = l.sizeAt? x k :=
        hout x (fun c hc => not_mem_subtree_of_child hc) k
      rw [settledSize?_self, keptSize?, hv, hbefore]
      simp [hunit, hself]
    · have hne : x ≠ id := by
        rintro rfl
        exact not_mem_subtree_of_child hchild hxc
      have hbefore : (t.resolveChildren config id l).value.sizeAt? x k =
          t.settledSize? config l child x k := hin child hchild x hxc k
      rw [if_neg fun h => hne h.1, settledSize?_child config hl l hchild hxc, hbefore]
  · have hne : x ≠ id := fun he => hx (he ▸ mem_subtree_self x)
    have hnot : x ∉ t.children id := fun hc => hx (mem_subtree_of_child hc (mem_subtree_self x))
    have hbefore : (t.resolveChildren config id l).value.sizeAt? x k = l.sizeAt? x k :=
      hout x (fun c hc hxc => hx (mem_subtree_of_child hc hxc)) k
    rw [if_neg hx, if_neg fun h => hne h.1, if_neg fun h => hnot h.2.1, hbefore]

/-- **Settling leaves exactly the entries told by recursion.** The induction goes down the tree: a
view's children have settled in subtrees of their own when their sizes are merged. -/
theorem settles (hl : t.Linked) (id : ViewId) : t.Settles config id := by
  induction id using t.downInduction with
  | step id ih =>
    cases hv : t.view? id with
    | none => exact settles_of_view?_none config hv
    | some v =>
      cases hkind : v.kind.unit? with
      | none => exact settles_of_children config hl hv hkind ih
      | some u => exact settles_of_unit config hl hv (ViewKind.unit?_eq_some_iff.mp hkind)

/-- **The entries after settling** what lies below a view: those of the subtree as the recursion
tells them from the layout before, all others unchanged. -/
theorem sizeAt?_resolve (hl : t.Linked) (id : ViewId) (l : Layout) (x : ViewId) (k : LayoutKey) :
    (t.resolve config id l).value.sizeAt? x k =
      if x ∈ t.subtree id then t.settledSize? config l id x k else l.sizeAt? x k :=
  settles config hl id l x k

end entries

end ViewTree

end ChartCompiler
