import ChartCompiler.Proofs.Layout.Outcome

/-!
# Layers of layers

In a tree of layers that share their scales, merging is a search through the unit views at the
bottom: how they are put together in layers does not matter.

* `leading?_map` — **merging what parts have come to is merging all their entries at once**, however
  the entries are divided into parts.
* `ViewTree.leaves` — the unit views at and below a view, from left to right.
* `ViewTree.Layered` — every view is a unit view or a layer of some children that share a scale.
* `ViewTree.Grown.size_root_of_layered` — **the size of the root** of such a tree is the first one
  that a unit view authors, else the one inferred for the first unit view; every other view has left
  its size; and so trees with the same unit views in the same order come to the same size.

Shared scales are what makes the merge total: a layer with independent scales may keep its children
apart, and a container never has a size to pass on. Between layers that share, each view comes to
the leading entry of its leaves (`Layered.leading?_leaves`), by induction down the tree and by the
first of the facts above; the rest is about lists of leaves.
-/

namespace ChartCompiler

/-!
## Merging in parts

The entry that leads a list leads it no matter how the list is cut: the first authored entry of all
parts is the first authored one among their leaders, and if there is none, the first part is led by
its first entry.
-/

section parts

variable {α : Type} {entries : α → List SizeEntry} {lead : α → SizeEntry} {parts : List α}

/-- The first authored entry of all parts is the first authored one of those that lead them: a part
has an authored entry exactly if the entry that leads it is authored. -/
theorem find?_map_lead (h : ∀ a ∈ parts, leading? (entries a) = some (lead a)) :
    (parts.map lead).find? Explicit.isExplicit =
      (parts.flatMap entries).find? Explicit.isExplicit := by
  induction parts with
  | nil => rfl
  | cons a rest ih =>
    have hrest := ih fun b hb => h b (List.mem_cons_of_mem _ hb)
    have hfirst := find?_isExplicit_of_leading? (h a (List.mem_cons_self ..))
    rw [List.map_cons, List.flatMap_cons, List.find?_append, hfirst, List.find?_cons, hrest]
    cases (lead a).isExplicit <;> rfl

/-- **Merging what parts have come to is merging all their entries at once.** No part may be empty,
since an empty one has no leader; the hypothesis says so. -/
theorem leading?_map (h : ∀ a ∈ parts, leading? (entries a) = some (lead a)) :
    leading? (parts.map lead) = leading? (parts.flatMap entries) := by
  have hfind := find?_map_lead h
  unfold leading?
  rw [hfind]
  cases hany : (parts.flatMap entries).find? Explicit.isExplicit with
  | some e => rfl
  | none =>
    cases parts with
    | nil => rfl
    | cons a rest =>
      -- No entry is authored, so the part in front is led by the entry in front.
      rw [List.flatMap_cons, List.find?_append, Option.or_eq_none_iff] at hany
      have hhead := head?_of_leading? (h a (List.mem_cons_self ..)) hany.1
      rw [List.map_cons, List.flatMap_cons, List.head?_append, hhead]
      rfl

end parts

/-! ## Unit views -/

/-- What an authored size settles as. How long an authored step is does not show in it. -/
def SizeSpec.settled : SizeSpec → LayoutSize
  | .pixels amount => .pixels amount
  | .step _ => .step

namespace View

/-- The size that a unit view authors along a dimension; other views author none. -/
def authored? (v : View) (d : Dimension) : Option SizeSpec := v.kind.unit?.bind fun u => u.size d

/-- The size inferred for a unit view that authors none. -/
def inferredSize (v : View) (config : ViewConfig) (d : Dimension) : LayoutSize :=
  v.defaultSize (v.kind.unit?.any UnitView.hasProjection) config d

/-- The entry of a unit view: the authored size, else the inferred one. -/
def leafEntry (v : View) (config : ViewConfig) (d : Dimension) : SizeEntry :=
  match v.authored? d with
  | some spec => .authored (some spec.settled)
  | none => .inferred (some (v.inferredSize config d))

/-- For a unit view this is the entry that the program gives it. -/
theorem leafEntry_of_unit {v : View} {u : UnitView} (h : v.kind = .unit u) (config : ViewConfig)
    (d : Dimension) : v.leafEntry config d = v.unitEntry u config d := by
  unfold leafEntry authored? inferredSize unitEntry
  rw [h]
  simp only [ViewKind.unit?, Option.bind_some, Option.any_some]
  cases u.size d with
  | none => rfl
  | some spec => cases spec <;> rfl

/-- What a view is drawn from: all that its size depends on. Its name and its place are left out. -/
def drawing (v : View) : ViewKind × Table Channel Scale := (v.kind, v.scales)

/-- Views that are drawn from the same have the same entry. -/
theorem leafEntry_congr {v w : View} (h : v.drawing = w.drawing) (config : ViewConfig)
    (d : Dimension) : v.leafEntry config d = w.leafEntry config d := by
  obtain ⟨hkind, hscales⟩ := Prod.mk.inj h
  unfold leafEntry authored? inferredSize defaultSize scale?
  rw [hkind, hscales]

end View

/-- The first authored entry of unit views is the first size that one of them authors. -/
theorem find?_leafEntry (leaves : List View) (config : ViewConfig) (d : Dimension) :
    (leaves.map fun v => v.leafEntry config d).find? Explicit.isExplicit =
      (leaves.findSome? fun v => v.authored? d).map fun spec => .authored (some spec.settled) := by
  induction leaves with
  | nil => rfl
  | cons v rest ih =>
    rw [List.map_cons, List.find?_cons, List.findSome?_cons, ih, View.leafEntry]
    cases v.authored? d <;> rfl

/-- **The leading entry of unit views** is the first size that one of them authors, else the size
inferred for the first of them. -/
theorem leading?_leafEntry (first : View) (rest : List View) (config : ViewConfig) (d : Dimension) :
    leading? ((first :: rest).map fun v => v.leafEntry config d) =
      some (match (first :: rest).findSome? fun v => v.authored? d with
        | some spec => .authored (some spec.settled)
        | none => .inferred (some (first.inferredSize config d))) := by
  unfold leading?
  rw [find?_leafEntry]
  cases hfind : (first :: rest).findSome? fun v => v.authored? d with
  | some spec => rfl
  | none =>
    have hfirst : first.authored? d = none :=
      List.findSome?_eq_none_iff.mp hfind first (List.mem_cons_self ..)
    rw [List.map_cons, List.head?_cons, View.leafEntry, hfirst]
    rfl

namespace ViewTree

variable {t : ViewTree}

/-! ## From left to right -/

/-- The unit view at a place, if there is one and it is a unit view. -/
def leaf? (t : ViewTree) (id : ViewId) : Option View := (t.view? id).filter fun v => v.kind.isUnit

/-- **The unit views at and below a view**, from left to right. -/
def leaves (t : ViewTree) (id : ViewId) : List View := (t.subtree id).filterMap t.leaf?

/-- The leaves of a composite view are those of its children in order. -/
theorem leaves_of_not_isUnit {id : ViewId} {v : View} (hv : t.view? id = some v)
    (hunit : v.kind.isUnit = false) : t.leaves id = (t.children id).flatMap t.leaves := by
  have hself : t.leaf? id = none := by
    rw [leaf?, hv]
    simp [hunit]
  rw [leaves, subtree_eq, List.filterMap_cons_none hself, List.filterMap_flatMap]
  rfl

/-- A unit view is its own only leaf, because in a linked tree it has no children. -/
theorem Linked.leaves_of_isUnit (hl : t.Linked) {id : ViewId} {v : View} (hv : t.view? id = some v)
    (hunit : v.kind.isUnit = true) : t.leaves id = [v] := by
  have hchildren := hl.children_of_isUnit hv hunit
  have hself : t.leaf? id = some v := by
    rw [leaf?, hv]
    simp [hunit]
  rw [leaves, subtree_eq, hchildren, List.flatMap_nil, List.filterMap_cons_some hself,
    List.filterMap_nil]

/-! ## Trees of layers -/

/-- **Layers of layers**: every view is a unit view, or a layer of some children that share a scale
for the dimension. A layer without children is excluded: it would have no size to pass on. -/
def Layered (t : ViewTree) (d : Dimension) : Prop :=
  ∀ id v, t.view? id = some v →
    v.kind.isUnit = true ∨
      v.kind = .layer ∧ v.children ≠ [] ∧ v.sharing d.channel = .shared

/-- Whether a view may stand in a tree of layers, as a test that can be computed. -/
def isUnitOrLayer (v : View) (d : Dimension) : Bool :=
  match v.kind with
  | .unit _ => true
  | .layer => !v.children.isEmpty && v.sharing d.channel == .shared
  | _ => false

/-- The test says what a tree of layers asks of each of its views. -/
theorem isUnitOrLayer_iff {v : View} {d : Dimension} :
    isUnitOrLayer v d = true ↔
      v.kind.isUnit = true ∨
        v.kind = .layer ∧ v.children ≠ [] ∧ v.sharing d.channel = .shared := by
  unfold isUnitOrLayer
  cases v.kind <;> simp [ViewKind.isUnit]

/-- Whether a tree is one of layers shows view by view. -/
instance (t : ViewTree) (d : Dimension) : Decidable (t.Layered d) :=
  decidable_of_iff (∀ v ∈ t.views.toList, isUnitOrLayer v d = true) <| by
    constructor
    · intro h id v hv
      exact isUnitOrLayer_iff.mp (h v (Array.mem_toList_iff.mpr (Array.mem_of_getElem? hv)))
    · intro h v hv
      obtain ⟨id, hid⟩ := Array.getElem?_of_mem (Array.mem_toList_iff.mp hv)
      exact isUnitOrLayer_iff.mpr (h id v hid)

namespace Layered

variable {d : Dimension} (h : t.Layered d) (hl : t.Linked) (config : Config) (before : Layout)

include h

/-- What is no unit view is a layer. -/
theorem kind_eq {id : ViewId} {v : View} (hv : t.view? id = some v) (hunit : v.kind.isUnit = false) :
    v.kind = .layer := by
  rcases h id v hv with hunit' | ⟨hkind, -, -⟩
  · rw [hunit] at hunit'
    cases hunit'
  · exact hkind

/-- The root keeps what it comes to, as there is no parent to take it. -/
theorem settledSize?_root {root : ViewId} (hroot : root < t.size) :
    t.settledSize? config before root root d.key = some (t.ownSize config before d root) := by
  obtain ⟨v, hv⟩ := exists_view? hroot
  rw [settledSize?_self]
  cases hunit : v.kind.isUnit with
  | true =>
    obtain ⟨u, hkind⟩ := ViewKind.exists_of_isUnit hunit
    rw [keptSize?_of_unit config before hv hkind, ownSize_of_unit config before hv hkind]
  | false =>
    have hkind := h.kind_eq hv hunit
    have hkept := keptSize?_of_composite config before hv (ViewKind.unit?_eq_none_iff.mpr hunit) d
    rw [parentKey_of_layer hv hkind] at hkept
    rw [hkept, ownSize_of_layer config before hv hkind]

include hl

/-- The children of a layer always share a size, the one that leads theirs: there is at least one of
them, and their scale is not independent. -/
theorem exists_sharedSize_eq {id : ViewId} {v : View} (hv : t.view? id = some v)
    (hunit : v.kind.isUnit = false) :
    ∃ e, t.sharedSize config before d id = .shared e ∧
      leading? ((t.children id).map (t.ownSize config before d)) = some e := by
  rcases h id v hv with hunit' | ⟨-, hchildren, hshared⟩
  · rw [hunit] at hunit'
    cases hunit'
  · have hindependent : t.isIndependent id d.channel = false := by
      rw [isIndependent, hv, Option.any_some, hshared]
      rfl
    have hentries : (t.children id).map (t.ownSize config before d) ≠ [] := by
      rw [hl.children_eq hv]
      simpa using hchildren
    obtain ⟨e, he⟩ := Option.ne_none_iff_exists'.mp (mt leading?_eq_none_iff.mp hentries)
    refine ⟨e, ?_, he⟩
    rw [sharedSize, MergedSize.ofEntries, he, hindependent]
    rfl

/-- **A view comes to the leading entry of its leaves**, however they are put together in layers. The
induction goes down the tree. -/
theorem leading?_leaves {id : ViewId} (hid : id < t.size) :
    leading? ((t.leaves id).map fun v => v.leafEntry config.view d) =
      some (t.ownSize config before d id) := by
  induction id using t.downInduction with
  | step id ih =>
    obtain ⟨v, hv⟩ := exists_view? hid
    cases hunit : v.kind.isUnit with
    | true =>
      obtain ⟨u, hkind⟩ := ViewKind.exists_of_isUnit hunit
      rw [hl.leaves_of_isUnit hv hunit, ownSize_of_unit config before hv hkind,
        ← View.leafEntry_of_unit hkind]
      exact leading?_singleton _
    | false =>
      obtain ⟨e, hshared, hlead⟩ := h.exists_sharedSize_eq hl config before hv hunit
      rw [leaves_of_not_isUnit hv hunit, List.map_flatMap,
        ← leading?_map fun c hc => ih c hc (lt_of_mem_children hc).2, hlead,
        ownSize_of_layer config before hv (h.kind_eq hv hunit), hshared]
      rfl

/-- Every other view has left its size to its parent, since no merge ends without a size. -/
theorem settledSize?_of_ne {id : Nat} (hid : id < t.size) (hne : id ≠ 0) :
    t.settledSize? config before 0 id d.key = some .merged := by
  obtain ⟨p, hp⟩ := hl.exists_parent? (Nat.pos_iff_ne_zero.mpr hne) hid
  obtain ⟨v, hv⟩ := exists_view? (Nat.lt_trans (lt_of_parent? hp) hid)
  obtain ⟨e, hshared, -⟩ := h.exists_sharedSize_eq hl config before hv (hl.isUnit_of_parent? hp hv)
  have hleaves : t.leavesSize config before d id = true := by
    rw [leavesSize, hp, Option.any_some, hshared]
    rfl
  rw [settledSize?, Dimension.dimension_key, if_pos ⟨hne, rfl, hleaves⟩]

end Layered

/-- A pass over the layout of a tree leaves what it makes of it. -/
theorem layout_onLayout (f : Layout → Reported Layout) :
    (t.onLayout f).value.layout = (f t.layout).value := rfl

section settled

variable (ht : t.Grown) (config : Config) {root : ViewId} (hroot : t.root = some root)
  {d : Dimension} (h : t.Layered d)

include ht hroot h

/-- **The root is settled as the leading entry of its leaves.** -/
theorem Grown.sizeAt?_root_of_layered :
    (t.resolve config root t.layout).value.sizeAt? root d.key =
      leading? ((t.leaves root).map fun v => v.leafEntry config.view d) := by
  have hlt := ht.linked.lt_size_of_root hroot
  rw [ht.sizeAt?_resolve_root config hroot, h.settledSize?_root config {} hlt,
    h.leading?_leaves ht.linked config {} hlt]

/-- There is a unit view in a tree of layers: every way down ends at one. -/
theorem Grown.leaves_ne_nil : t.leaves root ≠ [] := by
  intro hnil
  have hlead := h.leading?_leaves ht.linked {} {} (ht.linked.lt_size_of_root hroot)
  rw [hnil] at hlead
  cases hlead

end settled

/-- Unit views that are drawn from the same have the same entries. -/
theorem map_leafEntry_congr {leaves leaves' : List View}
    (h : leaves'.map View.drawing = leaves.map View.drawing) (config : ViewConfig) (d : Dimension) :
    (leaves'.map fun v => v.leafEntry config d) = leaves.map fun v => v.leafEntry config d := by
  induction leaves generalizing leaves' with
  | nil =>
    obtain rfl := List.map_eq_nil_iff.mp h
    rfl
  | cons v rest ih =>
    obtain ⟨v', rest', rfl, hfirst, hrest⟩ := List.map_eq_cons_iff.mp h
    rw [List.map_cons, List.map_cons, View.leafEntry_congr hfirst, ih hrest]

/-- **The size of a tree of layers.** The root comes to the first size, from left to right, that a unit
view authors, or else to the one inferred for the first unit view; every other view has left its size
to its parent; and any other tree of layers with the same unit views in the same order comes to the
same size. -/
theorem Grown.size_root_of_layered (ht : t.Grown) (config : Config) {root : ViewId}
    (hroot : t.root = some root) {d : Dimension} (h : t.Layered d) :
    ∃ r first rest, t.resolveTree config = .ok r ∧ t.leaves root = first :: rest ∧
      r.value.layout.sizeAt? root d.key =
        some (match (t.leaves root).findSome? fun v => v.authored? d with
          | some spec => .authored (some spec.settled)
          | none => .inferred (some (first.inferredSize config.view d))) ∧
      (∀ id < t.size, id ≠ root → r.value.layout.sizeAt? id d.key = some .merged) ∧
      ∀ (t' : ViewTree) (root' : ViewId), t'.Grown → t'.root = some root' → t'.Layered d →
        (t'.leaves root').map View.drawing = (t.leaves root).map View.drawing →
        ∃ r', t'.resolveTree config = .ok r' ∧
          r'.value.layout.sizeAt? root' d.key = r.value.layout.sizeAt? root d.key := by
  have hsize := ht.sizeAt?_root_of_layered config hroot h
  obtain ⟨first, rest, hleaves⟩ := List.exists_cons_of_ne_nil (ht.leaves_ne_nil hroot h)
  refine ⟨_, first, rest, resolveTree_of_root hroot config, hleaves, ?_, ?_, ?_⟩
  · rw [layout_onLayout, hsize, hleaves]
    exact leading?_leafEntry first rest config.view d
  · intro id hid hne
    rw [layout_onLayout, ht.sizeAt?_resolve_root config hroot]
    obtain rfl := ht.linked.root_eq_zero hroot
    exact h.settledSize?_of_ne ht.linked config {} hid hne
  · intro t' root' ht' hroot' h' hsame
    refine ⟨_, resolveTree_of_root hroot' config, ?_⟩
    rw [layout_onLayout, layout_onLayout, ht'.sizeAt?_root_of_layered config hroot' h', hsize,
      map_leafEntry_congr hsame]

/-- A layer of a layer of two unit views and of a third one. The second and the third author
widths. -/
def layersLeft : ViewTree :=
  grow { name := "outer", kind := .layer }
    [(0, { name := "inner", kind := .layer }), (1, { name := "plain", kind := .unit {} }),
      (1, { name := "wide", kind := .unit { width := some (.pixels 300) } }),
      (0, { name := "stepped", kind := .unit { width := some (.step 12) } })]

/-- The unit views of `layersLeft` in the same order, the last two in the inner layer instead of the
first two. -/
def layersRight : ViewTree :=
  grow { name := "outer", kind := .layer }
    [(0, { name := "plain", kind := .unit {} }), (0, { name := "inner", kind := .layer }),
      (2, { name := "wide", kind := .unit { width := some (.pixels 300) } }),
      (2, { name := "stepped", kind := .unit { width := some (.step 12) } })]

/-- Both trees come to the width that the second unit view authors, though in one it stands in the
inner layer's second place and in the other in its first. -/
theorem size_layersLeft :
    ∃ r r', layersLeft.resolveTree {} = .ok r ∧ layersRight.resolveTree {} = .ok r' ∧
      r.value.layout.sizeAt? 0 .width = some (.authored (some (.pixels 300))) ∧
      r.value.layout.sizeAt? 3 .width = some .merged ∧
      r'.value.layout.sizeAt? 0 .width = some (.authored (some (.pixels 300))) := by
  have hleft : layersLeft.Grown := grown_grow _ _
  have hright : layersRight.Grown := grown_grow _ _
  obtain ⟨r, first, rest, hr, -, hroot, hmerged, hother⟩ :=
    hleft.size_root_of_layered {} (show layersLeft.root = some 0 from rfl)
      (show layersLeft.Layered .width by decide)
  have hleaves :
      (layersRight.leaves 0).map View.drawing = (layersLeft.leaves 0).map View.drawing := by
    with_unfolding_all rfl
  obtain ⟨r', hr', hsame⟩ := hother layersRight 0 hright rfl (by decide) hleaves
  have hsize : r.value.layout.sizeAt? 0 .width = some (.authored (some (.pixels 300))) :=
    hroot.trans (by with_unfolding_all rfl)
  exact ⟨r, r', hr, hr', hsize, hmerged 3 (by decide) (by decide), hsame.trans hsize⟩

end ViewTree

end ChartCompiler
