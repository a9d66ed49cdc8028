import ChartCompiler.Proofs.Layout.Outcome
import ChartCompiler.Proofs.Naming.Chains
import Mathlib.Data.List.Nodup
import Mathlib.Data.List.ProdSigma

/-!
# Where references to sizes lead

A reference to the size of a view is the name of a signal, looked up in the renames. In a tree whose
size signals have names of their own, the renames that settling records follow the links of the
tree, and so a reference can be followed without looking at any name.

* `ViewTree.DistinctSizeSignals` — no two sizes of a tree have the same name.
* `ViewTree.settledSize?_eq_merged_iff` — the sizes that are marked as merged are those left to a
  parent.
* `ViewTree.HeldAt` — **where a view's size is held** once settled: at the view itself, in the cells
  of the first container that has taken it, or at the last of the layers that have taken it in turn.
* `ViewTree.Grown.sizeSignal_resolveTree` — **a reference to a settled size reads the signal of the
  size where it is held**; a size is renamed exactly when its entry only says that it has merged.

Distinct names are needed throughout: if two views had the same name, the rename of the one would
redirect references to the other. Given them, every name stands for one view and one key
(`eq_of_ownSizeSignal_eq`), a name has at most one rename (`Linked.eq_of_isAlias`), and each step of
a look-up goes from a view to its parent. The sizes of cells are never renamed, so a look-up ends at
the first container; otherwise it ends at the layer that keeps its own size.
-/

namespace ChartCompiler.ViewTree

variable {t : ViewTree} (config : Config)

/-! ## Names of sizes -/

/-- The names of a tree's size signals, one for each view and key, whether or not there is such a
size. -/
def sizeSignalNames (t : ViewTree) : List String :=
  ((List.range t.size).product (Keyword.all : List LayoutKey)).map fun s =>
    t.ownSizeSignal s.1 s.2

/-- **No two sizes of a tree have the same name.** Names are compared as they are written in
signals, after whatever is no part of an identifier has been replaced. -/
def DistinctSizeSignals (t : ViewTree) : Prop := t.sizeSignalNames.Nodup

/-- Whether the names are distinct can be computed. -/
instance (t : ViewTree) : Decidable t.DistinctSizeSignals :=
  inferInstanceAs (Decidable t.sizeSignalNames.Nodup)

/-- A name tells its view and its key. -/
theorem DistinctSizeSignals.eq_of_ownSizeSignal_eq (h : t.DistinctSizeSignals) {id id' : Nat}
    {key key' : LayoutKey} (hid : id < t.size) (hid' : id' < t.size)
    (heq : t.ownSizeSignal id key = t.ownSizeSignal id' key') : id = id' ∧ key = key' := by
  have hmem : ∀ {i : Nat} {k : LayoutKey}, i < t.size →
      (i, k) ∈ (List.range t.size).product (Keyword.all : List LayoutKey) := fun hi =>
    List.mem_product.mpr ⟨List.mem_range.mpr hi, Keyword.mem_all _⟩
  exact Prod.mk.inj (List.inj_on_of_nodup_map h (hmem hid) (hmem hid') heq)

/-- Each dimension has a key of its own. -/
theorem key_inj {d d' : Dimension} (h : d.key = d'.key) : d = d' := by
  rw [← Dimension.dimension_key d, h, Dimension.dimension_key]

/-! ## Sizes that are left to a parent -/

/-- A size that children share is the leading one of theirs. -/
theorem leading?_of_sharedSize_eq {before : Layout} {d : Dimension} {id : ViewId} {e : SizeEntry}
    (h : t.sharedSize config before d id = .shared e) :
    leading? ((t.children id).map (t.ownSize config before d)) = some e :=
  (MergedSize.ofEntries_eq_shared_iff.mp h).1

/-- A size that children share is one of theirs, as the child has come to it by itself. -/
theorem exists_of_sharedSize_eq {before : Layout} {d : Dimension} {id : ViewId} {e : SizeEntry}
    (h : t.sharedSize config before d id = .shared e) :
    ∃ c ∈ t.children id, t.ownSize config before d c = e :=
  List.mem_map.mp (mem_of_leading? (leading?_of_sharedSize_eq config h))

/-- A size that a parent keeps is the size that one of its children has come to. -/
theorem exists_of_value_sharedSize {before : Layout} {d : Dimension} {id : ViewId}
    {size : LayoutSize} (h : (t.sharedSize config before d id).entry.value = some size) :
    ∃ c ∈ t.children id, (t.ownSize config before d c).value = some size := by
  cases hshared : t.sharedSize config before d id with
  | shared e =>
    obtain ⟨c, hc, rfl⟩ := exists_of_sharedSize_eq config hshared
    rw [hshared] at h
    exact ⟨c, hc, h⟩
  | childless => rw [hshared] at h; cases h
  | apart => rw [hshared] at h; cases h

/-- Where no size was merged before, no view comes to a merged one by itself. The induction goes
down the tree: a layer comes to a size of one of its children, and a container to what was there
before. -/
theorem value_ownSize_ne_merged {before : Layout}
    (hbefore : ∀ id key, (before.size id key).value ≠ some .merged) (d : Dimension) (id : ViewId) :
    (t.ownSize config before d id).value ≠ some .merged := by
  induction id using t.downInduction with
  | step id ih =>
    cases hv : t.view? id with
    | none =>
      rw [ownSize_of_view?_none _ _ hv]
      exact hbefore id d.key
    | some v =>
      cases hkind : v.kind with
      | unit u =>
        rw [ownSize_of_unit _ _ hv hkind]
        exact v.value_unitEntry_ne_merged u config.view d
      | layer =>
        rw [ownSize_of_layer _ _ hv hkind]
        intro hmerged
        obtain ⟨c, hc, hvalue⟩ := exists_of_value_sharedSize config hmerged
        exact ih c hc hvalue
      | _ =>
        rw [ownSize_of_container _ _ hv (by rw [hkind]; rfl) (by rw [hkind]; simp)]
        exact hbefore id d.key

/-- From a layout without sizes, no children share a merged size. -/
theorem value_sharedSize_ne_merged (d : Dimension) (id : ViewId) :
    (t.sharedSize config {} d id).entry.value ≠ some .merged := by
  intro hmerged
  obtain ⟨c, -, hc⟩ := exists_of_value_sharedSize config hmerged
  exact value_ownSize_ne_merged config (fun _ _ => Option.some_ne_none _ ∘ Eq.symm) d c hc

/-- No view is left with a merged size by itself. -/
theorem value_keptSize?_ne_merged {id : ViewId} {key : LayoutKey} {e : SizeEntry}
    (h : t.keptSize? config {} id key = some e) : e.value ≠ some .merged := by
  obtain ⟨v, -, ⟨u, -, rfl⟩ | ⟨-, rfl⟩⟩ := keptSize?_eq_some config {} rfl h
  · exact v.value_unitEntry_ne_merged u config.view _
  · exact value_sharedSize_ne_merged config _ id

/-- A settled entry of a merged size is the mark that a parent has put there, and so it is no
authored one. -/
theorem eq_merged_of_settledSize? {top id : ViewId} {key : LayoutKey} {e : SizeEntry}
    (h : t.settledSize? config {} top id key = some e) (hvalue : e.value = some .merged) :
    e = .merged := by
  unfold settledSize? at h
  split at h
  · exact (Option.some.inj h).symm
  · exact absurd hvalue (value_keptSize?_ne_merged config h)

/-- **The sizes that are marked as merged are those left to a parent**, under the view's own key. So
the entries alone tell which views have left their sizes. -/
theorem settledSize?_eq_merged_iff {id : Nat} {key : LayoutKey} :
    t.settledSize? config {} 0 id key = some .merged ↔
      key = key.dimension.key ∧ t.leavesSize config {} key.dimension id = true := by
  have hne : t.leavesSize config {} key.dimension id = true → id ≠ 0 := by
    rintro hleaves rfl
    obtain ⟨p, hp, -⟩ := (leavesSize_eq_true_iff t config {}).mp hleaves
    exact Nat.not_lt_zero p (lt_of_parent? hp)
  unfold settledSize?
  split
  · rename_i hcase
    exact ⟨fun _ => hcase.2, fun _ => rfl⟩
  · rename_i hcase
    constructor
    · exact fun hkept => absurd rfl (value_keptSize?_ne_merged config hkept)
    · exact fun hleft => absurd ⟨hne hleft.2, hleft⟩ hcase

/-- The key under which a view holds a size of its own along a dimension: that of its cells for a
container of cells. -/
def ownKey (v : View) (d : Dimension) : LayoutKey :=
  if v.kind.isUnit then d.key else sharedKey v.kind d

/-- A view holds one size of its own along a dimension: a container has no entry for itself but the
mark of a merged size, and other views have none for cells. -/
theorem key_eq_of_settledSize? {id : ViewId} {v : View} (hv : t.view? id = some v) {key : LayoutKey}
    {e : SizeEntry} (he : t.settledSize? config {} 0 id key = some e) (hne : e ≠ .merged) :
    key = ownKey v key.dimension := by
  have hkept : t.keptSize? config {} id key = some e := by
    unfold settledSize? at he
    split at he
    · exact absurd (Option.some.inj he).symm hne
    · exact he
  have hnone : ({} : Layout).sizeAt? id key = none := rfl
  unfold keptSize? at hkept
  rw [hv, hnone] at hkept
  dsimp only at hkept
  unfold ownKey
  cases hunit : v.kind.unit? with
  | some u =>
    rw [hunit] at hkept
    rw [ViewKind.unit?_eq_some_iff.mp hunit, ViewKind.isUnit, if_pos rfl]
    exact (Option.ite_none_right_eq_some.mp hkept).1
  | none =>
    rw [hunit] at hkept
    rw [ViewKind.unit?_eq_none_iff.mp hunit, if_neg Bool.false_ne_true]
    exact (Option.ite_none_right_eq_some.mp hkept).1

/-- A view leaves its size to its parent unless the parent's children keep apart. A parent is never
without children, so only two of the three ways to merge are left. -/
theorem isShared_sharedSize_iff {before : Layout} {d : Dimension} {c p : ViewId}
    (hc : c ∈ t.children p) :
    (t.sharedSize config before d p).isShared = true ↔ t.sharedSize config before d p ≠ .apart := by
  have hentries : (t.children p).map (t.ownSize config before d) ≠ [] := by
    simpa using List.ne_nil_of_mem hc
  obtain ⟨e, he⟩ := Option.ne_none_iff_exists'.mp (mt leading?_eq_none_iff.mp hentries)
  unfold sharedSize MergedSize.ofEntries
  rw [he]
  dsimp only
  split <;> simp [MergedSize.isShared]

/-- **Where a view's size along a dimension is held** once settled: `HeldAt t config before d c
holder key` says that the size of `c` is the one that `holder` keeps under `key`. The chain goes up
through layers, each of which leaves its size in turn, and ends at a view that keeps its size or at
a container. -/
inductive HeldAt (t : ViewTree) (config : Config) (before : Layout) (d : Dimension) :
    ViewId → ViewId → LayoutKey → Prop
  /-- A view that does not leave its size holds it. -/
  | self {c : ViewId} (keeps : t.leavesSize config before d c = false) :
      HeldAt t config before d c c d.key
  /-- A container of cells holds the size of its cells. -/
  | cell {c p : ViewId} {v : View} (parent : t.parent? c = some p)
      (leaves : t.leavesSize config before d c = true) (view : t.view? p = some v)
      (container : v.kind ≠ .layer) : HeldAt t config before d c p d.cellKey
  /-- A layer leaves the size on where it leaves its own. -/
  | layer {c p holder : ViewId} {key : LayoutKey} {v : View} (parent : t.parent? c = some p)
      (leaves : t.leavesSize config before d c = true) (view : t.view? p = some v)
      (isLayer : v.kind = .layer) (held : HeldAt t config before d p holder key) :
      HeldAt t config before d c holder key

/-- Every size is held somewhere. The induction is on the place of the view, since parents stand
before their children. -/
theorem exists_heldAt (t : ViewTree) (config : Config) (before : Layout) (d : Dimension) (c : Nat) :
    ∃ holder key, t.HeldAt config before d c holder key := by
  induction c using Nat.strongRecOn with
  | ind c ih =>
    cases hleaves : t.leavesSize config before d c with
    | false => exact ⟨c, d.key, .self hleaves⟩
    | true =>
      obtain ⟨p, hp, -⟩ := (leavesSize_eq_true_iff t config before).mp hleaves
      obtain ⟨v, hv⟩ := exists_view? (Nat.lt_trans (lt_of_parent? hp) (lt_size_of_parent? hp))
      cases hkind : v.kind with
      | layer =>
        obtain ⟨holder, key, hheld⟩ := ih p (lt_of_parent? hp)
        exact ⟨holder, key, .layer hp hleaves hv hkind hheld⟩
      | _ => exact ⟨p, d.cellKey, .cell hp hleaves hv (by rw [hkind]; simp)⟩

/-! ## The renames of a settled tree -/

/-- Where names are distinct, no size is renamed in two ways, whatever there was before: the old
name tells the child and the dimension, and the child has one parent. -/
theorem Linked.eq_of_isAlias (hl : t.Linked) (hnames : t.DistinctSizeSignals)
    {before before' : Layout} {top top' : ViewId} {a b : String × String}
    (ha : t.IsAlias config before top a) (hb : t.IsAlias config before' top' b) (hab : a.1 = b.1) :
    a.2 = b.2 := by
  obtain ⟨p, -, c, hc, d, -, rfl⟩ := ha
  obtain ⟨q, -, c', hc', d', -, rfl⟩ := hb
  obtain ⟨rfl, hkey⟩ := hnames.eq_of_ownSizeSignal_eq (lt_of_mem_children hc).2
    (lt_of_mem_children hc').2 hab
  have hpq : some p = some q := (hl.mem_children_iff_parent?.mp hc).symm.trans
    (hl.mem_children_iff_parent?.mp hc')
  rw [Option.some.inj hpq, key_inj hkey]

namespace Grown

variable (h : t.Grown) (hnames : t.DistinctSizeSignals)

include h hnames

/-- **What a settled tree renames**: the renames of its merges and no others, as there were none
before. -/
theorem target?_resolve {root : ViewId} {old new : String} :
    (t.resolve config root t.layout).value.renames.target? old = some new ↔
      t.IsAlias config {} root (old, new) := by
  have hl := h.linked
  have hone : ∀ a ∈ t.aliases config t.layout root, ∀ b ∈ t.aliases config t.layout root,
      a.1 = b.1 → a.2 = b.2 := fun a ha b hb => hl.eq_of_isAlias config hnames
    ((mem_aliases_iff config).mp ha) ((mem_aliases_iff config).mp hb)
  rw [renames_resolve config hl, h.renames_layout, Renames.target?_renameAll_eq_some_iff hone,
    mem_aliases_iff, isAlias_congr config fun x _ k => h.sizeAt?_eq_empty x k]
  constructor
  · rintro (halias | ⟨-, hempty⟩)
    · exact halias
    · cases hempty
  · exact .inl

/-- A size that is left to a parent goes by the parent's name. -/
theorem target?_of_leaves {root : Nat} (hroot : t.root = some root) {c p : Nat} {d : Dimension}
    (hp : t.parent? c = some p) (hshared : (t.sharedSize config {} d p).isShared = true) :
    (t.resolve config root t.layout).value.renames.target? (t.ownSizeSignal c d.key) =
      some (t.ownSizeSignal p (t.parentKey p d)) := by
  have hl := h.linked
  have hlt : p < t.size := Nat.lt_trans (lt_of_parent? hp) (lt_size_of_parent? hp)
  obtain rfl := hl.root_eq_zero hroot
  exact (h.target?_resolve config hnames).mpr
    ⟨p, hl.mem_subtree_root hlt, c, hl.mem_children_iff_parent?.mpr hp, d, hshared, rfl⟩

/-- Every other size keeps its name, that of a cell included. -/
theorem target?_eq_none {root c : Nat} (hc : c < t.size) {key : LayoutKey}
    (hkeeps : key = key.dimension.key → t.leavesSize config {} key.dimension c = false) :
    (t.resolve config root t.layout).value.renames.target? (t.ownSizeSignal c key) = none := by
  rw [Option.eq_none_iff_forall_ne_some]
  intro new hnew
  obtain ⟨p, -, c', hc', d, hshared, heq⟩ := (h.target?_resolve config hnames).mp hnew
  obtain ⟨rfl, rfl⟩ := hnames.eq_of_ownSizeSignal_eq hc (lt_of_mem_children hc').2
    (congrArg Prod.fst heq)
  have hleaves := (leavesSize_eq_true_iff t config {}).mpr
    ⟨p, h.linked.mem_children_iff_parent?.mp hc', hshared⟩
  rw [Dimension.dimension_key] at hkeeps
  rw [hkeeps rfl] at hleaves
  cases hleaves

/-- **A size is renamed exactly when it is left to a parent.** -/
theorem has_resolve_iff {root : Nat} (hroot : t.root = some root) {c : Nat} (hc : c < t.size)
    (key : LayoutKey) :
    (t.resolve config root t.layout).value.renames.has (t.ownSizeSignal c key) = true ↔
      key = key.dimension.key ∧ t.leavesSize config {} key.dimension c = true := by
  constructor
  · intro hhas
    refine Decidable.byContradiction fun hnot => ?_
    rw [Renames.has, h.target?_eq_none config hnames hc fun hkey => ?_] at hhas
    · cases hhas
    · exact Bool.eq_false_iff.mpr fun hleaves => hnot ⟨hkey, hleaves⟩
  · rintro ⟨hkey, hleaves⟩
    obtain ⟨p, hp, hshared⟩ := (leavesSize_eq_true_iff t config {}).mp hleaves
    rw [hkey, Renames.has, h.target?_of_leaves config hnames hroot hp hshared]
    rfl

/-- The size of a cell keeps its name, since nobody takes it from the container. -/
theorem target?_cellKey {root id : Nat} (hid : id < t.size) (d : Dimension) :
    (t.resolve config root t.layout).value.renames.target? (t.ownSizeSignal id d.cellKey) = none :=
  h.target?_eq_none config hnames hid fun hkey => by cases d <;> cases hkey

/-- One step along the renames leads from a size that is left to a parent to the parent's. The two
names differ, so the step is not the last one of a look-up. -/
theorem next?_of_leaves {root : Nat} (hroot : t.root = some root) {d : Dimension} {c p : Nat}
    (hp : t.parent? c = some p) (hleaves : t.leavesSize config {} d c = true) :
    (t.resolve config root t.layout).value.renames.next? (t.ownSizeSignal c d.key) =
      some (t.ownSizeSignal p (t.parentKey p d)) := by
  obtain ⟨q, hq, hshared⟩ := (leavesSize_eq_true_iff t config {}).mp hleaves
  rw [hp] at hq
  obtain rfl := Option.some.inj hq
  have hpc := lt_of_parent? hp
  have hc := lt_size_of_parent? hp
  refine Renames.next?_of_target? (h.target?_of_leaves config hnames hroot hp hshared) fun heq => ?_
  have := (hnames.eq_of_ownSizeSignal_eq (Nat.lt_trans hpc hc) hc heq).1
  omega

/-- **The renames lead from a size to where it is held**, one rename for each parent that has taken
it. The induction is on the way up. -/
theorem leads_of_heldAt {root : Nat} (hroot : t.root = some root) {d : Dimension} {c holder : Nat}
    {key : LayoutKey} (hc : c < t.size) (hheld : t.HeldAt config {} d c holder key) :
    ∃ n, (t.resolve config root t.layout).value.renames.Leads n (t.ownSizeSignal c d.key)
      (t.ownSizeSignal holder key) := by
  induction hheld with
  | self keeps =>
    refine ⟨0, .stop (Renames.next?_eq_none_of_target? ?_)⟩
    exact h.target?_eq_none config hnames hc fun _ => by rw [Dimension.dimension_key]; exact keeps
  | @cell c p v parent leaves view container =>
    have hp : p < t.size := lt_size_of_view? view
    have hnext := h.next?_of_leaves config hnames hroot parent leaves
    rw [parentKey_of_container view container] at hnext
    exact ⟨1, .step hnext (.stop (Renames.next?_eq_none_of_target?
      (h.target?_cellKey config hnames hp d)))⟩
  | @layer c p holder key v parent leaves view isLayer held ih =>
    obtain ⟨n, hn⟩ := ih (lt_size_of_view? view)
    have hnext := h.next?_of_leaves config hnames hroot parent leaves
    rw [parentKey_of_layer view isLayer] at hnext
    exact ⟨n + 1, .step hnext hn⟩

/-- **A reference to a size reads the signal of the size where it is held.** -/
theorem resolve_of_heldAt {root : Nat} (hroot : t.root = some root) {d : Dimension} {c holder : Nat}
    {key : LayoutKey} (hc : c < t.size) (hheld : t.HeldAt config {} d c holder key) :
    (t.resolve config root t.layout).value.renames.resolve (t.ownSizeSignal c d.key) =
      t.ownSizeSignal holder key := by
  obtain ⟨n, hn⟩ := h.leads_of_heldAt config hnames hroot hc hheld
  exact hn.resolve_eq

/-- A size that is left to a parent is read under the name that the parent's is read under. For a
layer the parent's own reference is followed further up; for a container it is that of its cells,
which is where the look-up ends. -/
theorem resolve_of_leaves {root : Nat} (hroot : t.root = some root) {d : Dimension} {c p : Nat}
    (hp : t.parent? c = some p) (hleaves : t.leavesSize config {} d c = true) :
    (t.resolve config root t.layout).value.renames.resolve (t.ownSizeSignal c d.key) =
      (t.resolve config root t.layout).value.renames.resolve
        (t.ownSizeSignal p (t.parentKey p d)) := by
  have hc := lt_size_of_parent? hp
  have hlt : p < t.size := Nat.lt_trans (lt_of_parent? hp) hc
  obtain ⟨v, hv⟩ := exists_view? hlt
  by_cases hkind : v.kind = .layer
  · obtain ⟨holder, key, hheld⟩ := exists_heldAt t config {} d p
    rw [parentKey_of_layer hv hkind, h.resolve_of_heldAt config hnames hroot hlt hheld,
      h.resolve_of_heldAt config hnames hroot hc (.layer hp hleaves hv hkind hheld)]
  · have hstop : (t.resolve config root t.layout).value.renames.Leads 0
        (t.ownSizeSignal p d.cellKey) (t.ownSizeSignal p d.cellKey) :=
      .stop (Renames.next?_eq_none_of_target? (h.target?_cellKey config hnames hlt d))
    rw [parentKey_of_container hv hkind,
      h.resolve_of_heldAt config hnames hroot hc (.cell hp hleaves hv hkind), hstop.resolve_eq]

/-- **References to settled sizes.** A child's size is read under the name that its parent's is read
under, or, where the sizes keep apart, under the child's own; a size is renamed exactly when its
entry says that it has merged, and the size of a cell never is; and what is read in the end is the
signal of the size where it is held.

The one hypothesis beside a root is that size signals have names of their own. Views may well have
the same name otherwise, as long as no two of their sizes do. -/
theorem sizeSignal_resolveTree {root : ViewId} (hroot : t.root = some root) :
    ∃ r, t.resolveTree config = .ok r ∧
      (∀ c p d, t.parent? c = some p →
        (t.sharedSize config {} d p ≠ .apart →
          r.value.sizeSignal c d.key = r.value.sizeSignal p (t.parentKey p d)) ∧
        (t.sharedSize config {} d p = .apart →
          r.value.sizeSignal c d.key = t.ownSizeSignal c d.key)) ∧
      (∀ id < t.size, ∀ key, r.value.layout.renames.has (t.ownSizeSignal id key) = true ↔
        r.value.layout.sizeAt? id key = some .merged) ∧
      (∀ id < t.size, ∀ d : Dimension,
        r.value.layout.renames.has (t.ownSizeSignal id d.cellKey) = false) ∧
      ∀ c < t.size, ∀ d, ∃ holder key, t.HeldAt config {} d c holder key ∧
        r.value.sizeSignal c d.key = t.ownSizeSignal holder key := by
  have hl := h.linked
  obtain rfl := hl.root_eq_zero hroot
  refine ⟨_, resolveTree_of_root hroot config, ?_, ?_, ?_, ?_⟩
  · intro c p d hp
    have hc : c ∈ t.children p := hl.mem_children_iff_parent?.mpr hp
    constructor
    · intro hshared
      exact h.resolve_of_leaves config hnames hroot hp ((leavesSize_eq_true_iff t config {}).mpr
        ⟨p, hp, (isShared_sharedSize_iff config hc).mpr hshared⟩)
    · intro hapart
      -- A child of a view that keeps its children apart holds its size itself.
      have hkeeps : t.leavesSize config {} d c = false := by
        rw [leavesSize, hp, Option.any_some, hapart]
        rfl
      exact h.resolve_of_heldAt config hnames hroot (lt_size_of_parent? hp) (.self hkeeps)
  · intro id hid key
    have hentry := h.sizeAt?_resolve_root config hroot id key
    change (t.resolve config 0 t.layout).value.renames.has _ = true ↔
      (t.resolve config 0 t.layout).value.sizeAt? id key = _
    rw [hentry, settledSize?_eq_merged_iff]
    exact h.has_resolve_iff config hnames hroot hid key
  · intro id hid d
    exact congrArg Option.isSome (h.target?_cellKey config hnames hid d)
  · intro c hc d
    obtain ⟨holder, key, hheld⟩ := exists_heldAt t config {} d c
    exact ⟨holder, key, hheld, h.resolve_of_heldAt config hnames hroot hc hheld⟩

end Grown

/-! ## A layer over a container -/

/-- A layer of a container with one cell and of a unit view. -/
def layeredCells : ViewTree :=
  grow { name := "outer", kind := .layer }
    [(0, { name := "inner", kind := .concat }), (1, { name := "cell", kind := .unit {} }),
      (0, { name := "mark", kind := .unit {} })]

/-- The reference of the cell leads to the cells of the container, that of the unit view beside the
container to the layer. -/
theorem references_layeredCells :
    ∃ r, layeredCells.resolveTree {} = .ok r ∧
      r.value.sizeSignal 2 .width = r.value.sizeSignal 1 .childWidth ∧
      r.value.sizeSignal 3 .width = r.value.sizeSignal 0 .width ∧
      r.value.layout.renames.has "mark_width" = true := by
  obtain ⟨r, hr, hparent, hrenamed, -, -⟩ := Grown.sizeSignal_resolveTree (t := layeredCells) {}
    (grown_grow _ _) (by decide +kernel) rfl
  have hshared : ∀ {m : MergedSize}, m.isShared = true → m ≠ .apart := by
    rintro _ hm rfl
    cases hm
  refine ⟨r, hr, ?_, ?_, ?_⟩
  · exact (hparent 2 1 .width rfl).1 (hshared (by decide +kernel))
  · exact (hparent 3 0 .width rfl).1 (hshared (by decide +kernel))
  · refine (hrenamed 3 (by decide) .width).mpr ?_
    rw [resolveTree_of_root rfl] at hr
    obtain rfl := Except.ok.inj hr
    with_unfolding_all rfl

end ChartCompiler.ViewTree
