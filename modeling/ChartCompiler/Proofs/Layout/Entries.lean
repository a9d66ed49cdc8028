import ChartCompiler.Layout.Resolve
import ChartCompiler.Proofs.Layout.Merging
import ChartCompiler.Proofs.Naming.Chains

/-!
# Entries of a layout

A layout is read through its entries: `Layout.sizeAt?` is the entry of one size of one view, if it
has one. What a step of settling does is told by the entries after it, one view and one key at a
time, and by the renames after it.

* `Layout.sizeAt?_setSize` — replacing one size changes one entry, even where the table of the view
  has to be made first.
* `ViewTree.mergedSize` — what the sizes of a view's children come to in a layout.
* `ViewTree.sizeAt?_share`, `ViewTree.sizeAt?_shareBoth` — **what sharing sizes does to the
  entries**: the parent gets the merged size, and where the sizes merge the children get the mark of
  it.
* `ViewTree.renames_share`, `ViewTree.renames_shareBoth` — **what it does to the renames**: where
  the sizes merge, the signal of each child goes by the name of the parent's, in the order of the
  children.

Each equation gives every entry after the step, the untouched ones included, so later proofs read
off both what has changed and what has not.
-/

namespace ChartCompiler

namespace Layout

/-- The entry of one size of a view, if there is one. A missing entry and an unresolved one read as
the same size, but they are told apart here: only the latter has been settled. -/
def sizeAt? (l : Layout) (id : ViewId) (key : LayoutKey) : Option SizeEntry :=
  (l.sizes id).entries.get? key

/-- A size that has no entry reads as unresolved. -/
theorem size_eq (l : Layout) (id : ViewId) (key : LayoutKey) :
    l.size id key = (l.sizeAt? id key).getD .unresolved := rfl

/-- The sizes of a view are its entries. -/
theorem sizes_ext {l l' : Layout} {id id' : ViewId}
    (h : ∀ k, l.sizeAt? id k = l'.sizeAt? id' k) : l.sizes id = l'.sizes id' :=
  PropertyTable.ext (Table.ext (funext h))

/-- Placing a table changes the sizes of one view. The list of tables may be too short for the view;
the views in between then get empty tables, which is what they read as before. -/
theorem sizes_setSizes (l : Layout) (id : Nat) (table : SizeTable) (c : Nat) :
    (l.setSizes id table).sizes c = if c = id then table else l.sizes c := by
  unfold setSizes sizes place
  simp only [Array.getD_eq_getD_getElem?]
  split
  · rename_i h
    rw [Array.getElem?_set]
    by_cases hc : c = id
    · simp [hc]
    · have hc' : id ≠ c := fun he => hc he.symm
      simp [hc, hc']
  · rename_i h
    -- The table is pushed behind the empty ones, at the very place of the view.
    have hsize : (l.tables ++ Array.replicate (id - l.tables.size) (∅ : SizeTable)).size = id := by
      rw [Array.size_append, Array.size_replicate]
      exact Nat.add_sub_of_le (Nat.le_of_not_lt h)
    rw [Array.getElem?_push, hsize]
    by_cases hc : c = id
    · simp [hc]
    · rw [if_neg hc, if_neg hc, Array.getElem?_append, Array.getElem?_replicate]
      split
      · rfl
      · rename_i hlt
        rw [Array.getElem?_eq_none (Nat.le_of_not_lt hlt)]
        split <;> rfl

/-- **Replacing one size changes one entry.** -/
theorem sizeAt?_setSize (l : Layout) (id : Nat) (key : LayoutKey) (e : SizeEntry) (c : Nat)
    (k : LayoutKey) :
    (l.setSize id key e).sizeAt? c k = if c = id ∧ k = key then some e else l.sizeAt? c k := by
  unfold setSize sizeAt?
  rw [sizes_setSizes]
  by_cases hc : c = id
  · subst hc
    simp [PropertyTable.put, Table.insert]
  · simp [hc]

/-- Renaming a signal changes no size. -/
@[simp] theorem sizeAt?_rename (l : Layout) (old new : String) (c : Nat) (k : LayoutKey) :
    (l.rename old new).sizeAt? c k = l.sizeAt? c k := rfl

/-- Replacing a size renames no signal. -/
@[simp] theorem renames_setSize (l : Layout) (id : Nat) (key : LayoutKey) (e : SizeEntry) :
    (l.setSize id key e).renames = l.renames := rfl

end Layout

namespace ViewTree

variable (t : ViewTree)

/-! ## Leaving sizes to a parent -/

/-- Exactly the listed children are marked, under the one key, whatever entry they had. -/
theorem sizeAt?_leaveTo (shared : String) (key : LayoutKey) (children : List ViewId) (l : Layout)
    (c : Nat) (k : LayoutKey) :
    (t.leaveTo shared key children l).sizeAt? c k =
      if c ∈ children ∧ k = key then some .merged else l.sizeAt? c k := by
  induction children generalizing l with
  | nil => simp [leaveTo]
  | cons child rest ih =>
    show (t.leaveTo shared key rest _).sizeAt? c k = _
    rw [ih, Layout.sizeAt?_setSize, Layout.sizeAt?_rename]
    by_cases hk : k = key <;> by_cases hc : c = child <;> simp [hk, hc]

/-- The signal of each listed child goes by the shared name. The names are recorded in the order of
the children. -/
theorem renames_leaveTo (shared : String) (key : LayoutKey) (children : List ViewId) (l : Layout) :
    (t.leaveTo shared key children l).renames =
      l.renames.renameAll (children.map fun c => (t.ownSizeSignal c key, shared)) := by
  induction children generalizing l with
  | nil => rfl
  | cons child rest ih => exact ih _

/-! ## Sharing sizes -/

/-- **What the sizes of a view's children come to** in a layout, along a dimension: the merge of the
entries that the children have in it. -/
def mergedSize (l : Layout) (id : ViewId) (d : Dimension) : MergedSize :=
  .ofEntries (t.isIndependent id d.channel) ((t.children id).map fun c => l.size c d.key)

/-- What sharing a size leaves, told from what the children's sizes come to. The children are marked
before the parent's entry is written; both orders leave the same, as no view is a child of its
own. -/
theorem value_share (id : ViewId) (key : LayoutKey) (l : Layout) :
    (t.share id key l).value =
      match t.mergedSize l id key.dimension with
      | .shared entry =>
        (t.leaveTo (t.ownSizeSignal id key) key.dimension.key (t.children id) l).setSize id key
          entry
      | _ => l.setSize id key .unresolved := by
  unfold share mergedSize
  rw [Reported.value_bind, value_mergeSizes]
  cases MergedSize.ofEntries (t.isIndependent id key.dimension.channel)
    ((t.children id).map fun c => l.size c key.dimension.key) <;> rfl

/-- **The entries after sharing a size**: the merged one for the parent, and the mark of it for the
children whose sizes have merged. All other entries are as before. -/
theorem sizeAt?_share (id : Nat) (key : LayoutKey) (l : Layout) (c : Nat) (k : LayoutKey) :
    (t.share id key l).value.sizeAt? c k =
      if c = id ∧ k = key then some (t.mergedSize l id key.dimension).entry
      else if (t.mergedSize l id key.dimension).isShared ∧ c ∈ t.children id ∧
          k = key.dimension.key then some .merged
      else l.sizeAt? c k := by
  rw [value_share]
  cases t.mergedSize l id key.dimension with
  | shared entry =>
    show ((t.leaveTo _ _ _ l).setSize id key entry).sizeAt? c k = _
    rw [Layout.sizeAt?_setSize, sizeAt?_leaveTo]
    simp [MergedSize.isShared, MergedSize.entry]
  | childless =>
    show (l.setSize id key .unresolved).sizeAt? c k = _
    rw [Layout.sizeAt?_setSize]
    simp [MergedSize.isShared, MergedSize.entry]
  | apart =>
    show (l.setSize id key .unresolved).sizeAt? c k = _
    rw [Layout.sizeAt?_setSize]
    simp [MergedSize.isShared, MergedSize.entry]

/-- The renames that sharing a size records: one for each child, if the sizes merge. -/
def sharedAliases (l : Layout) (id : ViewId) (key : LayoutKey) : List (String × String) :=
  if (t.mergedSize l id key.dimension).isShared then
    (t.children id).map fun c => (t.ownSizeSignal c key.dimension.key, t.ownSizeSignal id key)
  else []

/-- Sharing a size records one rename for each child if the sizes merge, and none otherwise. -/
theorem renames_share (id : ViewId) (key : LayoutKey) (l : Layout) :
    (t.share id key l).value.renames = l.renames.renameAll (t.sharedAliases l id key) := by
  unfold sharedAliases
  rw [value_share]
  cases t.mergedSize l id key.dimension with
  | shared entry => exact renames_leaveTo t _ _ _ l
  | childless => rfl
  | apart => rfl

/-! ## Sharing both sizes -/

/-- What the children's sizes come to depends on their own entries for the dimension only. -/
theorem mergedSize_congr {l l' : Layout} {id : ViewId} {d : Dimension}
    (h : ∀ c ∈ t.children id, l.sizeAt? c d.key = l'.sizeAt? c d.key) :
    t.mergedSize l id d = t.mergedSize l' id d := by
  unfold mergedSize
  congr 1
  refine List.map_congr_left fun c hc => ?_
  rw [Layout.size_eq, Layout.size_eq, h c hc]

/-- Sharing the width leaves what the heights come to: it writes to the children under the key of
the width, and to the parent, which is none of its own children. -/
theorem mergedSize_share_width {key : LayoutKey} (hkey : key.dimension = .width) (id : ViewId)
    (l : Layout) :
    t.mergedSize (t.share id key l).value id .height = t.mergedSize l id .height := by
  refine mergedSize_congr t fun c hc => ?_
  have hne : c ≠ id := fun he => Nat.lt_irrefl _ (he ▸ (lt_of_mem_children hc).1)
  rw [sizeAt?_share]
  simp [hne, hkey, Dimension.key]

/-- **The entries after sharing both sizes**: for each dimension as if the other one had not been
shared. -/
theorem sizeAt?_shareBoth {key : Dimension → LayoutKey} (hkey : ∀ d, (key d).dimension = d)
    (id : Nat) (l : Layout) (c : Nat) (k : LayoutKey) :
    (t.shareBoth id key l).value.sizeAt? c k =
      if c = id ∧ k = key k.dimension then some (t.mergedSize l id k.dimension).entry
      else if (t.mergedSize l id k.dimension).isShared ∧ c ∈ t.children id ∧
          k = k.dimension.key then some .merged
      else l.sizeAt? c k := by
  unfold shareBoth
  rw [Reported.value_bind, sizeAt?_share, hkey, mergedSize_share_width t (hkey .width), sizeAt?_share,
    hkey]
  -- Each step wrote under the keys of its own dimension only.
  cases hd : k.dimension with
  | width =>
    have hkey' : k ≠ key .height := by
      rintro rfl
      rw [hkey] at hd
      cases hd
    have hown : k ≠ Dimension.height.key := by
      rintro rfl
      cases hd
    simp [hkey', hown]
  | height =>
    have hkey' : k ≠ key .width := by
      rintro rfl
      rw [hkey] at hd
      cases hd
    have hown : k ≠ Dimension.width.key := by
      rintro rfl
      cases hd
    simp [hkey', hown]

/-- Sharing both sizes records the renames of the widths, then those of the heights. -/
theorem renames_shareBoth {key : Dimension → LayoutKey} (hkey : ∀ d, (key d).dimension = d)
    (id : ViewId) (l : Layout) :
    (t.shareBoth id key l).value.renames =
      l.renames.renameAll (t.sharedAliases l id (key .width) ++
        t.sharedAliases l id (key .height)) := by
  unfold shareBoth
  rw [Reported.value_bind, renames_share, renames_share, Renames.renameAll_append]
  congr 1
  unfold sharedAliases
  rw [hkey, mergedSize_share_width t (hkey .width)]

/-- The key that a composite view keeps a shared size under is one of the dimension. -/
theorem dimension_sharedKey (kind : ViewKind) (d : Dimension) : (sharedKey kind d).dimension = d := by
  cases kind <;> simp [sharedKey]

end ViewTree

end ChartCompiler
