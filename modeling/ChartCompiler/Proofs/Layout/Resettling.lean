import ChartCompiler.Proofs.Layout.Declarations
import ChartCompiler.Proofs.Layout.Echoes
import ChartCompiler.Proofs.Layout.Landing
import ChartCompiler.Proofs.Naming.Replay

/-!
# Settling a settled tree

A tree is meant to be settled once. A second run starts from the sizes that the first has left, and
there the mark of a merged size may stand where nothing stood before.

* `ViewTree.value_signals_withLayout` — **what a tree declares** is told by the names of its sizes
  and by those of its sizes that declare something.
* `ViewTree.ShowsEcho` — a view shows that its children come to a merged size; `ViewTree.Marked` and
  `ViewTree.Unmarked` — the entries that a second run marks as merged, and those that lose their
  mark.
* `ViewTree.settledSize?_again` — **the entries after a second run**: these two kinds, and else
  those after the first.
* `ViewTree.Grown.renames_again_eq_iff` — **when a second run leaves the renames as they are**.
* `ViewTree.Grown.resolveTree_again` — **what settling a grown tree twice comes to**: entries,
  renames, names and declarations.
* `ViewTree.changed_cellsApart` — a tree that a second run changes in all four.

Neither an unresolved entry nor a mark declares anything, so trading one for the other changes no
declaration by itself. Declarations can change with the names: where children come apart that had
shared an unresolved size, a second run does not record their renames again, and an earlier rename
of the same names may then be the last one.
-/

namespace ChartCompiler.ViewTree

variable {t : ViewTree} (config : Config)

/-! ## Declarations -/

/-- Whether an entry declares no signal: there is none, or it is unresolved, or left to a parent. -/
def DeclaresNothing (entry : Option SizeEntry) : Prop :=
  ∀ e ∈ entry, e.value = none ∨ e.value = some .merged

/-- An unresolved size declares nothing. -/
theorem declaresNothing_unresolved : DeclaresNothing (some .unresolved) := by
  rintro e ⟨⟩
  exact .inl rfl

/-- Nor does a size that has been left to a parent declare anything. -/
theorem declaresNothing_merged : DeclaresNothing (some .merged) := by
  rintro e ⟨⟩
  exact .inr rfl

/-- What one size declares depends on its name, and not on the layout otherwise. -/
theorem sizeSignals_withLayout {l l' : Layout} {id : ViewId} {key : LayoutKey}
    (hname : ({ t with layout := l' } : ViewTree).sizeSignal id key =
      ({ t with layout := l } : ViewTree).sizeSignal id key) (size : Option LayoutSize) :
    ({ t with layout := l' } : ViewTree).sizeSignals config id key size =
      ({ t with layout := l } : ViewTree).sizeSignals config id key size := by
  unfold sizeSignals
  rw [hname]
  cases size with
  | none => rfl
  | some size =>
    cases size with
    | pixels amount => rfl
    | merged => rfl
    | step =>
      dsimp only
      rw [findScale?_withLayout (t := t) l', findScale?_withLayout (t := t) l]
      rfl

/-- An entry that declares nothing leaves no declarations, whatever the name of the size is. -/
theorem value_sizeSignals_of_declaresNothing {entry : Option SizeEntry}
    (h : DeclaresNothing entry) (id : ViewId) (key : LayoutKey) :
    (entry.elim [] fun e => (t.sizeSignals config id key e.value).value) = [] := by
  cases entry with
  | none => rfl
  | some e =>
    show (t.sizeSignals config id key e.value).value = []
    rcases h e rfl with hvalue | hvalue <;> rw [hvalue] <;> rfl

/-- **What a tree declares** depends on the names of its sizes and on those of its sizes that declare
something. -/
theorem value_signals_withLayout {l l' : Layout}
    (hnames : ∀ id key, ({ t with layout := l' } : ViewTree).sizeSignal id key =
      ({ t with layout := l } : ViewTree).sizeSignal id key)
    (hentries : ∀ id key, l'.sizeAt? id key = l.sizeAt? id key ∨
      DeclaresNothing (l.sizeAt? id key) ∧ DeclaresNothing (l'.sizeAt? id key)) :
    (({ t with layout := l' } : ViewTree).signals config).value =
      (({ t with layout := l } : ViewTree).signals config).value := by
  have hview : ∀ id, (({ t with layout := l' } : ViewTree).viewSignals config id).value =
      (({ t with layout := l } : ViewTree).viewSignals config id).value := by
    intro id
    rw [value_viewSignals_eq_flatMap, value_viewSignals_eq_flatMap]
    refine List.flatMap_congr fun key _ => ?_
    show ((l'.sizeAt? id key).elim [] _ : List SignalDecl) = (l.sizeAt? id key).elim [] _
    rcases hentries id key with hsame | ⟨hnone, hnone'⟩
    · rw [hsame]
      cases l.sizeAt? id key with
      | none => rfl
      | some e => exact congrArg Reported.value (sizeSignals_withLayout config (hnames id key) _)
    · rw [value_sizeSignals_of_declaresNothing config hnone,
        value_sizeSignals_of_declaresNothing config hnone']
  rw [value_signals, value_signals]
  show (t.root.toList.flatMap _).flatMap _ = (t.root.toList.flatMap _).flatMap _
  rw [List.flatMap_congr fun id _ => subtree_withLayout l' id,
    List.flatMap_congr fun id _ => subtree_withLayout l id]
  exact List.flatMap_congr fun id _ => hview id

/-! ## Entries after a second run -/

/-- **A view shows that its children come to a merged size**: under the key of the size that they
share, unless the view has left this size itself, in which case the mark stands there already. -/
def ShowsEcho (t : ViewTree) (config : Config) (d : Dimension) (p : ViewId) : Prop :=
  t.GathersEchoes config d p ∧ (t.parentKey p d = d.key → t.leavesSize config {} d p = false)

/-- **An unresolved entry is marked** as merged in a second run: it is the one under which a view
keeps the size of its children, and the view shows that they come to a merged one. -/
def Marked (t : ViewTree) (config : Config) (id : ViewId) (key : LayoutKey) : Prop :=
  key = t.parentKey id key.dimension ∧ t.ShowsEcho config key.dimension id

/-- **A mark is taken back** in a second run: the parent's children have come apart, and the view has
no size. -/
def Unmarked (t : ViewTree) (config : Config) (id : ViewId) (key : LayoutKey) : Prop :=
  key = key.dimension.key ∧ ∃ p, t.parent? id = some p ∧ t.SplitsAgain config key.dimension p ∧
    ¬ t.Echoes config key.dimension id

/-- Only composite views gather anything. -/
theorem GathersEchoes.exists_composite {d : Dimension} {p : Nat} (h : t.GathersEchoes config d p)
    (hl : t.Linked) : ∃ v, t.view? p = some v ∧ v.kind.unit? = none := by
  obtain ⟨-, c, rest, hchildren, -⟩ := h
  obtain ⟨v, hv, hunit⟩ :=
    hl.exists_composite_of_mem_children (hchildren ▸ List.mem_cons_self : c ∈ t.children p)
  exact ⟨v, hv, ViewKind.unit?_eq_none_iff.mpr hunit⟩

/-- The key under which a view keeps its children's size along a dimension is one of this
dimension. -/
theorem dimension_parentKey (t : ViewTree) (id : ViewId) (d : Dimension) :
    (t.parentKey id d).dimension = d := by
  unfold parentKey
  cases t.view? id with
  | none => exact Dimension.dimension_key d
  | some v => exact dimension_sharedKey v.kind d

/-- A view that shows it has the entry marked under which it keeps its children's size. -/
theorem ShowsEcho.marked {d : Dimension} {p : ViewId} (h : t.ShowsEcho config d p) :
    t.Marked config p (t.parentKey p d) := by
  unfold Marked
  rw [dimension_parentKey]
  exact ⟨rfl, h⟩

/-- The entries after settling a tree from its first view. -/
theorem settledSize?_eq (before : Layout) (id : Nat) (key : LayoutKey) :
    t.settledSize? config before 0 id key =
      if key = key.dimension.key ∧ t.leavesSize config before key.dimension id = true then
        some .merged
      else t.keptSize? config before id key := by
  have hne : t.leavesSize config before key.dimension id = true → id ≠ 0 := by
    rintro hleaves rfl
    obtain ⟨p, hp, -⟩ := (leavesSize_eq_true_iff t config before).mp hleaves
    exact Nat.not_lt_zero p (lt_of_parent? hp)
  unfold settledSize?
  exact if_congr ⟨fun h => h.2, fun h => ⟨hne h.2, h⟩⟩ rfl rfl

section again

variable (hl : t.Linked) {after : Layout}
  (hafter : ∀ id key, after.sizeAt? id key = t.settledSize? config {} 0 id key)

/-- Where children come apart in a second run, each of them had left an unresolved size. -/
theorem SplitsAgain.ownSize_eq {d : Dimension} {p c : ViewId} (h : t.SplitsAgain config d p)
    (hc : c ∈ t.children p) : t.ownSize config {} d c = .unresolved := by
  obtain ⟨hlead, halike⟩ := MergedSize.ofEntries_eq_shared_iff.mp h.1
  exact eq_unresolved_of_areAlike (g := t.ownSize config {} d) (fun c _ => follows_self config)
    (halike h.2.1) (mem_of_leading? hlead) c hc

/-- Where children come apart in a second run, each of them had left its size in the first. -/
theorem SplitsAgain.leavesSize_eq {d : Dimension} {p c : ViewId} (h : t.SplitsAgain config d p)
    (hp : t.parent? c = some p) : t.leavesSize config {} d c = true :=
  (leavesSize_eq_true_iff t config {}).mpr ⟨p, hp, by rw [h.1]; rfl⟩

/-- A mark is only taken back where one was. -/
theorem Unmarked.leavesSize_eq {id : ViewId} {key : LayoutKey} (h : t.Unmarked config id key) :
    t.leavesSize config {} key.dimension id = true := by
  obtain ⟨-, p, hp, hsplits, -⟩ := h
  exact hsplits.leavesSize_eq config hp

include hafter

/-- **Which sizes merge in a second run**: those that merged in the first, unless they come apart. -/
theorem isShared_again {d : Dimension} {p : ViewId} :
    (t.sharedSize config after d p).isShared = true ↔
      (t.sharedSize config {} d p).isShared = true ∧ ¬ t.SplitsAgain config d p := by
  rcases sharedSize_again config hafter d p with
    ⟨hgathers, hshared⟩ | ⟨hsplits, hshared⟩ | ⟨-, hsplits, hshared⟩
  · rw [hshared, hgathers.1]
    exact iff_of_true rfl ⟨rfl, fun h => h.not_gathersEchoes config hgathers⟩
  · rw [hshared]
    exact iff_of_false nofun fun h => h.2 hsplits
  · rw [hshared]
    exact ⟨fun h => ⟨h, hsplits⟩, And.left⟩

/-- Which views leave their sizes in a second run: those that did in the first, unless their
siblings and they come apart. -/
theorem leavesSize_again {d : Dimension} {id : ViewId} :
    t.leavesSize config after d id = true ↔
      t.leavesSize config {} d id = true ∧
        ∀ p, t.parent? id = some p → ¬ t.SplitsAgain config d p := by
  rw [leavesSize_eq_true_iff, leavesSize_eq_true_iff]
  constructor
  · rintro ⟨p, hp, hshared⟩
    obtain ⟨hshared, hsplits⟩ := (isShared_again config hafter).mp hshared
    refine ⟨⟨p, hp, hshared⟩, fun q hq => ?_⟩
    rw [hp] at hq
    exact Option.some.inj hq ▸ hsplits
  · rintro ⟨⟨p, hp, hshared⟩, hsplits⟩
    exact ⟨p, hp, (isShared_again config hafter).mpr ⟨hshared, hsplits p hp⟩⟩

/-- What a composite view keeps of its children's sizes in a second run: a mark where they come to a
merged size, and the same as before otherwise, also where they come apart. -/
theorem entry_sharedSize_again (d : Dimension) (p : ViewId) :
    (t.GathersEchoes config d p ∧ (t.sharedSize config {} d p).entry = .unresolved ∧
        (t.sharedSize config after d p).entry = .merged) ∨
      (¬ t.GathersEchoes config d p ∧
        (t.sharedSize config after d p).entry = (t.sharedSize config {} d p).entry) := by
  rcases sharedSize_again config hafter d p with
    ⟨hgathers, hshared⟩ | ⟨hsplits, hshared⟩ | ⟨hgathers, -, hshared⟩
  · exact .inl ⟨hgathers, by rw [hgathers.1]; rfl, by rw [hshared]; rfl⟩
  · exact .inr ⟨hsplits.not_gathersEchoes config, by rw [hshared, hsplits.1]; rfl⟩
  · exact .inr ⟨hgathers, by rw [hshared]⟩

include hl

/-- **What a view keeps by itself in a second run**, where it has not left the size in the first. -/
theorem keptSize?_again {id : Nat} {key : LayoutKey}
    (hkeeps : ¬ (key = key.dimension.key ∧ t.leavesSize config {} key.dimension id = true)) :
    (t.Marked config id key ∧ t.keptSize? config {} id key = some .unresolved ∧
        t.keptSize? config after id key = some .merged) ∨
      (¬ t.Marked config id key ∧
        t.keptSize? config after id key = t.keptSize? config {} id key) := by
  by_cases hcomposite : ∃ v, t.view? id = some v ∧ v.kind.unit? = none ∧
      key = t.parentKey id key.dimension
  · obtain ⟨v, hv, hunit, hparent⟩ := hcomposite
    have hkept := keptSize?_of_composite config {} hv hunit key.dimension
    have hkept' := keptSize?_of_composite config after hv hunit key.dimension
    rw [← hparent] at hkept hkept'
    rw [hkept, hkept']
    rcases entry_sharedSize_again config hafter key.dimension id with
      ⟨hgathers, hentry, hentry'⟩ | ⟨hgathers, hentry⟩
    · refine .inl ⟨⟨hparent, hgathers, fun hown => ?_⟩, by rw [hentry], by rw [hentry']⟩
      exact Bool.eq_false_iff.mpr fun hleaves => hkeeps ⟨hparent.trans hown, hleaves⟩
    · exact .inr ⟨fun h => hgathers h.2.1, by rw [hentry]⟩
  · have hmarked : ¬ t.Marked config id key := fun ⟨hparent, hgathers, _⟩ => by
      obtain ⟨v, hv, hunit⟩ := hgathers.exists_composite config hl
      exact hcomposite ⟨v, hv, hunit, hparent⟩
    refine .inr ⟨hmarked, keptSize?_again_of_ne config {} ?_ fun v hv hunit hparent =>
      hcomposite ⟨v, hv, hunit, hparent⟩⟩
    rw [hafter, settledSize?_eq, if_neg hkeeps]

omit hl in
/-- A view that had left its size keeps what it comes to in a second run. -/
theorem keptSize?_again_of_leaves {d : Dimension} {id : Nat}
    (hleaves : t.leavesSize config {} d id = true) :
    t.keptSize? config after id d.key = some (t.ownSize config after d id) := by
  have hread : after.sizeAt? id d.key = some .merged := by
    rw [hafter, settledSize?_eq, Dimension.dimension_key, if_pos ⟨rfl, hleaves⟩]
  obtain ⟨e, he⟩ := Option.isSome_iff_exists.mp
    (isSome_keptSize? (t := t) config after (by rw [hread]; rfl))
  rw [← getD_keptSize?, he]
  rfl

/-- The mark of a size that a view had left stays, unless it is taken back. It stays also where the
view comes to a mark by itself and no parent takes it any more. -/
theorem settledSize?_again_of_leaves {id : Nat} {key : LayoutKey} (hown : key = key.dimension.key)
    (hleaves : t.leavesSize config {} key.dimension id = true) :
    (t.Unmarked config id key ∧ t.settledSize? config after 0 id key = some .unresolved) ∨
      (¬ t.Unmarked config id key ∧ t.settledSize? config after 0 id key = some .merged) := by
  rw [settledSize?_eq]
  by_cases hagain : t.leavesSize config after key.dimension id = true
  · rw [if_pos ⟨hown, hagain⟩]
    refine .inr ⟨fun ⟨_, p, hp, hsplits, _⟩ => ?_, rfl⟩
    exact ((leavesSize_again config hafter).mp hagain).2 p hp hsplits
  · rw [if_neg fun h => hagain h.2]
    have hsplits : ∃ p, t.parent? id = some p ∧ t.SplitsAgain config key.dimension p := by
      by_contra hnone
      exact hagain ((leavesSize_again config hafter).mpr
        ⟨hleaves, fun p hp hsplits => hnone ⟨p, hp, hsplits⟩⟩)
    obtain ⟨p, hp, hsplits⟩ := hsplits
    have hkept := keptSize?_again_of_leaves config hafter hleaves
    rw [← hown] at hkept
    -- The size that the view had left was unresolved, and so it comes to this again or to a mark.
    obtain ⟨hfollows, hechoes⟩ := ownSize_again config hafter (d := key.dimension) id
    rw [hsplits.ownSize_eq config (hl.mem_children_iff_parent?.mpr hp)] at hfollows
    rw [hkept]
    rcases hfollows.eq_or_eq_merged with hsize | hsize
    · refine .inl ⟨⟨hown, p, hp, hsplits, fun hE => ?_⟩, by rw [hsize]⟩
      rw [hechoes.mp hE] at hsize
      cases hsize
    · exact .inr ⟨fun ⟨_, _, _, _, hE⟩ => hE (hechoes.mpr hsize), by rw [hsize]⟩

/-- **The entries after a second run** are those after the first, but for unresolved ones that are
marked as merged and marks that are taken back. -/
theorem settledSize?_again (id : Nat) (key : LayoutKey) :
    (t.Marked config id key ∧ t.settledSize? config {} 0 id key = some .unresolved ∧
        t.settledSize? config after 0 id key = some .merged) ∨
      (t.Unmarked config id key ∧ t.settledSize? config {} 0 id key = some .merged ∧
        t.settledSize? config after 0 id key = some .unresolved) ∨
      (¬ t.Marked config id key ∧ ¬ t.Unmarked config id key ∧
        t.settledSize? config after 0 id key = t.settledSize? config {} 0 id key) := by
  by_cases hleaves : key = key.dimension.key ∧ t.leavesSize config {} key.dimension id = true
  · have hmarked : ¬ t.Marked config id key := by
      rintro ⟨hparent, -, hshows⟩
      rw [hshows (hparent.symm.trans hleaves.1)] at hleaves
      exact Bool.false_ne_true hleaves.2
    have hfirst : t.settledSize? config {} 0 id key = some .merged := by
      rw [settledSize?_eq, if_pos hleaves]
    rcases settledSize?_again_of_leaves config hl hafter hleaves.1 hleaves.2 with
      ⟨hunmarked, hsecond⟩ | ⟨hunmarked, hsecond⟩
    · exact .inr (.inl ⟨hunmarked, hfirst, hsecond⟩)
    · exact .inr (.inr ⟨hmarked, hunmarked, hsecond.trans hfirst.symm⟩)
  · have hunmarked : ¬ t.Unmarked config id key := fun h =>
      hleaves ⟨h.1, h.leavesSize_eq config⟩
    have hagain : ¬ (key = key.dimension.key ∧ t.leavesSize config after key.dimension id = true) :=
      fun h => hleaves ⟨h.1, ((leavesSize_again config hafter).mp h.2).1⟩
    rw [settledSize?_eq, settledSize?_eq, if_neg hleaves, if_neg hagain]
    rcases keptSize?_again config hl hafter hleaves with ⟨hmarked, hkept, hkept'⟩ | ⟨hmarked, hkept⟩
    · exact .inl ⟨hmarked, hkept, hkept'⟩
    · exact .inr (.inr ⟨hmarked, hunmarked, hkept⟩)

omit hafter in
/-- Where children come apart, a mark is taken back, that of a child which is not taken for
merged. -/
theorem SplitsAgain.exists_unmarked {d : Dimension} {p : Nat} (h : t.SplitsAgain config d p) :
    ∃ c, t.Unmarked config c d.key := by
  obtain ⟨-, -, -, c, hc, hechoes⟩ := id h
  refine ⟨c, by rw [Dimension.dimension_key], p, hl.mem_children_iff_parent?.mp hc, ?_⟩
  rw [Dimension.dimension_key]
  exact ⟨h, hechoes⟩

/-- **No entry changes in a second run** exactly where no children come apart and no view shows that
they come to a merged size. -/
theorem settledSize?_again_eq_iff :
    (∀ id key, t.settledSize? config after 0 id key = t.settledSize? config {} 0 id key) ↔
      ∀ d p, ¬ t.SplitsAgain config d p ∧ ¬ t.ShowsEcho config d p := by
  constructor
  · intro hsame d p
    refine ⟨fun hsplits => ?_, fun hshows => ?_⟩
    · obtain ⟨c, hunmarked⟩ := hsplits.exists_unmarked config hl
      rcases settledSize?_again config hl hafter c d.key with
        ⟨-, hfirst, hsecond⟩ | ⟨-, hfirst, hsecond⟩ | ⟨-, hnot, -⟩
      · rw [hsame, hfirst] at hsecond
        cases hsecond
      · rw [hsame, hfirst] at hsecond
        cases hsecond
      · exact hnot hunmarked
    · rcases settledSize?_again config hl hafter p (t.parentKey p d) with
        ⟨-, hfirst, hsecond⟩ | ⟨-, hfirst, hsecond⟩ | ⟨hnot, -, -⟩
      · rw [hsame, hfirst] at hsecond
        cases hsecond
      · rw [hsame, hfirst] at hsecond
        cases hsecond
      · exact hnot (hshows.marked config)
  · intro hstable id key
    rcases settledSize?_again config hl hafter id key with
      ⟨⟨-, hshows⟩, -, -⟩ | ⟨⟨-, p, -, hsplits, -⟩, -, -⟩ | ⟨-, -, hsame⟩
    · exact absurd hshows (hstable _ _).2
    · exact absurd hsplits (hstable _ _).1
    · exact hsame

end again

/-! ## Renames after a second run -/

section renames

variable (h : t.Grown) {root : ViewId} (hroot : t.root = some root)

include h

/-- The renames of a grown tree are those of a layout without sizes, in their order. -/
theorem Grown.renames_resolve_eq (root : ViewId) :
    (t.resolve config root t.layout).value.renames =
      (∅ : Renames).renameAll (t.aliases config {} root) := by
  rw [renames_resolve config h.linked, h.renames_layout, aliases_congr config fun p _ d => ?_]
  rw [sharedSize_congr config fun x _ k => h.sizeAt?_eq_empty x k]

include hroot

/-- The layout that a second run starts from. -/
theorem Grown.sizeAt?_after (id : ViewId) (key : LayoutKey) :
    (t.resolve config root t.layout).value.sizeAt? id key = t.settledSize? config {} 0 id key := by
  rw [h.sizeAt?_resolve_root config hroot, h.linked.root_eq_zero hroot]

omit hroot in
/-- **A second run records no other renames** exactly where the last rename of every name that it
records is the last one that the first run has recorded. All other renames are replaced in either
run. -/
theorem Grown.renames_again_eq_iff (root : ViewId) :
    (t.resolve config root (t.resolve config root t.layout).value).value.renames =
        (t.resolve config root t.layout).value.renames ↔
      ∀ name new,
        t.lastAlias? config (t.resolve config root t.layout).value root name = some new →
          t.lastAlias? config {} root name = some new := by
  have hempty : (∅ : Renames).names.Nodup := List.nodup_nil
  rw [renames_resolve config h.linked root, h.renames_resolve_eq config,
    Renames.renameAll_eq_self_iff (Renames.nodup_names_renameAll hempty _)]
  refine forall₂_congr fun name new => ?_
  rw [Renames.target?_renameAll]
  show (_ → (t.lastAlias? config {} root name).or none = some new) ↔ _
  rw [Option.or_none]
  rfl

/-- The last renames stay the last ones if no children come apart, since then the same renames are
recorded again, or if all sizes have names of their own, since then no name is renamed in two
ways. -/
theorem Grown.lastAlias?_again
    (hstable : (∀ d p, ¬ t.SplitsAgain config d p) ∨ t.DistinctSizeSignals) {name new : String}
    (hlast : t.lastAlias? config (t.resolve config root t.layout).value root name = some new) :
    t.lastAlias? config {} root name = some new := by
  have hafter := h.sizeAt?_after config hroot
  rcases hstable with hsplits | hnames
  · have hsame : t.aliases config (t.resolve config root t.layout).value root =
        t.aliases config {} root := by
      refine aliases_congr config fun p _ d => Bool.eq_iff_iff.mpr ?_
      rw [isShared_again config hafter]
      exact ⟨And.left, fun hshared => ⟨hshared, hsplits d p⟩⟩
    unfold lastAlias?
    rw [← hsame]
    exact hlast
  · obtain ⟨p, hp, c, hc, d, hshared, hname⟩ := isAlias_of_lastAlias? config hlast
    have htarget := (h.target?_resolve config hnames).mpr
      ⟨p, hp, c, hc, d, ((isShared_again config hafter).mp hshared).1, hname⟩
    rw [h.renames_resolve_eq config, Renames.target?_renameAll] at htarget
    exact (Option.or_none (o := t.lastAlias? config {} root name)).symm.trans htarget

end renames

/-! ## A tree settled twice -/

namespace Grown

variable (h : t.Grown) {root : ViewId} (hroot : t.root = some root)

include h hroot

/-- **Settling a settled tree.** A second run changes entries in two ways: an unresolved one of a
view whose children come to a merged size is marked as merged, and the mark of a view whose parent's
children come apart is taken back. Without such views the entries stay the same. The table of
renames does so exactly where the last rename of every name that the second run records is the last
one of the first run, as where no children come apart, or where all sizes have names of their own.
With the table stay all names that references read, and all declarations. -/
theorem resolveTree_again :
    ∃ r r', t.resolveTree config = .ok r ∧ r.value.resolveTree config = .ok r' ∧
      (∀ id key,
        (t.Marked config id key ∧ r.value.layout.sizeAt? id key = some .unresolved ∧
            r'.value.layout.sizeAt? id key = some .merged) ∨
          (t.Unmarked config id key ∧ r.value.layout.sizeAt? id key = some .merged ∧
            r'.value.layout.sizeAt? id key = some .unresolved) ∨
          (¬ t.Marked config id key ∧ ¬ t.Unmarked config id key ∧
            r'.value.layout.sizeAt? id key = r.value.layout.sizeAt? id key)) ∧
      ((∀ id key, r'.value.layout.sizeAt? id key = r.value.layout.sizeAt? id key) ↔
        ∀ d p, ¬ t.SplitsAgain config d p ∧ ¬ t.ShowsEcho config d p) ∧
      (r'.value.layout.renames = r.value.layout.renames ↔
        ∀ name new, t.lastAlias? config r.value.layout root name = some new →
          t.lastAlias? config {} root name = some new) ∧
      ((∀ d p, ¬ t.SplitsAgain config d p) ∨ t.DistinctSizeSignals →
        r'.value.layout.renames = r.value.layout.renames) ∧
      (r'.value.layout.renames = r.value.layout.renames →
        (∀ id key, r'.value.sizeSignal id key = r.value.sizeSignal id key) ∧
          (r'.value.signals config).value = (r.value.signals config).value) := by
  have hafter := h.sizeAt?_after config hroot
  -- The second run begins with the layout that the first one has left.
  have hagain : ∀ id key,
      (t.resolve config root (t.resolve config root t.layout).value).value.sizeAt? id key =
        t.settledSize? config (t.resolve config root t.layout).value 0 id key := by
    intro id key
    rw [h.linked.sizeAt?_resolve_root config hroot, h.linked.root_eq_zero hroot]
  have hentries := fun id key => settledSize?_again config h.linked hafter id key
  simp only [← hafter, ← hagain] at hentries
  have hrenames := h.renames_again_eq_iff config root
  refine ⟨_, _, resolveTree_of_root hroot config, resolveTree_withLayout config _ hroot, hentries,
    ?_, hrenames, fun hstable => hrenames.mpr fun name new hlast =>
      h.lastAlias?_again config hroot hstable hlast, fun hsame => ?_⟩
  · have hiff := settledSize?_again_eq_iff config h.linked hafter
    simp only [← hafter, ← hagain] at hiff
    exact hiff
  · have hnames : ∀ id key,
        ({ t with layout := (t.resolve config root (t.resolve config root t.layout).value).value } :
          ViewTree).sizeSignal id key =
        ({ t with layout := (t.resolve config root t.layout).value } : ViewTree).sizeSignal id key :=
      fun id key => congrArg (Renames.resolve · (t.ownSizeSignal id key)) hsame
    -- An unresolved entry and a mark declare nothing, so what is declared stays with the names.
    refine ⟨hnames, value_signals_withLayout config hnames fun id key => ?_⟩
    rcases hentries id key with ⟨-, hfirst, hsecond⟩ | ⟨-, hfirst, hsecond⟩ | ⟨-, -, hsame⟩
    · rw [hfirst, hsecond]
      exact .inr ⟨declaresNothing_unresolved, declaresNothing_merged⟩
    · rw [hfirst, hsecond]
      exact .inr ⟨declaresNothing_merged, declaresNothing_unresolved⟩
    · exact .inl hsame

end Grown

/-! ## Cells that come apart -/

/-- A container in a container, with one cell. It is the smallest tree that a second run changes. -/
def nestedCells : ViewTree :=
  grow { name := "outer", kind := .concat }
    [(0, { name := "inner", kind := .concat }), (1, { name := "cell", kind := .unit {} })]

/-- A second run marks the size of the outer container's cells, and declares the same signals. -/
theorem again_nestedCells :
    ∃ r r', nestedCells.resolveTree {} = .ok r ∧ r.value.resolveTree {} = .ok r' ∧
      r.value.layout.sizeAt? 0 .childWidth = some .unresolved ∧
      r'.value.layout.sizeAt? 0 .childWidth = some .merged ∧
      r'.value.sizeSignal 2 .width = r.value.sizeSignal 2 .width ∧
      (r'.value.signals {}).value = (r.value.signals {}).value := by
  obtain ⟨r, r', hr, hr', hentries, -, -, hrenames, hsame⟩ :=
    Grown.resolveTree_again (t := nestedCells) {} (grown_grow _ _)
      (show nestedCells.root = some 0 from rfl)
  obtain ⟨hnames, hsignals⟩ := hsame (hrenames (.inr (by decide +kernel)))
  rw [resolveTree_of_root (show nestedCells.root = some 0 from rfl)] at hr
  obtain rfl := Except.ok.inj hr
  have hfirst : (nestedCells.onLayout (nestedCells.resolve {} 0)).value.layout.sizeAt? 0 .childWidth =
      some .unresolved := by with_unfolding_all rfl
  have hshows : nestedCells.ShowsEcho {} .width 0 := by
    refine ⟨⟨by with_unfolding_all rfl, 1, [], rfl, ?_, fun _ => nofun⟩, nofun⟩
    exact .container rfl rfl nofun (by decide +kernel)
  refine ⟨_, r', rfl, hr', hfirst, ?_, hnames 2 .width, hsignals⟩
  rcases hentries 0 .childWidth with ⟨-, -, hsecond⟩ | ⟨-, hmerged, -⟩ | ⟨hnot, -, -⟩
  · exact hsecond
  · rw [hfirst] at hmerged
    cases hmerged
  · exact absurd (hshows.marked {}) hnot

/-- Three containers with cells of the same name: one with a unit view, one whose cells have sizes of
their own, and one whose cells are a container and a layer without views. -/
def cellsApart : ViewTree :=
  grow { name := "outer", kind := .concat }
    [(0, { name := "left", kind := .concat }), (1, { name := "cell", kind := .unit {} }),
      (0, { name := "apart", kind := .concat }),
      (3, { name := "cell", kind := .unit { width := some (.pixels 30) } }),
      (3, { name := "mark", kind := .unit { width := some (.pixels 40) } }),
      (0, { name := "right", kind := .concat }), (6, { name := "inner", kind := .concat }),
      (6, { name := "cell", kind := .layer })]

set_option maxRecDepth 4000 in
/-- **A second run can change entries, renames, names and declarations**: the cells of the third
container come apart, and so their name goes by that of the first one's cells. The signal that was
declared for them is then declared no more. -/
theorem changed_cellsApart :
    cellsApart.Grown ∧
      ∃ r r', cellsApart.resolveTree {} = .ok r ∧ r.value.resolveTree {} = .ok r' ∧
        r.value.layout.sizeAt? 0 .childWidth = some .unresolved ∧
        r'.value.layout.sizeAt? 0 .childWidth = some .merged ∧
        r.value.layout.renames.target? "cell_width" = some "right_child_width" ∧
        r'.value.layout.renames.target? "cell_width" = some "left_child_width" ∧
        r.value.sizeSignal 2 .width = "right_child_width" ∧
        r'.value.sizeSignal 2 .width = "left_child_width" ∧
        "right_child_width" ∈ r.value.declared {} ∧ "right_child_width" ∉ r'.value.declared {} :=
  ⟨grown_grow _ _, _, _, rfl, rfl, by with_unfolding_all rfl, by with_unfolding_all rfl,
    by decide +kernel, by decide +kernel, by decide +kernel, by decide +kernel, by decide +kernel,
    by decide +kernel⟩

end ChartCompiler.ViewTree
