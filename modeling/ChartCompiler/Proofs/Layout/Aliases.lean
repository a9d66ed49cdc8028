import ChartCompiler.Proofs.Layout.Settled

/-!
# The renames that settling records

A merge leaves two traces in a layout: the marks of the children, which are told by
`ViewTree.settledSize?`, and the renames of their signals, which are told here. A reference to a
child's size is a name that is looked up in the renames, so the order in which they are recorded
matters wherever one name is renamed twice.

* `ViewTree.IsAlias` — **the renames of a settled subtree**: the size signal of a child goes by the
  name of its parent's, for every merge below the top.
* `ViewTree.aliases` — the same renames in the order in which they are recorded: those of the
  children in turn, then those of the view's own merges.
* `ViewTree.mem_aliases_iff` — the list holds these renames and no others.
* `ViewTree.renames_resolve` — **settling records these renames in this order, and no others**, on
  top of those that were there before.

The proof goes down the tree as that of the entries does, and uses it: which renames a subtree
records depends only on which sizes merge in it, and the merges below one child do not depend on
what has been settled below another.
-/

namespace ChartCompiler.ViewTree

variable (t : ViewTree) (config : Config)

/-- **The renames of a settled subtree**, each an old name with its new one: for every view `p` of
the subtree and every dimension along which the sizes of its children merge, the signal of each
child is renamed to that of `p`, under the key of `p` that holds the shared size. -/
def IsAlias (before : Layout) (top : ViewId) (a : String × String) : Prop :=
  ∃ p ∈ t.subtree top, ∃ c ∈ t.children p, ∃ d,
    (t.sharedSize config before d p).isShared = true ∧
      a = (t.ownSizeSignal c d.key, t.ownSizeSignal p (t.parentKey p d))

/-- The renames that merging the children's sizes along a dimension records, in the order of the
children. -/
def mergeAliases (before : Layout) (d : Dimension) (id : ViewId) : List (String × String) :=
  if (t.sharedSize config before d id).isShared then
    (t.children id).map fun c => (t.ownSizeSignal c d.key, t.ownSizeSignal id (t.parentKey id d))
  else []

/-- **The renames of a settled subtree** in the order in which they are recorded: everything below
the first child, then below the next, and last the view's own children, their widths before their
heights. -/
def aliases (before : Layout) (id : ViewId) : List (String × String) :=
  ((t.children id).attach.flatMap fun c => aliases before c.1) ++
    (t.mergeAliases config before .width id ++ t.mergeAliases config before .height id)
termination_by t.size - id
decreasing_by exact size_sub_lt_of_mem_children c.2

/-- **What a name is renamed to last** in a settled subtree. A later rename of the same name
replaces an earlier one, so this is what the name goes by afterwards. -/
def lastAlias? (before : Layout) (top : ViewId) (name : String) : Option String :=
  (t.aliases config before top).reverse.lookup name

variable {t}

/-! ## The renames of a subtree -/

/-- The list by one step of its recursion, as later proofs use it. -/
theorem aliases_eq (before : Layout) (id : ViewId) :
    t.aliases config before id = (t.children id).flatMap (t.aliases config before) ++
      (t.mergeAliases config before .width id ++ t.mergeAliases config before .height id) := by
  rw [aliases]
  congr 1
  rw [List.flatMap_subtype (fun _ _ => rfl), List.unattach_attach]

/-- A view without children has no renames. -/
theorem aliases_of_childless {before : Layout} {id : ViewId} (h : t.children id = []) :
    t.aliases config before id = [] := by
  have hmerge : ∀ d, t.mergeAliases config before d id = [] := fun d => by
    rw [mergeAliases, h]
    exact ite_self _
  rw [aliases_eq, h, hmerge, hmerge]
  rfl

/-- Which renames there are depends on which sizes merge, and on nothing else. -/
theorem aliases_congr {before before' : Layout} {id : ViewId}
    (h : ∀ p ∈ t.subtree id, ∀ d, (t.sharedSize config before d p).isShared =
      (t.sharedSize config before' d p).isShared) :
    t.aliases config before id = t.aliases config before' id := by
  induction id using t.downInduction with
  | step id ih =>
    have hmerge : ∀ d, t.mergeAliases config before d id = t.mergeAliases config before' d id :=
      fun d => by rw [mergeAliases, mergeAliases, h id (mem_subtree_self id)]
    rw [aliases_eq, aliases_eq, hmerge, hmerge]
    congr 1
    exact List.flatMap_congr fun c hc =>
      ih c hc fun p hp => h p (mem_subtree_of_child hc hp)

/-- The renames of a subtree, told from those of the subtrees below its top. -/
theorem isAlias_iff {before : Layout} {id : ViewId} {a : String × String} :
    t.IsAlias config before id a ↔
      (∃ child ∈ t.children id, t.IsAlias config before child a) ∨
        ∃ c ∈ t.children id, ∃ d, (t.sharedSize config before d id).isShared = true ∧
          a = (t.ownSizeSignal c d.key, t.ownSizeSignal id (t.parentKey id d)) := by
  constructor
  · rintro ⟨p, hp, hmerge⟩
    rcases mem_subtree_iff.mp hp with rfl | ⟨child, hchild, hp⟩
    · exact .inr hmerge
    · exact .inl ⟨child, hchild, p, hp, hmerge⟩
  · rintro (⟨child, hchild, p, hp, hmerge⟩ | hmerge)
    · exact ⟨p, mem_subtree_of_child hchild hp, hmerge⟩
    · exact ⟨id, mem_subtree_self id, hmerge⟩

/-- The renames of one merge: there are some only if the sizes are shared. -/
theorem mem_mergeAliases_iff {before : Layout} {d : Dimension} {id : ViewId} {a : String × String} :
    a ∈ t.mergeAliases config before d id ↔
      ∃ c ∈ t.children id, (t.sharedSize config before d id).isShared = true ∧
        a = (t.ownSizeSignal c d.key, t.ownSizeSignal id (t.parentKey id d)) := by
  unfold mergeAliases
  cases (t.sharedSize config before d id).isShared <;> simp [eq_comm]

/-- **The list holds the renames** of the subtree and no others. The induction goes down the tree,
along the recursion of the list. -/
theorem mem_aliases_iff {before : Layout} {id : ViewId} {a : String × String} :
    a ∈ t.aliases config before id ↔ t.IsAlias config before id a := by
  induction id using t.downInduction with
  | step id ih =>
    rw [aliases_eq, isAlias_iff, List.mem_append, List.mem_flatMap, List.mem_append,
      mem_mergeAliases_iff, mem_mergeAliases_iff]
    refine or_congr (exists_congr fun c => and_congr_right fun hc => ih c hc) ?_
    constructor
    · rintro (⟨c, hc, hmerge⟩ | ⟨c, hc, hmerge⟩)
      · exact ⟨c, hc, .width, hmerge⟩
      · exact ⟨c, hc, .height, hmerge⟩
    · rintro ⟨c, hc, d, hmerge⟩
      cases d with
      | width => exact .inl ⟨c, hc, hmerge⟩
      | height => exact .inr ⟨c, hc, hmerge⟩

/-- The renames of a subtree depend on what was there before at and below its top. -/
theorem isAlias_congr {before before' : Layout} {id : ViewId} {a : String × String}
    (h : ∀ x ∈ t.subtree id, ∀ k, before.sizeAt? x k = before'.sizeAt? x k) :
    t.IsAlias config before id a ↔ t.IsAlias config before' id a := by
  rw [← mem_aliases_iff, ← mem_aliases_iff, aliases_congr config fun p hp d => ?_]
  rw [sharedSize_congr config fun x hx => h x (mem_subtree_trans hp hx)]

/-- The last rename of a name is one of its renames. -/
theorem isAlias_of_lastAlias? {before : Layout} {id : ViewId} {name new : String}
    (h : t.lastAlias? config before id name = some new) : t.IsAlias config before id (name, new) := by
  obtain ⟨later, earlier, haliases, -⟩ := List.lookup_eq_some_iff.mp h
  refine (mem_aliases_iff config).mp (List.mem_reverse.mp ?_)
  rw [haliases]
  exact List.mem_append_right _ List.mem_cons_self

/-! ## Recording them -/

/-- **Whether settling `id` records its renames** in order and no others, from every layout. As with
the entries, the layout is inside the statement because a child is settled from what its elder
siblings have left. -/
def Records (t : ViewTree) (config : Config) (id : ViewId) : Prop :=
  ∀ l : Layout, (t.resolve config id l).value.renames = l.renames.renameAll (t.aliases config l id)

/-- **Views whose subtrees have nothing in common record their renames one after the other.** -/
theorem renames_foldlM_resolve (hl : t.Linked) {ids : List ViewId}
    (hids : ids.Pairwise fun a b => ∀ x ∈ t.subtree a, x ∉ t.subtree b)
    (hrecords : ∀ c ∈ ids, t.Records config c) (l : Layout) :
    (ids.foldlM (fun l c => t.resolve config c l) l).value.renames =
      l.renames.renameAll (ids.flatMap (t.aliases config l)) := by
  induction ids generalizing l with
  | nil => rfl
  | cons first rest ih =>
    rw [List.pairwise_cons] at hids
    -- What the first view has settled is not below the others, so their renames stay the same.
    have hsame : ∀ c ∈ rest, t.aliases config (t.resolve config first l).value c =
        t.aliases config l c := fun c hc => aliases_congr config fun p hp d => by
      rw [sharedSize_congr config fun x hx k => ?_]
      rw [sizeAt?_resolve config hl, if_neg fun hx' =>
        hids.1 c hc x hx' (mem_subtree_trans hp hx)]
    rw [List.foldlM_cons, Reported.value_bind, ih hids.2 fun c hc =>
      hrecords c (List.mem_cons_of_mem _ hc), hrecords first List.mem_cons_self,
      ← Renames.renameAll_append, List.flatMap_cons, List.flatMap_congr hsame]

/-- The renames that sharing both sizes of a view records are those of its merges, once its children
have settled. -/
theorem sharedAliases_eq {before l : Layout} {id : ViewId} {v : View} (hv : t.view? id = some v)
    {d : Dimension} (hmerged : t.mergedSize l id d = t.sharedSize config before d id) :
    t.sharedAliases l id (sharedKey v.kind d) = t.mergeAliases config before d id := by
  have hkey : t.parentKey id d = sharedKey v.kind d := by rw [parentKey, hv]; rfl
  rw [sharedAliases, mergeAliases, dimension_sharedKey, hmerged, hkey]

/-- A composite view records its renames after those of its children. -/
theorem records_of_children (hl : t.Linked) {id : ViewId} {v : View} (hv : t.view? id = some v)
    (hunit : v.kind.isUnit = false) (hrecords : ∀ c ∈ t.children id, t.Records config c) :
    t.Records config id := by
  intro l
  have hbelow := renames_foldlM_resolve config hl (hl.pairwise_disjoint_children id) hrecords l
  change (t.resolveChildren config id l).value.renames = _ at hbelow
  have hmerged : ∀ d, t.mergedSize (t.resolveChildren config id l).value id d =
      t.sharedSize config l d id :=
    mergedSize_resolveChildren config hl (fun c _ => settles config hl c) l
  rw [resolve_of_not_isUnit hv hunit]
  unfold resolveComposite
  rw [Reported.value_bind, renames_shareBoth t (dimension_sharedKey v.kind), hbelow,
    sharedAliases_eq config hv (hmerged .width), sharedAliases_eq config hv (hmerged .height),
    ← Renames.renameAll_append, aliases_eq]

/-- **Settling records the renames of its merges**, in order, and no others. -/
theorem renames_resolve (hl : t.Linked) (id : ViewId) : t.Records config id := by
  induction id using t.downInduction with
  | step id ih =>
    cases hv : t.view? id with
    | none =>
      intro l
      have hchildren : t.children id = [] := by rw [children, hv]
      rw [resolve_of_view?_none hv, aliases_of_childless config hchildren]
      rfl
    | some v =>
      cases hunit : v.kind.isUnit with
      | false => exact records_of_children config hl hv hunit ih
      | true =>
        intro l
        rw [resolve_of_isUnit hv hunit, Reported.value_pure,
          aliases_of_childless config (hl.children_of_isUnit hv hunit)]
        unfold resolveUnit
        rw [hv]
        cases hu : v.kind.unit? <;> simp [hu]

end ChartCompiler.ViewTree
