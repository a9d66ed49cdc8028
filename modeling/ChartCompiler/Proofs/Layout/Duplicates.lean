import ChartCompiler.Proofs.Layout.Landing

/-!
# Names declared more than once

A size in steps declares the step of the scale that it is counted with, and a view without such a
scale takes one from below, where it may be in use already. Then the same step is declared twice,
and this is the only way in which it happens.

* `ViewTree.declared_eq_flatMap` — the declared names, slot by slot: one slot for each view and key.
* `ViewTree.DistinctStepSignals` — no two scales of a tree have the same step signal.
* `ViewTree.CountsWith`, `ViewTree.CountedTwice` — a view counts a size in steps with a scale, and
  so does another view below it.
* `ViewTree.Grown.declared_twice_iff` — **which names are declared more than once**: the steps that
  are counted twice. No size is declared twice, and no two views beside each other declare the same
  name.

A name that is declared twice comes from two slots, since one slot declares its names once
(`two_le_count_flatMap_iff`). The name of a size tells its slot and is never that of a step, so both
slots declare the same step. Both count with a scale of that step, which has one owner, and the
owner lies below both views: so one of the two lies below the other.
-/

namespace ChartCompiler

/-- What stands more than once in two parts, if it stands at most once in the first: it is in both,
or already more than once in the second. -/
theorem two_le_count_append_iff {β : Type} [DecidableEq β] {first rest : List β}
    (hfirst : first.Nodup) {x : β} :
    2 ≤ (first ++ rest).count x ↔ (x ∈ first ∧ x ∈ rest) ∨ 2 ≤ rest.count x := by
  rw [List.count_append, hfirst.count, ← List.count_pos_iff (l := rest)]
  by_cases hx : x ∈ first
  · simp only [hx, if_true, true_and]
    omega
  · simp [hx]

/-- **What stands more than once in a list put together from parts**, if it stands at most once in each
part: the members of two parts. -/
theorem two_le_count_flatMap_iff {α β : Type} [DecidableEq β] {parts : List α} {f : α → List β}
    (hparts : parts.Nodup) (hf : ∀ a ∈ parts, (f a).Nodup) {x : β} :
    2 ≤ (parts.flatMap f).count x ↔ ∃ a ∈ parts, ∃ b ∈ parts, a ≠ b ∧ x ∈ f a ∧ x ∈ f b := by
  induction parts with
  | nil => simp
  | cons a rest ih =>
    obtain ⟨hnot, hrest⟩ := List.nodup_cons.mp hparts
    rw [List.flatMap_cons, two_le_count_append_iff (hf a (List.mem_cons_self ..)), List.mem_flatMap,
      ih hrest fun b hb => hf b (List.mem_cons_of_mem _ hb)]
    constructor
    · rintro (⟨hxa, b, hb, hxb⟩ | ⟨b, hb, c, hc, hne, hxb, hxc⟩)
      · exact ⟨a, List.mem_cons_self .., b, List.mem_cons_of_mem _ hb,
          fun heq => hnot (heq ▸ hb), hxa, hxb⟩
      · exact ⟨b, List.mem_cons_of_mem _ hb, c, List.mem_cons_of_mem _ hc, hne, hxb, hxc⟩
    · rintro ⟨b, hb, c, hc, hne, hxb, hxc⟩
      rcases List.mem_cons.mp hb with rfl | hb' <;> rcases List.mem_cons.mp hc with rfl | hc'
      · exact absurd rfl hne
      · exact .inl ⟨hxb, c, hc', hxc⟩
      · exact .inl ⟨hxc, b, hb', hxb⟩
      · exact .inr ⟨b, hb', c, hc', hne, hxb, hxc⟩

/-- A channel determines one dimension. -/
theorem Dimension.channel_inj {d d' : Dimension} (h : d.channel = d'.channel) : d = d' := by
  cases d <;> cases d' <;> first | rfl | cases h

namespace ViewTree

variable {t : ViewTree} (config : Config)

/-! ## Slots -/

/-- The slots of a tree: a view at or below the root and the key of one of its sizes, in the order
in which they are declared. -/
def slots (t : ViewTree) : List (ViewId × LayoutKey) :=
  (t.root.toList.flatMap t.subtree).product (Keyword.all : List LayoutKey)

/-- The names that the size in a slot declares; none where there is no entry. -/
def slotNames (t : ViewTree) (s : ViewId × LayoutKey) : List String :=
  (t.layout.sizeAt? s.1 s.2).elim [] fun e =>
    (t.sizeSignals config s.1 s.2 e.value).value.map SignalDecl.name

/-- **The declared names, slot by slot.** -/
theorem declared_eq_flatMap (t : ViewTree) :
    t.declared config = t.slots.flatMap (t.slotNames config) := by
  have hview : ∀ id, (t.viewSignals config id).value.map SignalDecl.name =
      ((Keyword.all : List LayoutKey).map (Prod.mk id)).flatMap (t.slotNames config) := by
    intro id
    rw [value_viewSignals_eq_flatMap, List.map_flatMap, List.flatMap_map]
    refine List.flatMap_congr fun key _ => ?_
    unfold slotNames
    cases t.layout.sizeAt? id key <;> rfl
  rw [declared, value_signals, List.map_flatMap, slots, List.product]
  exact (List.flatMap_congr fun id _ => hview id).trans List.flatMap_assoc.symm

/-- No slot comes twice, because in a linked tree no view does. -/
theorem Linked.nodup_slots (hl : t.Linked) : t.slots.Nodup := by
  refine List.Nodup.product ?_ (List.Nodup.of_map _ Keyword.nodup_names)
  cases t.root with
  | none => exact List.nodup_nil
  | some root =>
    rw [Option.toList_some, List.flatMap_singleton]
    exact hl.nodup_subtree root

/-! ## Scales and their owners -/

/-- The scale that a view itself owns for a channel. -/
def scaleAt? (t : ViewTree) (id : ViewId) (channel : Channel) : Option Scale :=
  (t.view? id).bind fun v => v.scale? channel

/-- The scales that the views of a tree own, view by view and channel by channel. -/
def ownedScales (t : ViewTree) : List Scale :=
  ((List.range t.size).product (Keyword.all : List Channel)).filterMap fun s => t.scaleAt? s.1 s.2

/-- **No two scales of a tree have the same step signal**; so they have names of their own, too. As
with sizes, names are compared as they stand in signals. -/
def DistinctStepSignals (t : ViewTree) : Prop := (t.ownedScales.map Scale.stepSignal).Nodup

/-- Whether the step signals are distinct can be computed. -/
instance (t : ViewTree) : Decidable t.DistinctStepSignals :=
  inferInstanceAs (Decidable (List.Nodup _))

/-- Only views own scales. -/
theorem lt_size_of_scaleAt? {id : ViewId} {channel : Channel} {s : Scale}
    (h : t.scaleAt? id channel = some s) : id < t.size := by
  obtain ⟨v, hv, -⟩ := Option.bind_eq_some_iff.mp h
  exact lt_size_of_view? hv

/-- **A step signal tells the owner and the channel** of its scale. -/
theorem DistinctStepSignals.eq_of_stepSignal_eq (h : t.DistinctStepSignals) {id id' : Nat}
    {channel channel' : Channel} {s s' : Scale} (hs : t.scaleAt? id channel = some s)
    (hs' : t.scaleAt? id' channel' = some s') (heq : s.stepSignal = s'.stepSignal) :
    id = id' ∧ channel = channel' := by
  unfold DistinctStepSignals ownedScales at h
  rw [List.Nodup, List.pairwise_map, List.pairwise_filterMap] at h
  have hsymm : Std.Symm fun a b : ViewId × Channel =>
      ∀ s, t.scaleAt? a.1 a.2 = some s → ∀ s', t.scaleAt? b.1 b.2 = some s' →
        s.stepSignal ≠ s'.stepSignal :=
    ⟨fun _ _ hab s hs s' hs' heq => hab s' hs' s hs heq.symm⟩
  have hmem : ∀ {i : Nat} {c : Channel} {s : Scale}, t.scaleAt? i c = some s →
      (i, c) ∈ (List.range t.size).product (Keyword.all : List Channel) := fun hi =>
    List.mem_product.mpr ⟨List.mem_range.mpr (lt_size_of_scaleAt? hi), Keyword.mem_all _⟩
  by_contra hne
  exact h.forall (hmem hs) (hmem hs') (fun hpair => hne (Prod.mk.inj hpair)) s hs s' hs' heq

/-- **A scale that is found has an owner**, at the view or below it. The induction goes down the
tree. -/
theorem exists_owner_of_findScale? {id : ViewId} {channel : Channel} {s : Scale}
    (h : t.findScale? id channel = some s) :
    ∃ owner ∈ t.subtree id, t.scaleAt? owner channel = some s := by
  induction id using t.downInduction with
  | step id ih =>
    rw [findScale?_eq] at h
    change (t.scaleAt? id channel <|> _) = some s at h
    cases hself : t.scaleAt? id channel with
    | some own =>
      rw [hself] at h
      exact ⟨id, mem_subtree_self id, hself.trans h⟩
    | none =>
      rw [hself] at h
      obtain ⟨c, hc, hfound⟩ := List.exists_of_findSome?_eq_some h
      obtain ⟨owner, howner, hs⟩ := ih c hc hfound
      exact ⟨owner, mem_subtree_of_child hc howner, hs⟩

/-- **Views that count with the same step** stand one below the other, and count with the same scale
along the same channel. The owner of the scale lies below both of them, and of two views above a
third one lies below the other. -/
theorem Linked.nested_of_stepSignal_eq (hl : t.Linked) (hsteps : t.DistinctStepSignals) {a b : Nat}
    {channel channel' : Channel} {s s' : Scale} (ha : t.findScale? a channel = some s)
    (hb : t.findScale? b channel' = some s') (heq : s.stepSignal = s'.stepSignal) :
    channel = channel' ∧ s = s' ∧ (a ∈ t.subtree b ∨ b ∈ t.subtree a) := by
  obtain ⟨owner, howner, hs⟩ := exists_owner_of_findScale? ha
  obtain ⟨owner', howner', hs'⟩ := exists_owner_of_findScale? hb
  obtain ⟨rfl, rfl⟩ := hsteps.eq_of_stepSignal_eq hs hs' heq
  exact ⟨rfl, Option.some.inj (hs.symm.trans hs'), hl.mem_subtree_or_mem_subtree howner howner'⟩

/-! ## Sizes in steps -/

/-- **A size of a view is counted in steps** with a scale, the one that is found at or below the
view for the channel of the dimension. -/
def CountsWith (t : ViewTree) (id : ViewId) (key : LayoutKey) (scale : Scale) : Prop :=
  (t.layout.size id key).value = some .step ∧
    t.findScale? id key.dimension.channel = some scale

/-- What is counted in steps has an entry: a missing one reads as unresolved. -/
theorem countsWith_iff {id : ViewId} {key : LayoutKey} {scale : Scale} :
    t.CountsWith id key scale ↔
      (∃ e, t.layout.sizeAt? id key = some e ∧ e.value = some .step) ∧
        t.findScale? id key.dimension.channel = some scale := by
  refine and_congr_left fun _ => ?_
  rw [Layout.size_eq]
  cases t.layout.sizeAt? id key <;> simp [SizeEntry.unresolved, Explicit.inferred]

/-- **A step is counted twice**: a view counts a size with the scale, and another view below it
counts one with it too. The two may count different kinds of sizes, such as the width of a layer and
that of the cells of a facet in it. -/
def CountedTwice (t : ViewTree) (scale : Scale) : Prop :=
  ∃ upper lower key key', lower ∈ t.subtree upper ∧ lower ≠ upper ∧
    t.CountsWith upper key scale ∧ t.CountsWith lower key' scale

/-- The name of a step is not that of a view's size, whichever view and scale they belong to. -/
theorem stepSignal_ne_ownSizeSignal (scale : Scale) {id : ViewId} (hid : id < t.size)
    (key : LayoutKey) : scale.stepSignal ≠ t.ownSizeSignal id key := by
  obtain ⟨v, hv⟩ := exists_view? hid
  rw [ownSizeSignal, hv]
  exact scale.stepSignal_ne_sizeSignal v key

/-- **What is in a slot** is declared by a settled size: under its own name, or as the step of the
scale that it is counted with. -/
theorem mem_slotNames_iff {s : ViewId × LayoutKey} {name : String} :
    name ∈ t.slotNames config s ↔
      ∃ e, t.layout.sizeAt? s.1 s.2 = some e ∧
        name ∈ (t.sizeSignals config s.1 s.2 e.value).value.map SignalDecl.name := by
  unfold slotNames
  cases t.layout.sizeAt? s.1 s.2 <;> simp

/-- One size declares no name twice, if its own name is not that of a step: it declares at most a
step and its own name. -/
theorem nodup_sizeSignals {id : ViewId} {key : LayoutKey}
    (hname : ∀ scale : Scale, scale.stepSignal ≠ t.sizeSignal id key) (size : Option LayoutSize) :
    ((t.sizeSignals config id key size).value.map SignalDecl.name).Nodup := by
  unfold sizeSignals
  cases size with
  | none => exact List.nodup_nil
  | some size =>
    cases size with
    | pixels amount => exact List.nodup_singleton _
    | merged => exact List.nodup_nil
    | step =>
      dsimp only
      cases t.findScale? id key.dimension.channel with
      | none => exact List.nodup_nil
      | some scale => simpa using hname scale

/-! ## Settled trees -/

namespace Grown

variable (h : t.Grown) (hnames : t.DistinctSizeSignals) {root : Nat} (hroot : t.root = some root)

include h hroot

/-- A settled entry stands in a slot of the tree, since settling writes to views only and all of
them lie below the root. -/
theorem mem_slots_of_sizeAt? {id : Nat} {key : LayoutKey} {e : SizeEntry}
    (he : (t.resolve config root t.layout).value.sizeAt? id key = some e) :
    (id, key) ∈ (t.onLayout (t.resolve config root)).value.slots ∧ id < t.size := by
  have hl := h.linked
  obtain rfl := hl.root_eq_zero hroot
  have hid : id < t.size := by
    refine Nat.lt_of_not_le fun hle => ?_
    rw [h.sizeAt?_resolve_root config hroot,
      settledSize?_of_view?_none config (view?_eq_none_iff.mpr hle)] at he
    cases he
  refine ⟨List.mem_product.mpr ⟨List.mem_flatMap.mpr ⟨0, ?_, ?_⟩, Keyword.mem_all _⟩, hid⟩
  · exact Option.mem_toList.mpr hroot
  · exact (hl.withLayout _).mem_subtree_root hid

include hnames

/-- A settled size that is not left to a parent goes by its own name. -/
theorem sizeSignal_of_sizeAt? {id : Nat} {key : LayoutKey} {e : SizeEntry}
    (he : (t.resolve config root t.layout).value.sizeAt? id key = some e) (hne : e ≠ .merged) :
    (t.onLayout (t.resolve config root)).value.sizeSignal id key = t.ownSizeSignal id key := by
  have hid := (h.mem_slots_of_sizeAt? config hroot he).2
  rw [h.sizeAt?_resolve_root config hroot] at he
  obtain rfl := h.linked.root_eq_zero hroot
  rw [sizeSignal_onLayout]
  refine h.resolve_ownSizeSignal config hnames hroot hid fun hmerged => hne ?_
  exact Option.some.inj (he.symm.trans hmerged)

/-- **What a slot declares** once settled: the name of its own size, or the step of the scale that
the size is counted with. A size that has been renamed declares nothing, so own names suffice. -/
theorem of_mem_slotNames {id : Nat} {key : LayoutKey} {name : String}
    (hmem : name ∈ (t.onLayout (t.resolve config root)).value.slotNames config (id, key)) :
    id < t.size ∧
      (name = t.ownSizeSignal id key ∨
        ∃ scale, (t.onLayout (t.resolve config root)).value.CountsWith id key scale ∧
          name = scale.stepSignal) := by
  obtain ⟨e, he, hname⟩ := (mem_slotNames_iff config).mp hmem
  refine ⟨(h.mem_slots_of_sizeAt? config hroot he).2, ?_⟩
  have hsignal : ∀ {size : LayoutSize}, e.value = some size → size ≠ .merged →
      (t.onLayout (t.resolve config root)).value.sizeSignal id key = t.ownSizeSignal id key := by
    intro size hsize hmerged
    refine h.sizeSignal_of_sizeAt? config hnames hroot he fun heq => hmerged ?_
    rw [heq] at hsize
    exact (Option.some.inj hsize).symm
  rcases (mem_sizeSignals_iff _ config).mp hname with
    ⟨amount, hsize, hname⟩ | ⟨hsize, scale, hscale, hname | hname⟩
  · exact .inl (hname.trans (hsignal hsize nofun))
  · exact .inr ⟨scale, countsWith_iff.mpr ⟨⟨e, he, hsize⟩, hscale⟩, hname⟩
  · exact .inl (hname.trans (hsignal hsize nofun))

/-- A settled slot declares no name twice. -/
theorem nodup_slotNames (s : ViewId × LayoutKey) :
    ((t.onLayout (t.resolve config root)).value.slotNames config s).Nodup := by
  unfold slotNames
  cases he : (t.onLayout (t.resolve config root)).value.layout.sizeAt? s.1 s.2 with
  | none => exact List.nodup_nil
  | some e =>
    by_cases hmerged : e.value = some .merged
    · rw [Option.elim_some, hmerged]
      exact List.nodup_nil
    · refine nodup_sizeSignals config (fun scale => ?_) e.value
      rw [h.sizeSignal_of_sizeAt? config hnames hroot he fun heq => hmerged (congrArg _ heq)]
      exact stepSignal_ne_ownSizeSignal scale (h.mem_slots_of_sizeAt? config hroot he).2 s.2

omit hnames in
/-- A view counts at most one size along a dimension: its own, or that of its cells. -/
theorem key_eq_of_countsWith {id : Nat} {key key' : LayoutKey} {scale scale' : Scale}
    (hkey : (t.onLayout (t.resolve config root)).value.CountsWith id key scale)
    (hkey' : (t.onLayout (t.resolve config root)).value.CountsWith id key' scale')
    (hdimension : key.dimension = key'.dimension) : key = key' := by
  obtain rfl := h.linked.root_eq_zero hroot
  have hown : ∀ {k : LayoutKey} {s : Scale} {v : View}, t.view? id = some v →
      (t.onLayout (t.resolve config 0)).value.CountsWith id k s → k = ownKey v k.dimension := by
    intro k s v hv hcounts
    obtain ⟨e, he, hstep⟩ := (countsWith_iff.mp hcounts).1
    refine key_eq_of_settledSize? config hv
      ((h.sizeAt?_resolve_root config hroot id k).symm.trans he) ?_
    rintro rfl
    cases hstep
  obtain ⟨e, he, -⟩ := (countsWith_iff.mp hkey).1
  obtain ⟨v, hv⟩ := exists_view? (h.mem_slots_of_sizeAt? config hroot he).2
  rw [hown hv hkey, hown hv hkey', hdimension]

variable (hsteps : t.DistinctStepSignals)

include hsteps

omit hnames in
/-- **Two slots with the same step** belong to two views, one below the other, that count with the
same scale. -/
theorem countedTwice_of_ne {a b : ViewId × LayoutKey} (hne : a ≠ b) {scale scale' : Scale}
    (ha : (t.onLayout (t.resolve config root)).value.CountsWith a.1 a.2 scale)
    (hb : (t.onLayout (t.resolve config root)).value.CountsWith b.1 b.2 scale')
    (heq : scale.stepSignal = scale'.stepSignal) :
    (t.onLayout (t.resolve config root)).value.CountedTwice scale := by
  obtain ⟨hchannel, rfl, hnested⟩ := (h.linked.withLayout _).nested_of_stepSignal_eq
    (show (t.onLayout (t.resolve config root)).value.DistinctStepSignals from hsteps) ha.2 hb.2 heq
  -- A view holds one size along a dimension, so two slots with one step are two views.
  have hids : a.1 ≠ b.1 := by
    intro hid
    refine hne (Prod.ext hid ?_)
    rw [hid] at ha
    exact h.key_eq_of_countsWith config hroot ha hb (Dimension.channel_inj hchannel)
  rcases hnested with hbelow | hbelow
  · exact ⟨b.1, a.1, b.2, a.2, hbelow, hids, hb, ha⟩
  · exact ⟨a.1, b.1, a.2, b.2, hbelow, hids.symm, ha, hb⟩

/-- **A name is declared more than once** by a settled tree exactly if it is that of a step that is
counted twice. -/
theorem two_le_count_declared_iff (name : String) :
    2 ≤ ((t.onLayout (t.resolve config root)).value.declared config).count name ↔
      ∃ scale, (t.onLayout (t.resolve config root)).value.CountedTwice scale ∧
        name = scale.stepSignal := by
  have hslots : (t.onLayout (t.resolve config root)).value.slots.Nodup :=
    (h.linked.withLayout _).nodup_slots
  rw [declared_eq_flatMap, two_le_count_flatMap_iff hslots fun s _ =>
    h.nodup_slotNames config hnames hroot s]
  constructor
  · rintro ⟨a, -, b, -, hne, ha, hb⟩
    obtain ⟨hida, hnamea⟩ := h.of_mem_slotNames config hnames hroot ha
    obtain ⟨hidb, hnameb⟩ := h.of_mem_slotNames config hnames hroot hb
    -- The name of a size tells its slot and is never that of a step, which leaves two steps.
    rcases hnamea with rfl | ⟨scale, hscale, rfl⟩ <;> rcases hnameb with heq | ⟨scale', hscale', heq⟩
    · obtain ⟨hid, hkey⟩ := hnames.eq_of_ownSizeSignal_eq hida hidb heq
      exact absurd (Prod.ext hid hkey) hne
    · exact absurd heq.symm (stepSignal_ne_ownSizeSignal scale' hida a.2)
    · exact absurd heq (stepSignal_ne_ownSizeSignal scale hidb b.2)
    · exact ⟨scale, h.countedTwice_of_ne config hroot hsteps hne hscale hscale' heq, rfl⟩
  · rintro ⟨scale, ⟨upper, lower, key, key', -, hne, hupper, hlower⟩, rfl⟩
    have hslot : ∀ {id key}, (t.onLayout (t.resolve config root)).value.CountsWith id key scale →
        (id, key) ∈ (t.onLayout (t.resolve config root)).value.slots ∧ scale.stepSignal ∈
          (t.onLayout (t.resolve config root)).value.slotNames config (id, key) := by
      intro id key hcounts
      obtain ⟨e, he, hstep⟩ := (countsWith_iff.mp hcounts).1
      exact ⟨(h.mem_slots_of_sizeAt? config hroot he).1, (mem_slotNames_iff config).mpr
        ⟨e, he, (mem_sizeSignals_iff _ config).mpr (.inr ⟨hstep, scale, hcounts.2, .inl rfl⟩)⟩⟩
    exact ⟨_, (hslot hupper).1, _, (hslot hlower).1, fun heq => hne (congrArg Prod.fst heq).symm,
      (hslot hupper).2, (hslot hlower).2⟩

/-- **Which names a settled tree declares more than once**: the steps that are counted twice. So no
size is declared twice, and all names are distinct exactly if no step is counted twice.

Distinct names are assumed for sizes among themselves and for steps among themselves; that no step
has the name of a size needs no assumption. -/
theorem declared_twice_iff :
    ∃ r, t.resolveTree config = .ok r ∧
      (∀ name, 2 ≤ (r.value.declared config).count name ↔
        ∃ scale, r.value.CountedTwice scale ∧ name = scale.stepSignal) ∧
      (∀ id < t.size, ∀ key, (r.value.declared config).count (t.ownSizeSignal id key) ≤ 1) ∧
      ((r.value.declared config).Nodup ↔ ¬ ∃ scale, r.value.CountedTwice scale) := by
  have htwice := h.two_le_count_declared_iff config hnames hroot hsteps
  refine ⟨_, resolveTree_of_root hroot config, htwice, ?_, ?_⟩
  · intro id hid key
    refine Nat.le_of_not_lt fun hcount => ?_
    obtain ⟨scale, -, hname⟩ := (htwice _).mp hcount
    exact stepSignal_ne_ownSizeSignal scale hid key hname.symm
  · rw [List.nodup_iff_count_le_one]
    constructor
    · rintro hone ⟨scale, hscale⟩
      have htwo := (htwice _).mpr ⟨scale, hscale, rfl⟩
      exact absurd (Nat.le_trans htwo (hone _)) (by decide)
    · intro hnone name
      refine Nat.le_of_not_lt fun hcount => ?_
      obtain ⟨scale, hscale, -⟩ := (htwice _).mp hcount
      exact hnone ⟨scale, hscale⟩

end Grown

/-! ## A step that is counted twice -/

/-- A layer of a facet, whose cell has a scale in bands, and of a unit view with another such scale,
which authors a step. The layer takes the authored size, and counts it with the first scale that it
finds below it, that of the cell. -/
def facetBesideSteps : ViewTree :=
  grow { name := "outer", kind := .layer }
    [(0, { name := "inner", kind := .facet }),
      (1, { name := "cell", kind := .unit {},
            scales := .ofList [(.x, { name := "a", type := .band })] }),
      (0, { name := "mark", kind := .unit { width := some (.step 30) },
            scales := .ofList [(.x, { name := "b", type := .band })] })]

/-- Both the layer and the facet in it count with the scale of the facet's cell, so its step is declared
twice; their widths are declared once. -/
theorem twice_facetBesideSteps :
    ∃ r, facetBesideSteps.resolveTree {} = .ok r ∧
      2 ≤ (r.value.declared {}).count "a_step" ∧ (r.value.declared {}).count "outer_width" ≤ 1 := by
  obtain ⟨r, hr, htwice, honce, -⟩ := Grown.declared_twice_iff (t := facetBesideSteps) {}
    (grown_grow _ _) (by decide +kernel) (show facetBesideSteps.root = some 0 from rfl)
    (by decide +kernel)
  refine ⟨r, hr, (htwice _).mpr ⟨{ name := "a", type := .band }, ?_, by decide +kernel⟩,
    honce 0 (by decide) .width⟩
  rw [resolveTree_of_root (show facetBesideSteps.root = some 0 from rfl)] at hr
  obtain rfl := Except.ok.inj hr
  refine ⟨0, 1, .width, .childWidth, by decide +kernel, by decide, ⟨?_, ?_⟩, ⟨?_, ?_⟩⟩ <;>
    with_unfolding_all rfl

/-- **A step can be declared twice**, though all sizes, all scales and all steps have names of their
own, and no step has the name of a size. -/
theorem repeated_facetBesideSteps :
    facetBesideSteps.Grown ∧ facetBesideSteps.DistinctSizeSignals ∧
      (facetBesideSteps.ownedScales.map Scale.name).Nodup ∧
      (facetBesideSteps.ownedScales.map Scale.stepSignal).Nodup ∧
      (∀ scale ∈ facetBesideSteps.ownedScales,
        scale.stepSignal ∉ facetBesideSteps.sizeSignalNames) ∧
      ∃ r, facetBesideSteps.resolveTree {} = .ok r ∧ ¬ (r.value.declared {}).Nodup :=
  ⟨grown_grow _ _, by decide +kernel, by decide +kernel, by decide +kernel, by decide +kernel, _, rfl,
    by decide +kernel⟩

end ViewTree

end ChartCompiler
