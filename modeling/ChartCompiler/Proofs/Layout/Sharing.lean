import ChartCompiler.Proofs.Explicit.Folds
import ChartCompiler.Proofs.Layout.Entries
import ChartCompiler.Proofs.Naming.Replay
import ChartCompiler.Proofs.Tree.Histories
import Mathlib.Data.List.Induction

/-!
# Sharing a size is all or nothing

A view that shares the sizes of its children goes through their entries one by one, and then writes
in three places: its own entry, those of its children, and the table of renames. Independent scales
can break this off at any child, when others have been merged already.

* `foldEntries` — what a list of entries comes to when each is merged with those before it, and what
  is reported on the way.
* `BreaksOff` — **where independent scales break off**: at an entry in steps, or at one that differs
  from what those before it come to.
* `notices_share` — what sharing a size reports.
* `ViewTree.SharesAll`, `ViewTree.SharesNone` — the two ways in which a layout can change.
* `ViewTree.Linked.share_all_or_nothing` — **there are no others**, and breaking off decides between
  them.

Nothing is written before all entries have been merged, so there is nothing to undo when merging
breaks off. What can show are the reports: with shared scales a conflict between authored sizes is
reported as it is met, while independent scales never get to a conflict, because only equal sizes
are merged at all.
-/

namespace ChartCompiler

/-! ## Folding entries -/

section fold

variable (property : Property)

/-- **What a list of entries comes to** when each is merged with those before it; none without
entries. This is the loop of the program without its test for independent scales. -/
def foldEntries : List SizeEntry → Reported (Option SizeEntry)
  | [] => pure none
  | first :: rest => do
    let entry ← rest.foldlM (Explicit.merge property) first
    pure (some entry)

/-- Entries come to the leading one of them. -/
theorem value_foldEntries (entries : List SizeEntry) :
    (foldEntries property entries).value = leading? entries := by
  cases entries with
  | nil => rfl
  | cons first rest =>
    rw [foldEntries, Explicit.foldlM_merge, leading?, ← List.head?_filter]
    cases (first :: rest).filter Explicit.isExplicit <;> rfl

/-- What is reported on the way are conflicts, which are warnings. -/
theorem level_of_mem_foldEntries {entries : List SizeEntry} {n : Notice}
    (hn : n ∈ (foldEntries property entries).notices) : n.level = .warn := by
  cases entries with
  | nil => cases hn
  | cons first rest =>
    rw [foldEntries, Explicit.foldlM_merge, Reported.notices_bind, Reported.notices_pure,
      List.append_nil] at hn
    split at hn
    · cases hn
    · obtain ⟨e, -, rfl⟩ := List.mem_map.mp hn
      rfl

/-- **Whether independent scales break off somewhere in a list of entries**: at one that is counted
in steps, or that differs from what those before it come to. An entry in steps breaks off even in
front of the list. -/
def BreaksOff (entries : List SizeEntry) : Prop :=
  ∃ gone later rest, entries = gone ++ later :: rest ∧
    (later.value = some .step ∨
      ∃ sofar, (foldEntries property gone).value = some sofar ∧ (sofar.value != later.value) = true)

/-- A size that may be missing is counted in steps if it is there and is. -/
theorem any_isStep_iff {value : Option LayoutSize} :
    value.any LayoutSize.isStep = true ↔ value = some .step := by
  rcases value with _ | (_ | _ | _) <;> simp [LayoutSize.isStep]

/-- Where a list breaks off, so does every longer one. -/
theorem BreaksOff.append {entries : List SizeEntry} (h : BreaksOff property entries)
    (more : List SizeEntry) : BreaksOff property (entries ++ more) := by
  obtain ⟨gone, later, rest, rfl, hlater⟩ := h
  exact ⟨gone, later, rest ++ more, by simp, hlater⟩

/-- **Independent scales break off exactly where the entries are not alike.** So it does not matter
at which entry the loop happens to notice. -/
theorem breaksOff_iff {entries : List SizeEntry} :
    BreaksOff property entries ↔ areAlike entries = false := by
  constructor
  · rintro ⟨gone, later, rest, rfl, hlater⟩
    refine Bool.eq_false_iff.mpr fun halike => ?_
    obtain ⟨hsteps, hpairs⟩ := areAlike_iff.mp halike
    rcases hlater with hstep | ⟨sofar, hsofar, hne⟩
    · have hnone := hsteps later (by simp)
      rw [any_isStep_iff.mpr hstep] at hnone
      cases hnone
    · rw [value_foldEntries] at hsofar
      have heq := (List.pairwise_append.mp hpairs).2.2 sofar (mem_of_leading? hsofar) later
        List.mem_cons_self
      rw [bne, heq] at hne
      cases hne
  · intro h
    -- Taken from the end, the last entry is the first one that is unlike those before it.
    induction entries using List.reverseRecOn with
    | nil => cases h
    | append_singleton gone later ih =>
      by_cases halike : areAlike gone = true
      · refine ⟨gone, later, [], rfl, ?_⟩
        cases hlead : leading? gone with
        | none =>
          rw [leading?_eq_none_iff.mp hlead] at h
          exact .inl (any_isStep_iff.mp (by simpa [areAlike] using h))
        | some sofar =>
          rw [areAlike_append_singleton hlead halike, Bool.not_eq_false', keepsApart,
            Bool.or_eq_true] at h
          rcases h with hstep | hne
          · exact .inl (any_isStep_iff.mp hstep)
          · exact .inr ⟨sofar, (value_foldEntries property gone).trans hlead, hne⟩
      · exact (ih (Bool.eq_false_iff.mpr halike)).append property [later]

/-- The sizes of children are kept apart where independent scales break off. -/
theorem MergedSize.ofEntries_eq_apart_iff_breaksOff {independent : Bool} {entries : List SizeEntry} :
    ofEntries independent entries = .apart ↔ independent = true ∧ BreaksOff property entries := by
  rw [ofEntries_eq_apart_iff, breaksOff_iff]
  constructor
  · exact fun h => h.2
  · rintro ⟨hindependent, hunlike⟩
    refine ⟨?_, hindependent, hunlike⟩
    rintro rfl
    cases hunlike

/-- Whether independent scales break off can be computed. -/
instance (entries : List SizeEntry) : Decidable (BreaksOff property entries) :=
  decidable_of_iff _ (breaksOff_iff property).symm

/-! ## What merging sizes reports -/

/-- Without independent scales, sizes are merged to the end. -/
theorem mergeOnto_false (current : SizeEntry) (rest : List SizeEntry) :
    mergeOnto false property current rest =
      rest.foldlM (Explicit.merge property) current >>= fun entry => pure (some entry) := by
  induction rest generalizing current with
  | nil => rfl
  | cons later rest ih =>
    rw [mergeOnto, List.foldlM_cons, bind_assoc]
    simp [ih]

/-- With independent scales, only equal sizes are merged, so no conflict is reported. -/
theorem notices_mergeOnto_true (current : SizeEntry) (rest : List SizeEntry) :
    (mergeOnto true property current rest).notices = [] := by
  induction rest generalizing current with
  | nil => rfl
  | cons later rest ih =>
    rw [mergeOnto]
    by_cases hkeep : keepsApart current later = true
    · rw [if_pos (by rw [hkeep]; rfl)]
      rfl
    · have heq : (current.value == later.value) = true := by
        have := (Bool.or_eq_false_iff.mp (Bool.eq_false_iff.mpr hkeep)).2
        simpa [bne] using this
      rw [if_neg (by simpa using hkeep), Reported.notices_bind, ih, Explicit.notices_merge, heq]
      simp

/-- **What merging the children's sizes reports**: nothing with independent scales, and otherwise what
the fold of their entries does. -/
theorem notices_mergeSizes (independent : Bool) (entries : List SizeEntry) :
    (mergeSizes independent property entries).notices =
      if independent then [] else (foldEntries property entries).notices := by
  cases entries with
  | nil => cases independent <;> rfl
  | cons first rest =>
    rw [mergeSizes]
    cases independent with
    | false =>
      rw [mergeOnto_false, foldEntries, bind_assoc]
      rfl
    | true =>
      rw [if_pos rfl]
      split
      · rfl
      · rw [Reported.notices_bind, notices_mergeOnto_true]
        rfl

end fold

namespace ViewTree

variable {t : ViewTree}

/-! ## The two ways in which a layout can change -/

/-- **All is shared**: the view has the given entry, its children leave theirs to it, and the
signals of their sizes are renamed to that of its own. Nothing else changes. -/
structure SharesAll (t : ViewTree) (id : ViewId) (key : LayoutKey) (children : List ViewId)
    (entry : SizeEntry) (l l' : Layout) : Prop where
  /-- The view's own entry is the shared one. -/
  parent : l'.sizeAt? id key = some entry
  /-- Every child is marked as merged. -/
  child : ∀ c ∈ children, l'.sizeAt? c key.dimension.key = some .merged
  /-- All other entries are as before. -/
  other : ∀ x k, (x = id → k ≠ key) → (x ∈ children → k ≠ key.dimension.key) →
    l'.sizeAt? x k = l.sizeAt? x k
  /-- The signal of every child's size goes by the name of the view's own. -/
  renamed : ∀ c ∈ children,
    l'.renames.target? (t.ownSizeSignal c key.dimension.key) = some (t.ownSizeSignal id key)
  /-- All other names are renamed as before, or not at all. -/
  notRenamed : ∀ name, (∀ c ∈ children, name ≠ t.ownSizeSignal c key.dimension.key) →
    l'.renames.target? name = l.renames.target? name

/-- **Nothing is shared**: the view's own entry is unresolved, and nothing else changes. -/
structure SharesNone (id : ViewId) (key : LayoutKey) (l l' : Layout) : Prop where
  /-- The view's own entry is unresolved, whatever it was before. -/
  parent : l'.sizeAt? id key = some .unresolved
  /-- All other entries are as before, those of the children included. -/
  other : ∀ x k, (x = id → k ≠ key) → l'.sizeAt? x k = l.sizeAt? x k
  /-- No name is renamed. -/
  renames : l'.renames = l.renames

/-- Sizes that merge are shared with all children. -/
theorem sharesAll_share {id : ViewId} {key : LayoutKey} {l : Layout} {entry : SizeEntry}
    (h : t.mergedSize l id key.dimension = .shared entry) :
    t.SharesAll id key (t.children id) entry l (t.share id key l).value := by
  have hrenames := t.renames_share id key l
  rw [sharedAliases, h, MergedSize.isShared, if_pos rfl] at hrenames
  constructor
  case parent =>
    rw [sizeAt?_share, h, if_pos ⟨rfl, rfl⟩]
    rfl
  case child =>
    intro c hc
    have hne : c ≠ id := fun he => Nat.lt_irrefl _ (he ▸ (lt_of_mem_children hc).1)
    rw [sizeAt?_share, h, if_neg fun hself => hne hself.1, if_pos ⟨rfl, hc, rfl⟩]
  case other =>
    intro x k hself hchild
    rw [sizeAt?_share, if_neg fun he => hself he.1 he.2, if_neg fun he => hchild he.2.1 he.2.2]
  case renamed =>
    intro c hc
    rw [hrenames, Renames.target?_renameAll_eq_some_iff]
    · exact .inl (List.mem_map.mpr ⟨c, hc, rfl⟩)
    · -- All children get the same name, whatever their own ones are.
      intro a ha b hb _
      obtain ⟨x, -, rfl⟩ := List.mem_map.mp ha
      obtain ⟨y, -, rfl⟩ := List.mem_map.mp hb
      rfl
  case notRenamed =>
    intro name hname
    rw [hrenames, Renames.target?_renameAll, List.lookup_eq_none_iff.mpr, Option.none_or]
    intro a ha
    obtain ⟨c, hc, rfl⟩ := List.mem_map.mp (List.mem_reverse.mp ha)
    exact bne_iff_ne.mpr (hname c hc)

/-- Sizes that do not merge are not shared at all. -/
theorem sharesNone_share {id : ViewId} {key : LayoutKey} {l : Layout}
    (h : ∀ entry, t.mergedSize l id key.dimension ≠ .shared entry) :
    SharesNone id key l (t.share id key l).value := by
  have hvalue : (t.share id key l).value = l.setSize id key .unresolved := by
    rw [value_share]
    cases hmerged : t.mergedSize l id key.dimension with
    | shared entry => exact absurd hmerged (h entry)
    | childless => rfl
    | apart => rfl
  rw [hvalue]
  constructor
  case parent => rw [Layout.sizeAt?_setSize, if_pos ⟨rfl, rfl⟩]
  case other =>
    intro x k hself
    rw [Layout.sizeAt?_setSize, if_neg fun he => hself he.1 he.2]
  case renames => rfl

/-! ## Which of them it is -/

/-- Sharing a size reports what merging the children's sizes does, and that these are kept apart if they
are. -/
theorem notices_share (t : ViewTree) (id : ViewId) (key : LayoutKey) (l : Layout) :
    (t.share id key l).notices =
      (mergeSizes (t.isIndependent id key.dimension.channel) { name := key.dimension.key.word }
        ((t.children id).map fun c => l.size c key.dimension.key)).notices ++
      match t.mergedSize l id key.dimension with
      | .apart => [.independentSizes key.word ((t.view? id).elim "" View.name)]
      | _ => [] := by
  unfold share mergedSize
  rw [Reported.notices_bind, value_mergeSizes]
  cases MergedSize.ofEntries (t.isIndependent id key.dimension.channel)
    ((t.children id).map fun c => l.size c key.dimension.key) <;> rfl

/-- Whether a view's children have independent scales, told by what the view says of itself or by
the default of its kind. -/
theorem isIndependent_of_view? {id : ViewId} {v : View} (hv : t.view? id = some v)
    (channel : Channel) :
    t.isIndependent id channel = decide (v.sharing channel = .independent) := by
  rw [isIndependent, hv]
  rfl

namespace Linked

variable (hl : t.Linked) {id : ViewId} {v : View} (hv : t.view? id = some v)

include hl hv

/-- What the sizes of a view's children come to, told by what the view says of itself. -/
theorem mergedSize_eq (l : Layout) (d : Dimension) :
    t.mergedSize l id d = .ofEntries (decide (v.sharing d.channel = .independent))
      (v.children.map fun c => l.size c d.key) := by
  rw [mergedSize, hl.children_eq hv, isIndependent_of_view? hv]

/-- The sizes of a view's children are kept apart where independent scales break off. -/
theorem mergedSize_eq_apart_iff (property : Property) (l : Layout) (d : Dimension) :
    t.mergedSize l id d = .apart ↔
      v.sharing d.channel = .independent ∧
        BreaksOff property (v.children.map fun c => l.size c d.key) := by
  rw [hl.mergedSize_eq hv, MergedSize.ofEntries_eq_apart_iff_breaksOff property, decide_eq_true_eq]

/-- **What sharing a size reports**: the conflicts between the children's entries unless scales are
independent, and that the sizes are kept apart where these break off. -/
theorem notices_share_eq (key : LayoutKey) (l : Layout) :
    let d := key.dimension
    let entries := v.children.map fun c => l.size c d.key
    (t.share id key l).notices =
      (if v.sharing d.channel = .independent then []
        else (foldEntries { name := d.key.word } entries).notices) ++
      if v.sharing d.channel = .independent ∧ BreaksOff { name := d.key.word } entries then
        [.independentSizes key.word v.name]
      else [] := by
  intro d entries
  have hapart := hl.mergedSize_eq_apart_iff hv { name := d.key.word } l d
  rw [notices_share, notices_mergeSizes, hl.children_eq hv, isIndependent_of_view? hv, hv]
  simp only [decide_eq_true_eq]
  congr 1
  cases hmerged : t.mergedSize l id d with
  | apart => rw [if_pos (hapart.mp hmerged)]; rfl
  | shared entry => rw [if_neg fun h => nomatch hmerged.symm.trans (hapart.mpr h)]
  | childless => rw [if_neg fun h => nomatch hmerged.symm.trans (hapart.mpr h)]

/-- At the level of debugging, what is reported is that the sizes are kept apart, and nothing
else. -/
theorem debug_notices_share (key : LayoutKey) (l : Layout) :
    let d := key.dimension
    (t.share id key l).notices.filter (fun n => n.level = .debug) =
      if v.sharing d.channel = .independent ∧
          BreaksOff { name := d.key.word } (v.children.map fun c => l.size c d.key) then
        [.independentSizes key.word v.name]
      else [] := by
  intro d
  have hfolded : ∀ entries, (if v.sharing d.channel = .independent then []
      else (foldEntries { name := d.key.word } entries).notices).filter
        (fun n => n.level = .debug) = [] := by
    intro entries
    apply List.filter_eq_nil_iff.mpr
    intro n hn
    split at hn
    · cases hn
    · rw [level_of_mem_foldEntries _ hn]
      simp
  rw [hl.notices_share_eq hv, List.filter_append, hfolded, List.nil_append]
  split <;> rfl

/-- **All is shared or nothing is**, and independent scales that break off decide between them. -/
theorem sharesAll_or_sharesNone (property : Property) (key : LayoutKey) (l : Layout) :
    let d := key.dimension
    let entries := v.children.map fun c => l.size c d.key
    let aborts := v.sharing d.channel = .independent ∧ BreaksOff property entries
    (v.children ≠ [] ∧ ¬ aborts ∧ ∃ entry, (foldEntries property entries).value = some entry ∧
        t.SharesAll id key v.children entry l (t.share id key l).value) ∨
      ((v.children = [] ∨ aborts) ∧ SharesNone id key l (t.share id key l).value) := by
  intro d entries aborts
  have hmerged := hl.mergedSize_eq hv l d
  have hapart : t.mergedSize l id d = .apart ↔ aborts := hl.mergedSize_eq_apart_iff hv property l d
  cases hcase : t.mergedSize l id d with
  | shared entry =>
    have hall := sharesAll_share hcase
    rw [hl.children_eq hv] at hall
    have hlead := (MergedSize.ofEntries_eq_shared_iff.mp (hmerged.symm.trans hcase)).1
    refine .inl ⟨?_, ?_, entry, (value_foldEntries property entries).trans hlead, hall⟩
    · intro hnil
      rw [hnil] at hlead
      cases hlead
    · exact fun h => nomatch hcase.symm.trans (hapart.mpr h)
  | childless =>
    have hnil := MergedSize.ofEntries_eq_childless_iff.mp (hmerged.symm.trans hcase)
    refine .inr ⟨.inl (List.map_eq_nil_iff.mp hnil), sharesNone_share ?_⟩
    exact fun entry h => nomatch hcase.symm.trans h
  | apart =>
    refine .inr ⟨.inr (hapart.mp hcase), sharesNone_share ?_⟩
    exact fun entry h => nomatch hcase.symm.trans h

/-- **Sharing a size is all or nothing.** Either the children's entries are folded into the view's,
all children leave theirs to it and their signals are renamed; or, without children or where
independent scales break off, the view's own entry is unresolved and nothing else changes. Breaking
off is reported once and nothing else is at this level. With independent scales no conflict is
reported.

The layout before may be any: with sizes left from earlier runs, and with renames of the children's
signals, which sharing replaces and breaking off keeps. -/
theorem share_all_or_nothing (key : LayoutKey) (l : Layout) :
    let d := key.dimension
    let entries := v.children.map fun c => l.size c d.key
    let folded := foldEntries { name := d.key.word } entries
    let aborts := v.sharing d.channel = .independent ∧ BreaksOff { name := d.key.word } entries
    let shared := t.share id key l
    ((v.children ≠ [] ∧ ¬ aborts ∧
          ∃ entry, folded.value = some entry ∧ t.SharesAll id key v.children entry l shared.value) ∨
        ((v.children = [] ∨ aborts) ∧ SharesNone id key l shared.value)) ∧
      shared.notices.filter (fun n => n.level = .debug) =
        (if aborts then [.independentSizes key.word v.name] else []) ∧
      (v.sharing d.channel = .independent → ∀ n ∈ shared.notices, n.level ≠ .warn) := by
  intro d entries folded aborts shared
  refine ⟨hl.sharesAll_or_sharesNone hv _ key l, hl.debug_notices_share hv key l, ?_⟩
  intro hindependent n hn
  have hnotices : shared.notices = _ := hl.notices_share_eq hv key l
  rw [hnotices, if_pos hindependent, List.nil_append] at hn
  split at hn
  · rw [List.mem_singleton.mp hn]
    nofun
  · cases hn

end Linked

/-! ## Cells that keep apart in one dimension -/

/-- Sizes of a unit view of the usual height. -/
def cellSizes (width : LayoutSize) : SizeTable :=
  ((∅ : SizeTable).put .width (.authored (some width))).put .height (.inferred (some (.pixels 20)))

/-- Three cells, of which the last one counts its width in steps. Signals of the first one have been
renamed before. -/
def cellsBeside : ViewTree :=
  after
    [.addRoot { name := "chart", kind := .concat } ∅,
      .addChild 0 { name := "a", kind := .unit {} } (cellSizes (.pixels 30)),
      .addChild 0 { name := "b", kind := .unit {} } (cellSizes (.pixels 30)),
      .addChild 0 { name := "c", kind := .unit {} } (cellSizes .step),
      .rename "a_width" "old_width",
      .rename "a_height" "old_height"]

/-- The third cell keeps the widths apart, which leaves everything of the first two as it was; the
heights are shared by all. So both ways occur in one call, one for each dimension. -/
theorem share_cellsBeside :
    let root : View := { name := "chart", kind := .concat, children := [1, 2, 3] }
    let widths := cellsBeside.share 0 .childWidth cellsBeside.layout
    let heights := cellsBeside.share 0 .childHeight cellsBeside.layout
    cellsBeside.Linked ∧ cellsBeside.view? 0 = some root ∧
      SharesNone 0 .childWidth cellsBeside.layout widths.value ∧
      widths.notices.filter (fun n => n.level = .debug) = [.independentSizes "childWidth" "chart"] ∧
      cellsBeside.SharesAll 0 .childHeight [1, 2, 3] (.inferred (some (.pixels 20)))
        cellsBeside.layout heights.value ∧
      heights.notices.filter (fun n => n.level = .debug) = [] := by
  intro root widths heights
  have hl : cellsBeside.Linked := linked_after _
  have hv : cellsBeside.view? 0 = some root := by with_unfolding_all rfl
  obtain ⟨hwidths, hdebug, -⟩ := hl.share_all_or_nothing hv .childWidth cellsBeside.layout
  obtain ⟨hheights, hnone, -⟩ := hl.share_all_or_nothing hv .childHeight cellsBeside.layout
  have haborts : root.sharing Dimension.width.channel = .independent ∧
      BreaksOff { name := "width" }
        (root.children.map fun c => cellsBeside.layout.size c Dimension.width.key) :=
    ⟨rfl, [_, _], _, [], rfl, .inl (by with_unfolding_all rfl)⟩
  have hmerges : ¬ BreaksOff { name := "height" }
      (root.children.map fun c => cellsBeside.layout.size c Dimension.height.key) := by
    rw [breaksOff_iff]
    decide +kernel
  refine ⟨hl, hv, ?_, hdebug.trans (if_pos haborts), ?_, hnone.trans (if_neg fun h => hmerges h.2)⟩
  · rcases hwidths with ⟨-, hgoes, -⟩ | ⟨-, h⟩
    · exact absurd haborts hgoes
    · exact h
  · rcases hheights with ⟨-, -, entry, hentry, h⟩ | ⟨hnil | h, -⟩
    · obtain rfl : .inferred (some (.pixels 20)) = entry := Option.some.inj hentry
      exact h
    · cases hnil
    · exact absurd h.2 hmerges

end ViewTree

end ChartCompiler
