import ChartCompiler.Proofs.Layout.References

/-!
# What a second run reads back

A container of cells has no size of its own: it is asked for whatever was there before. Before a
tree is settled nothing is there, afterwards the mark of a merged size may be. A second run takes
this mark for a size, and where it leads the sizes of a parent's children it goes on up the tree.

* `SizeEntry.Follows` — an entry as a second run reads it: as it was, or a mark where it was
  unresolved.
* `MergedSize.ofEntries_of_follows`, `MergedSize.ofEntries_of_follows_unresolved` — **what such
  entries merge to**: the same as before, unless they merged to an unresolved size.
* `ViewTree.Echoes` — **a view that a second run takes for merged**: a container that has left its
  size, or a layer whose first child is one.
* `ViewTree.GathersEchoes`, `ViewTree.SplitsAgain` — the children of a view come to a merged size,
  or come apart, though they shared an unresolved one.
* `ViewTree.ownSize_again` — **what a view comes to in a second run**: the same, or a mark.
* `ViewTree.sharedSize_again` — **what the sizes of a view's children come to in a second run**: one
  of these two, or the same again.

The relations `Echoes`, `GathersEchoes` and `SplitsAgain` speak of the first run only. That they
tell what a second one does is proved by one induction down the tree, whose hypothesis is
`FollowsAt`: each view comes to what it came to or to a mark, and to a mark exactly where it echoes.
Settled sizes read back as they were, so only an unresolved size can turn into a mark, and only a
container turns one there; layers pass it on.
-/

namespace ChartCompiler

/-! ## Entries read back -/

/-- Only a mark equals a mark. -/
theorem LayoutSize.eq_merged_iff_of_beq {x y : Option LayoutSize} (h : (x == y) = true) :
    x = some .merged ↔ y = some .merged := by
  cases x with
  | none =>
    cases y with
    | none => rfl
    | some y => cases h
  | some x =>
    cases y with
    | none => cases h
    | some y =>
      cases x with
      | merged =>
        cases y with
        | merged => rfl
        | _ => cases h
      | _ =>
        cases y with
        | merged => cases h
        | _ => simp

/-- **An entry as a second run reads it**: as it was, or a mark of a merged size where there was
none. Before there was no mark, and what was not settled was unresolved. -/
inductive SizeEntry.Follows : SizeEntry → SizeEntry → Prop
  | same {e : SizeEntry} (notMerged : e.value ≠ some .merged)
      (unsettled : e.value = none → e = .unresolved) : Follows e e
  | echo : Follows .unresolved .merged

namespace SizeEntry.Follows

variable {e e' : SizeEntry}

/-- Neither an unresolved entry nor a mark is authored, so what was authored is read back as
authored. -/
theorem isExplicit_eq (h : Follows e e') : e'.isExplicit = e.isExplicit := by
  cases h <;> rfl

/-- Settled entries are read back as they were. -/
theorem eq_of_ne_unresolved (h : Follows e e') (hne : e ≠ .unresolved) : e' = e := by
  cases h with
  | same => rfl
  | echo => exact absurd rfl hne

/-- An unresolved entry is read back as it was, or as a mark. -/
theorem eq_or_eq_merged (h : Follows e e') : e' = e ∨ e' = .merged := by
  cases h with
  | same => exact .inl rfl
  | echo => exact .inr rfl

/-- What had no value was unresolved. -/
theorem eq_unresolved (h : Follows e e') (hnone : e.value = none) : e = .unresolved := by
  cases h with
  | same _ unsettled => exact unsettled hnone
  | echo => rfl

/-- What is counted in steps was so before, and the other way round. -/
theorem isStep_eq (h : Follows e e') :
    e'.value.any LayoutSize.isStep = e.value.any LayoutSize.isStep := by
  cases h <;> rfl

/-- Entries that are equal when they are read back were equal before: a mark equals only a mark, and
both were unresolved then. -/
theorem beq_value {a a' b b' : SizeEntry} (ha : Follows a a') (hb : Follows b b')
    (h : (a'.value == b'.value) = true) : (a.value == b.value) = true := by
  cases ha with
  | same hane =>
    cases hb with
    | same => exact h
    | echo => exact absurd ((LayoutSize.eq_merged_iff_of_beq h).mpr rfl) hane
  | echo =>
    cases hb with
    | same hbne => exact absurd ((LayoutSize.eq_merged_iff_of_beq h).mp rfl) hbne
    | echo => rfl

end SizeEntry.Follows

/-- Entries that are all unresolved, or all marked, are alike. -/
theorem areAlike_of_forall_eq {entries : List SizeEntry} {e : SizeEntry}
    (he : e = .unresolved ∨ e = .merged) (h : ∀ x ∈ entries, x = e) : areAlike entries = true := by
  refine areAlike_iff.mpr ⟨fun x hx => ?_, List.pairwise_of_forall_mem_list fun x hx y hy => ?_⟩
  · rw [h x hx]
    rcases he with rfl | rfl <;> rfl
  · rw [h x hx, h y hy]
    rcases he with rfl | rfl <;> rfl

section lists

variable {α : Type} {items : List α} {f g : α → SizeEntry}
  (h : ∀ a ∈ items, SizeEntry.Follows (f a) (g a))

include h

/-- The first authored entry is read back. -/
theorem find?_isExplicit_of_follows :
    (items.map g).find? Explicit.isExplicit = (items.map f).find? Explicit.isExplicit := by
  induction items with
  | nil => rfl
  | cons a rest ih =>
    have hrest := ih fun b hb => h b (List.mem_cons_of_mem _ hb)
    have ha := h a List.mem_cons_self
    rw [List.map_cons, List.map_cons, List.find?_cons, List.find?_cons, hrest, ha.isExplicit_eq]
    cases hexplicit : (f a).isExplicit with
    | false => rfl
    | true =>
      rw [ha.eq_of_ne_unresolved]
      intro hunresolved
      rw [hunresolved] at hexplicit
      cases hexplicit

/-- A settled leading entry leads again. -/
theorem leading?_of_follows {e : SizeEntry} (hlead : leading? (items.map f) = some e)
    (hne : e ≠ .unresolved) : leading? (items.map g) = some e := by
  unfold leading? at hlead ⊢
  rw [find?_isExplicit_of_follows h]
  cases hfind : (items.map f).find? Explicit.isExplicit with
  | some x =>
    rw [hfind] at hlead
    exact hlead
  | none =>
    rw [hfind] at hlead
    cases items with
    | nil => cases hlead
    | cons a rest =>
      obtain rfl : f a = e := Option.some.inj hlead
      exact congrArg some ((h a List.mem_cons_self).eq_of_ne_unresolved hne)

/-- Where an unresolved entry leads, the first one leads again. -/
theorem leading?_of_follows_unresolved
    (hlead : leading? (items.map f) = some .unresolved) :
    ∃ a rest, items = a :: rest ∧ f a = .unresolved ∧ leading? (items.map g) = some (g a) := by
  have hnone : (items.map f).find? Explicit.isExplicit = none :=
    find?_isExplicit_of_leading? hlead
  have hhead : (items.map f).head? = some .unresolved := head?_of_leading? hlead hnone
  cases items with
  | nil => cases hhead
  | cons a rest =>
    refine ⟨a, rest, rfl, Option.some.inj hhead, ?_⟩
    unfold leading?
    rw [find?_isExplicit_of_follows h, hnone]
    rfl

/-- Entries that are alike when they are read back were alike before. -/
theorem areAlike_of_follows (halike : areAlike (items.map g) = true) :
    areAlike (items.map f) = true := by
  rw [areAlike_iff, List.forall_mem_map, List.pairwise_map] at halike ⊢
  refine ⟨fun a ha => ?_, ?_⟩
  · rw [← (h a ha).isStep_eq]
    exact halike.1 a ha
  · exact List.Pairwise.imp_of_mem (fun ha hb hab => (h _ ha).beq_value (h _ hb) hab) halike.2

/-- Entries that are alike, an unresolved one among them, are all unresolved. -/
theorem eq_unresolved_of_areAlike (halike : areAlike (items.map f) = true)
    (hmem : .unresolved ∈ items.map f) : ∀ a ∈ items, f a = .unresolved := by
  intro a ha
  by_contra hne
  have hbeq := beq_value_of_areAlike halike (List.mem_map_of_mem ha) hmem hne
  refine hne ((h a ha).eq_unresolved ?_)
  cases hsize : (f a).value with
  | none => rfl
  | some size =>
    rw [hsize] at hbeq
    cases hbeq

/-- Entries that are alike and not all unresolved are read back as they were: none of them is
unresolved. -/
theorem map_eq_of_areAlike {e : SizeEntry} (halike : areAlike (items.map f) = true)
    (he : e ∈ items.map f) (hne : e ≠ .unresolved) : items.map g = items.map f := by
  refine List.map_congr_left fun a ha => (h a ha).eq_of_ne_unresolved fun hunresolved => ?_
  obtain ⟨b, hb, rfl⟩ := List.mem_map.mp he
  exact hne (eq_unresolved_of_areAlike h halike (hunresolved ▸ List.mem_map_of_mem ha) b hb)

/-! ## Merging entries read back -/

/-- **Unless they merged to an unresolved size**, entries merge again to what they merged to. An
authored or settled entry leads as before, and entries that were kept apart still are. -/
theorem MergedSize.ofEntries_of_follows {independent : Bool}
    (hne : ofEntries independent (items.map f) ≠ .shared .unresolved) :
    ofEntries independent (items.map g) = ofEntries independent (items.map f) := by
  cases hmerged : ofEntries independent (items.map f) with
  | childless =>
    rw [ofEntries_eq_childless_iff, List.map_eq_nil_iff] at hmerged
    rw [hmerged]
    rfl
  | apart =>
    obtain ⟨hitems, hind, halike⟩ := ofEntries_eq_apart_iff.mp hmerged
    refine ofEntries_eq_apart_iff.mpr ⟨by simpa using hitems, hind, ?_⟩
    exact Bool.eq_false_iff.mpr fun halike' =>
      Bool.eq_false_iff.mp halike (areAlike_of_follows h halike')
  | shared e =>
    have hunresolved : e ≠ .unresolved := fun he => hne (hmerged.trans (congrArg _ he))
    obtain ⟨hlead, halike⟩ := ofEntries_eq_shared_iff.mp hmerged
    refine ofEntries_eq_shared_iff.mpr ⟨leading?_of_follows h hlead hunresolved, fun hind => ?_⟩
    rw [map_eq_of_areAlike h (halike hind) (mem_of_leading? hlead) hunresolved]
    exact halike hind

/-- **Where entries merged to an unresolved size**, the first one stands for all, unless independent
scales find some of the others marked and some not. -/
theorem MergedSize.ofEntries_of_follows_unresolved {independent : Bool}
    (hmerged : ofEntries independent (items.map f) = .shared .unresolved) :
    ∃ a rest, items = a :: rest ∧ f a = .unresolved ∧
      (independent = true → ∀ b ∈ rest, f b = .unresolved) ∧
      ((independent = true → ∀ b ∈ rest, g b = g a) →
        ofEntries independent (items.map g) = .shared (g a)) ∧
      ((independent = true ∧ ∃ b ∈ rest, g b ≠ g a) →
        ofEntries independent (items.map g) = .apart) := by
  obtain ⟨hlead, halike⟩ := ofEntries_eq_shared_iff.mp hmerged
  obtain ⟨a, rest, rfl, ha, hlead'⟩ := leading?_of_follows_unresolved h hlead
  have hall : independent = true → ∀ b ∈ a :: rest, f b = .unresolved := fun hind =>
    eq_unresolved_of_areAlike h (halike hind) (mem_of_leading? hlead)
  have hfirst := (h a List.mem_cons_self).eq_or_eq_merged
  rw [ha] at hfirst
  refine ⟨a, rest, rfl, ha, fun hind b hb => hall hind b (List.mem_cons_of_mem _ hb),
    fun hsame => ?_, fun ⟨hind, b, hb, hne⟩ => ?_⟩
  · refine ofEntries_eq_shared_iff.mpr ⟨hlead', fun hind => areAlike_of_forall_eq hfirst ?_⟩
    rw [List.forall_mem_map]
    exact List.forall_mem_cons.mpr ⟨rfl, hsame hind⟩
  · refine ofEntries_eq_apart_iff.mpr ⟨by simp, hind, Bool.eq_false_iff.mpr fun halike' => ?_⟩
    have hbeq := beq_value_of_areAlike halike' (List.mem_map_of_mem (List.mem_cons_of_mem a hb))
      (List.mem_map_of_mem List.mem_cons_self) hne
    have hother := (h b (List.mem_cons_of_mem a hb)).eq_or_eq_merged
    rw [hall hind b (List.mem_cons_of_mem a hb)] at hother
    rcases hfirst with hga | hga <;> rcases hother with hgb | hgb <;> rw [hga, hgb] at hbeq hne
    · exact hne rfl
    · cases hbeq
    · cases hbeq
    · exact hne rfl

end lists

namespace ViewTree

/-! ## Views that a second run takes for merged -/

/-- **A view that a second run takes for merged** along a dimension, though it came to an unresolved
size. The relation goes up from containers through layers, and says what the first run has left. -/
inductive Echoes (t : ViewTree) (config : Config) (d : Dimension) : ViewId → Prop
  /-- A container that has left its size reads back the mark of it. -/
  | container {id : ViewId} {v : View} (view : t.view? id = some v)
      (composite : v.kind.isUnit = false) (notLayer : v.kind ≠ .layer)
      (leaves : t.leavesSize config {} d id = true) : Echoes t config d id
  /-- A layer without a size comes to the mark of its first child. With independent scales all its
  children have to agree on it. -/
  | layer {id c : ViewId} {rest : List ViewId} {v : View} (view : t.view? id = some v)
      (isLayer : v.kind = .layer)
      (unresolved : t.sharedSize config {} d id = .shared .unresolved)
      (children : t.children id = c :: rest) (first : Echoes t config d c)
      (others : t.isIndependent id d.channel = true → ∀ b ∈ rest, Echoes t config d b) :
      Echoes t config d id

variable (t : ViewTree) (config : Config)

/-- **The children of a view come to a merged size**, though they shared an unresolved one: the
first child is taken for merged, and with independent scales all are. -/
def GathersEchoes (d : Dimension) (p : ViewId) : Prop :=
  t.sharedSize config {} d p = .shared .unresolved ∧
    ∃ c rest, t.children p = c :: rest ∧ t.Echoes config d c ∧
      (t.isIndependent p d.channel = true → ∀ b ∈ rest, t.Echoes config d b)

/-- **The children of a view come apart**, though they shared an unresolved size: scales are
independent, and only some of the children are taken for merged. -/
def SplitsAgain (d : Dimension) (p : ViewId) : Prop :=
  t.sharedSize config {} d p = .shared .unresolved ∧ t.isIndependent p d.channel = true ∧
    (∃ c ∈ t.children p, t.Echoes config d c) ∧ ∃ c ∈ t.children p, ¬ t.Echoes config d c

variable {t} {d : Dimension} {id : ViewId} {v : View}

/-- No unit view is taken for merged. -/
theorem not_echoes_of_unit {u : UnitView} (hv : t.view? id = some v) (hkind : v.kind = .unit u) :
    ¬ t.Echoes config d id := by
  rintro (⟨view, composite, -, -⟩ | ⟨view, isLayer, -, -, -, -⟩)
  · rw [hv] at view
    obtain rfl := Option.some.inj view
    rw [hkind] at composite
    cases composite
  · rw [hv] at view
    obtain rfl := Option.some.inj view
    rw [hkind] at isLayer
    cases isLayer

/-- Nothing is taken for merged where there is no view. -/
theorem not_echoes_of_view?_none (hv : t.view? id = none) : ¬ t.Echoes config d id := by
  rintro (⟨view, -, -, -⟩ | ⟨view, -, -, -, -, -⟩) <;> rw [hv] at view <;> cases view

/-- A container is taken for merged exactly if it has left its size. -/
theorem echoes_iff_of_container (hv : t.view? id = some v) (hunit : v.kind.isUnit = false)
    (hkind : v.kind ≠ .layer) :
    t.Echoes config d id ↔ t.leavesSize config {} d id = true := by
  refine ⟨?_, .container hv hunit hkind⟩
  rintro (⟨-, -, -, leaves⟩ | ⟨view, isLayer, -, -, -, -⟩)
  · exact leaves
  · rw [hv] at view
    obtain rfl := Option.some.inj view
    exact absurd isLayer hkind

/-- A layer is taken for merged exactly if its children come to a merged size. -/
theorem echoes_iff_of_layer (hv : t.view? id = some v) (hkind : v.kind = .layer) :
    t.Echoes config d id ↔ t.GathersEchoes config d id := by
  constructor
  · rintro (⟨view, -, notLayer, -⟩ | ⟨-, -, unresolved, children, first, others⟩)
    · rw [hv] at view
      obtain rfl := Option.some.inj view
      exact absurd hkind notLayer
    · exact ⟨unresolved, _, _, children, first, others⟩
  · rintro ⟨unresolved, c, rest, children, first, others⟩
    exact .layer hv hkind unresolved children first others

/-! ## A second run -/

variable {after : Layout}

/-- **A view comes to the same size again, or to a mark**, and it is taken for merged where it comes
to a mark. This is what the induction down the tree proves. -/
def FollowsAt (t : ViewTree) (config : Config) (after : Layout) (d : Dimension) (id : ViewId) : Prop :=
  SizeEntry.Follows (t.ownSize config {} d id) (t.ownSize config after d id) ∧
    (t.Echoes config d id ↔ t.ownSize config after d id = .merged)

section children

variable {p a : ViewId} {rest : List ViewId} (hchildren : t.children p = a :: rest)
  (hun : t.sharedSize config {} d p = .shared .unresolved)
  (hechoes : ∀ c ∈ a :: rest, t.Echoes config d c ↔ t.ownSize config after d c = .merged)

include hchildren hun hechoes

/-- Children that shared an unresolved size come to a merged one, told from what each of them comes
to. -/
theorem gathersEchoes_iff_of_children :
    t.GathersEchoes config d p ↔ t.ownSize config after d a = .merged ∧
      (t.isIndependent p d.channel = true → ∀ b ∈ rest, t.ownSize config after d b = .merged) := by
  have hothers := fun b hb => hechoes b (List.mem_cons_of_mem a hb)
  constructor
  · rintro ⟨-, c, rest', hchildren', hc, hrest⟩
    obtain ⟨rfl, rfl⟩ := List.cons.inj (hchildren.symm.trans hchildren')
    exact ⟨(hechoes a List.mem_cons_self).mp hc,
      fun hind b hb => (hothers b hb).mp (hrest hind b hb)⟩
  · rintro ⟨hc, hrest⟩
    exact ⟨hun, a, rest, hchildren, (hechoes a List.mem_cons_self).mpr hc,
      fun hind b hb => (hothers b hb).mpr (hrest hind b hb)⟩

/-- Children that shared an unresolved size come apart where one of them comes to something else
than the first, and scales are independent. -/
theorem splitsAgain_iff_of_children
    (hfirst : t.ownSize config after d a = .unresolved ∨ t.ownSize config after d a = .merged)
    (hrest : t.isIndependent p d.channel = true → ∀ b ∈ rest,
      t.ownSize config after d b = .unresolved ∨ t.ownSize config after d b = .merged) :
    t.SplitsAgain config d p ↔ t.isIndependent p d.channel = true ∧
      ∃ b ∈ rest, t.ownSize config after d b ≠ t.ownSize config after d a := by
  unfold SplitsAgain
  rw [hchildren]
  constructor
  · rintro ⟨-, hind, ⟨c, hc, hE⟩, c', hc', hE'⟩
    refine ⟨hind, ?_⟩
    by_contra hnone
    push Not at hnone
    have hall : ∀ x ∈ a :: rest, t.ownSize config after d x = t.ownSize config after d a :=
      List.forall_mem_cons.mpr ⟨rfl, hnone⟩
    refine hE' ((hechoes c' hc').mpr ?_)
    rw [hall c' hc', ← hall c hc]
    exact (hechoes c hc).mp hE
  · rintro ⟨hind, b, hb, hne⟩
    have hmem : b ∈ a :: rest := List.mem_cons_of_mem a hb
    have hunmarked : ∀ c ∈ a :: rest, t.ownSize config after d c = .unresolved →
        ¬ t.Echoes config d c := fun c hc hown hE => by
      have hmerged := (hechoes c hc).mp hE
      rw [hown] at hmerged
      cases hmerged
    refine ⟨hun, hind, ?_⟩
    -- Of two children that differ one has the mark and the other has not.
    rcases hfirst with hga | hga <;> rcases hrest hind b hb with hgb | hgb
    · exact absurd (hgb.trans hga.symm) hne
    · exact ⟨⟨b, hmem, (hechoes b hmem).mpr hgb⟩, a, List.mem_cons_self,
        hunmarked a List.mem_cons_self hga⟩
    · exact ⟨⟨a, List.mem_cons_self, (hechoes a List.mem_cons_self).mpr hga⟩, b, hmem,
        hunmarked b hmem hgb⟩
    · exact absurd (hgb.trans hga.symm) hne

end children

/-- What the children of a view come to in a second run, told from what each of them does. The three
cases exclude each other. -/
theorem sharedSize_again_of_children {p : ViewId}
    (hbelow : ∀ c ∈ t.children p, t.FollowsAt config after d c) :
    (t.GathersEchoes config d p ∧ t.sharedSize config after d p = .shared .merged) ∨
      (t.SplitsAgain config d p ∧ t.sharedSize config after d p = .apart) ∨
      (¬ t.GathersEchoes config d p ∧ ¬ t.SplitsAgain config d p ∧
        t.sharedSize config after d p = t.sharedSize config {} d p) := by
  have hfollows := fun c hc => (hbelow c hc).1
  by_cases hun : t.sharedSize config {} d p = .shared .unresolved
  · obtain ⟨a, rest, hchildren, ha, hrest, hsame, hmixed⟩ :=
      MergedSize.ofEntries_of_follows_unresolved hfollows hun
    have hechoes : ∀ c ∈ a :: rest, t.Echoes config d c ↔ t.ownSize config after d c = .merged :=
      hchildren ▸ fun c hc => (hbelow c hc).2
    have hfirst := (hfollows a (hchildren ▸ List.mem_cons_self)).eq_or_eq_merged
    rw [ha] at hfirst
    have hothers : t.isIndependent p d.channel = true → ∀ b ∈ rest,
        t.ownSize config after d b = .unresolved ∨ t.ownSize config after d b = .merged := by
      intro hind b hb
      have hother := (hfollows b (hchildren ▸ List.mem_cons_of_mem a hb)).eq_or_eq_merged
      rwa [hrest hind b hb] at hother
    have hgathers := gathersEchoes_iff_of_children config hchildren hun hechoes
    have hsplits := splitsAgain_iff_of_children config hchildren hun hechoes hfirst hothers
    -- Every child now has an unresolved size or a mark. What the parent is given depends on
    -- whether they still agree, and if they do, on the first of them.
    by_cases hall : t.isIndependent p d.channel = true →
        ∀ b ∈ rest, t.ownSize config after d b = t.ownSize config after d a
    · have hshared : t.sharedSize config after d p = .shared (t.ownSize config after d a) :=
        hsame hall
      rcases hfirst with hga | hga
      · refine .inr (.inr ⟨fun h => ?_, fun h => ?_, by rw [hshared, hga, hun]⟩)
        · rw [hga] at hgathers
          cases (hgathers.mp h).1
        · obtain ⟨hind, b, hb, hne⟩ := hsplits.mp h
          exact hne (hall hind b hb)
      · refine .inl ⟨hgathers.mpr ⟨hga, fun hind b hb => ?_⟩, by rw [hshared, hga]⟩
        exact (hall hind b hb).trans hga
    · push Not at hall
      exact .inr (.inl ⟨hsplits.mpr hall, hmixed hall⟩)
  · exact .inr (.inr ⟨fun h => hun h.1, fun h => hun h.1,
      MergedSize.ofEntries_of_follows hfollows hun⟩)

/-- Children that come apart do not come to a merged size. -/
theorem SplitsAgain.not_gathersEchoes {p : ViewId} (h : t.SplitsAgain config d p) :
    ¬ t.GathersEchoes config d p := by
  rintro ⟨-, c, rest, hchildren, hfirst, hothers⟩
  obtain ⟨-, hind, -, b, hb, hE⟩ := h
  rw [hchildren] at hb
  rcases List.mem_cons.mp hb with rfl | hb
  · exact hE hfirst
  · exact hE (hothers hind b hb)

/-- A size that a view comes to without a value is unresolved. -/
theorem ownSize_eq_unresolved (hnone : (t.ownSize config {} d id).value = none) :
    t.ownSize config {} d id = .unresolved := by
  induction id using t.downInduction with
  | step id ih =>
    cases hv : t.view? id with
    | none => exact ownSize_of_view?_none config {} hv d
    | some v =>
      cases hkind : v.kind with
      | unit u =>
        rw [ownSize_of_unit _ _ hv hkind] at hnone
        exact absurd hnone (v.value_unitEntry_ne_none u config.view d)
      | layer =>
        rw [ownSize_of_layer _ _ hv hkind] at hnone ⊢
        cases hshared : t.sharedSize config {} d id with
        | shared e =>
          obtain ⟨c, hc, rfl⟩ := exists_of_sharedSize_eq config hshared
          rw [hshared] at hnone
          exact ih c hc hnone
        | childless => rfl
        | apart => rfl
      | _ =>
        exact ownSize_of_container config {} hv (by rw [hkind]; rfl) (by rw [hkind]; simp) d

/-- In the first run a view comes to no mark of a merged size by itself. -/
theorem ownSize_ne_merged : t.ownSize config {} d id ≠ .merged := fun h =>
  value_ownSize_ne_merged config (fun _ _ => Option.some_ne_none _ ∘ Eq.symm) d id
    (congrArg Explicit.value h)

/-- A size of the first run that a second one reads as it was. -/
theorem follows_self : SizeEntry.Follows (t.ownSize config {} d id) (t.ownSize config {} d id) :=
  .same (value_ownSize_ne_merged config (fun _ _ => Option.some_ne_none _ ∘ Eq.symm) d id)
    (ownSize_eq_unresolved config)

/-- A view that comes to the same size again, and is not taken for merged, fits the hypothesis. -/
theorem followsAt_of_ownSize_eq (hnot : ¬ t.Echoes config d id)
    (hsame : t.ownSize config after d id = t.ownSize config {} d id) :
    t.FollowsAt config after d id := by
  unfold FollowsAt
  rw [hsame]
  exact ⟨follows_self config, iff_of_false hnot (ownSize_ne_merged config)⟩

/-- A layer comes to what its children come to again, so it fits once they do. -/
theorem followsAt_of_layer (hv : t.view? id = some v) (hkind : v.kind = .layer)
    (hbelow : ∀ c ∈ t.children id, t.FollowsAt config after d c) :
    t.FollowsAt config after d id := by
  have hechoes := echoes_iff_of_layer config (d := d) hv hkind
  have hown := ownSize_of_layer config {} hv hkind d
  have hown' := ownSize_of_layer config after hv hkind d
  rcases sharedSize_again_of_children config hbelow with
    ⟨hgathers, hshared⟩ | ⟨hsplits, hshared⟩ | ⟨hgathers, -, hshared⟩
  · rw [hgathers.1] at hown
    rw [hshared] at hown'
    unfold FollowsAt
    rw [hown, hown']
    exact ⟨.echo, iff_of_true (hechoes.mpr hgathers) rfl⟩
  · -- Children that come apart leave a layer unresolved, as it was.
    rw [hsplits.1] at hown
    rw [hshared] at hown'
    exact followsAt_of_ownSize_eq config
      (fun h => hsplits.not_gathersEchoes config (hechoes.mp h)) (hown'.trans hown.symm)
  · exact followsAt_of_ownSize_eq config (fun h => hgathers (hechoes.mp h))
      (by rw [hown', hshared, hown])

variable (hafter : ∀ id key, after.sizeAt? id key = t.settledSize? config {} 0 id key)

include hafter

/-- What a second run finds as the size of a view: the mark, if the view has left its size, and what
it came to in the first run otherwise. -/
theorem size_again (d : Dimension) (id : ViewId) :
    after.size id d.key =
      if t.leavesSize config {} d id then .merged else t.ownSize config {} d id := by
  rw [Layout.size_eq, hafter, settledSize?, Dimension.dimension_key]
  by_cases hleaves : t.leavesSize config {} d id = true
  · obtain ⟨p, hp, -⟩ := (leavesSize_eq_true_iff t config {}).mp hleaves
    have hne : id ≠ 0 := Nat.ne_of_gt (Nat.lt_of_le_of_lt (Nat.zero_le p) (lt_of_parent? hp))
    rw [if_pos ⟨hne, rfl, hleaves⟩, if_pos hleaves]
    rfl
  · rw [if_neg fun h => hleaves h.2.2, if_neg hleaves, getD_keptSize?]

/-- A container reads back what it has left: a mark, if it has left its size, and nothing
otherwise. -/
theorem followsAt_of_container (hv : t.view? id = some v) (hunit : v.kind.isUnit = false)
    (hkind : v.kind ≠ .layer) : t.FollowsAt config after d id := by
  have hechoes := echoes_iff_of_container config (d := d) hv hunit hkind
  have hown := ownSize_of_container config {} hv hunit hkind d
  have hown' := ownSize_of_container config after hv hunit hkind d
  rw [size_again config hafter] at hown'
  by_cases hleaves : t.leavesSize config {} d id = true
  · rw [if_pos hleaves] at hown'
    unfold FollowsAt
    rw [hown, hown']
    exact ⟨.echo, iff_of_true (hechoes.mpr hleaves) rfl⟩
  · rw [if_neg hleaves] at hown'
    exact followsAt_of_ownSize_eq config (fun h => hleaves (hechoes.mp h)) hown'

/-- **What a view comes to in a second run**: the same as in the first, or the mark of a merged
size, which is what it is taken for. The induction goes down the tree, with a case for each kind of
view. -/
theorem ownSize_again (id : ViewId) : t.FollowsAt config after d id := by
  induction id using t.downInduction with
  | step id ih =>
    cases hv : t.view? id with
    | none =>
      have hleaves : t.leavesSize config {} d id = false := by
        rw [leavesSize, parent?, hv]
        rfl
      refine followsAt_of_ownSize_eq config (not_echoes_of_view?_none config hv) ?_
      rw [ownSize_of_view?_none config after hv, size_again config hafter, hleaves]
      rfl
    | some v =>
      cases hkind : v.kind with
      | unit u =>
        refine followsAt_of_ownSize_eq config (not_echoes_of_unit config hv hkind) ?_
        rw [ownSize_of_unit _ _ hv hkind, ownSize_of_unit _ _ hv hkind]
      | layer => exact followsAt_of_layer config hv hkind ih
      | _ =>
        exact followsAt_of_container config hafter hv (by rw [hkind]; rfl) (by rw [hkind]; simp)

/-- **What the sizes of a view's children come to in a second run**: merged or apart, where they
shared an unresolved size, and else the same as in the first. -/
theorem sharedSize_again (d : Dimension) (p : ViewId) :
    (t.GathersEchoes config d p ∧ t.sharedSize config after d p = .shared .merged) ∨
      (t.SplitsAgain config d p ∧ t.sharedSize config after d p = .apart) ∨
      (¬ t.GathersEchoes config d p ∧ ¬ t.SplitsAgain config d p ∧
        t.sharedSize config after d p = t.sharedSize config {} d p) :=
  sharedSize_again_of_children config fun c _ => ownSize_again config hafter c

end ViewTree

end ChartCompiler
