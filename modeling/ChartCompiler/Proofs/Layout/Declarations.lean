import ChartCompiler.Proofs.Layout.Entries
import ChartCompiler.Proofs.Tree.Descent

/-!
# Declared signals

The program declares the signals of a tree by a walk with a list of pending views, and collects
notices on the way. For statements about names neither matters: a name is declared if one of the
sizes of one of the views declares it.

* `ViewTree.walk_eq_flatMap` — the walk with a list of pending views comes by the same views, in the
  same order, as the recursion down the tree.
* `ViewTree.declared` — the names of the signals that a tree declares; `ViewTree.mem_declared_iff` —
  **a name is declared by one of the sizes of one of the views**.
* `ViewTree.mem_sizeSignals_iff` — what one size declares.
* `Scale.stepSignal_ne_sizeSignal` — the name of a step is never the name of a size: it ends in
  another letter. So the two kinds of names can be told apart without assuming anything of a tree.
-/

namespace ChartCompiler

/-- A list worked through in order gives the results of its members. -/
theorem Reported.value_mapM {α β : Type} (f : α → Reported β) (l : List α) :
    (l.mapM f).value = l.map fun a => (f a).value := by
  induction l with
  | nil => rfl
  | cons a rest ih =>
    rw [List.mapM_cons, value_bind, value_bind, ih]
    rfl

namespace ViewTree

variable (t : ViewTree) (config : Config)

/-! ## The declarations of a tree -/

/-- **The walk from the pending views down** comes by the subtrees of the pending views in turn. The
induction is on the number of views still to come by, repeated ones counted as often as they
come. -/
theorem walk_eq_flatMap (pending : List ViewId) : t.walk pending = pending.flatMap t.subtree := by
  induction hn : (pending.flatMap t.subtree).length using Nat.strongRecOn generalizing pending with
  | ind n ih =>
    subst hn
    cases pending with
    | nil => rw [walk]; rfl
    | cons id rest =>
      have hunfold : (id :: rest).flatMap t.subtree =
          id :: (t.children id ++ rest).flatMap t.subtree := by
        rw [List.flatMap_cons, subtree_eq, List.flatMap_append, List.cons_append]
      rw [walk, hunfold, ih _ (by rw [hunfold]; exact Nat.lt_succ_self _) _ rfl]

/-- The declarations of one view are those of its sizes, in the order of its table. -/
theorem value_viewSignals (id : ViewId) :
    (t.viewSignals config id).value = (t.layout.sizes id).toList.flatMap fun e =>
      (t.sizeSignals config id e.1 e.2.value).value := by
  unfold viewSignals
  rw [Reported.value_bind, Reported.value_mapM, List.flatMap_def]
  rfl

/-- The declarations of one view, key by key. A key without an entry declares nothing. -/
theorem value_viewSignals_eq_flatMap (id : ViewId) :
    (t.viewSignals config id).value = (Keyword.all : List LayoutKey).flatMap fun key =>
      (t.layout.sizeAt? id key).elim [] fun e => (t.sizeSignals config id key e.value).value := by
  rw [value_viewSignals]
  unfold PropertyTable.toList Table.toList
  rw [List.filterMap_eq_flatMap_toList, List.flatMap_assoc]
  refine List.flatMap_congr fun key _ => ?_
  change ((t.layout.sizeAt? id key).map _).toList.flatMap _ = _
  cases t.layout.sizeAt? id key with
  | none => rfl
  | some e => exact List.flatMap_singleton ..

/-- The declarations of a tree are those of the views at and below its root, in the order of the
walk; a tree without a root has none. -/
theorem value_signals :
    (t.signals config).value =
      (t.root.toList.flatMap t.subtree).flatMap fun id => (t.viewSignals config id).value := by
  unfold signals
  rw [Reported.value_bind, Reported.value_mapM, walk_eq_flatMap]
  exact List.flatMap_def.symm

/-- **The names of the signals that a tree declares**, in order and with repetitions. -/
def declared : List String := (t.signals config).value.map SignalDecl.name

/-- **A name is declared by one of the sizes of one of the views.** -/
theorem mem_declared_iff {name : String} :
    name ∈ t.declared config ↔
      ∃ id ∈ t.root.toList.flatMap t.subtree, ∃ key e, t.layout.sizeAt? id key = some e ∧
        name ∈ (t.sizeSignals config id key e.value).value.map SignalDecl.name := by
  have hentry : ∀ {id : ViewId} {key : LayoutKey} {e : SizeEntry},
      (key, e) ∈ (t.layout.sizes id).toList ↔ t.layout.sizeAt? id key = some e :=
    Table.mem_toList _ _ _
  unfold declared
  rw [value_signals, List.mem_map]
  constructor
  · rintro ⟨decl, hdecl, rfl⟩
    obtain ⟨id, hid, hdecl⟩ := List.mem_flatMap.mp hdecl
    rw [value_viewSignals] at hdecl
    obtain ⟨⟨key, e⟩, he, hdecl⟩ := List.mem_flatMap.mp hdecl
    exact ⟨id, hid, key, e, hentry.mp he, List.mem_map_of_mem hdecl⟩
  · rintro ⟨id, hid, key, e, he, hname⟩
    obtain ⟨decl, hdecl, rfl⟩ := List.mem_map.mp hname
    refine ⟨decl, List.mem_flatMap.mpr ⟨id, hid, ?_⟩, rfl⟩
    rw [value_viewSignals]
    exact List.mem_flatMap.mpr ⟨(key, e), hentry.mpr he, hdecl⟩

/-! ## The declarations of one size -/

/-- **What one size declares**: its own name, if it is settled and not left to a parent, beside the
step of the scale that it is counted with. A size in steps for which no scale is found declares
nothing at all. -/
theorem mem_sizeSignals_iff {id : ViewId} {key : LayoutKey} {size : Option LayoutSize}
    {name : String} :
    name ∈ (t.sizeSignals config id key size).value.map SignalDecl.name ↔
      (∃ amount, size = some (.pixels amount) ∧ name = t.sizeSignal id key) ∨
      (size = some .step ∧ ∃ scale, t.findScale? id key.dimension.channel = some scale ∧
        (name = scale.stepSignal ∨ name = t.sizeSignal id key)) := by
  unfold sizeSignals
  cases size with
  | none => simp
  | some size =>
    cases size with
    | pixels amount => simp
    | merged => simp
    | step =>
      dsimp only
      cases t.findScale? id key.dimension.channel with
      | none =>
        change name ∈ List.map SignalDecl.name [] ↔ _
        simp
      | some scale => simp

/-! ## The scale of a size in steps -/

/-- The scale for a channel is the view's own, else the first one found below it, from child to
child. -/
theorem findScale?_eq (id : ViewId) (channel : Channel) :
    t.findScale? id channel = (((t.view? id).bind fun v => v.scale? channel)
      <|> (t.children id).findSome? fun c => t.findScale? c channel) := by
  rw [findScale?]
  congr 1
  rw [List.findSome?_subtype (g := fun c => t.findScale? c channel) (fun _ _ => rfl),
    List.unattach_attach]

end ViewTree

/-! ## Names of steps and of sizes -/

/-- A name ends as the text does that it is made from. -/
theorem getLast?_identifier (text : String) :
    (identifier text).toList.getLast? = text.toList.getLast?.map identifierChar := by
  rw [identifier, String.toList_ofList, List.getLast?_map]

/-- The name of a step ends as the word does, whatever the scale is called. -/
theorem Scale.getLast?_stepSignal (s : Scale) : s.stepSignal.toList.getLast? = some 'p' := by
  have hstep : "_step".toList.getLast? = some 'p' := by decide
  have hchar : identifierChar 'p' = 'p' := by decide
  rw [stepSignal, getLast?_identifier, String.toList_append, List.getLast?_append, hstep,
    Option.some_or, Option.map_some, hchar]

/-- The name of a size ends as its key does, whatever the view is called. -/
theorem View.getLast?_sizeSignal (v : View) (key : LayoutKey) :
    (v.sizeSignal key).toList.getLast? = key.suffix.toList.getLast?.map identifierChar := by
  have hsuffix : key.suffix.toList.getLast?.isSome = true := by cases key <;> decide
  obtain ⟨c, hc⟩ := Option.isSome_iff_exists.mp hsuffix
  rw [sizeSignal, signalName, getLast?_identifier]
  split
  · rfl
  · rw [String.toList_append, List.getLast?_append, hc]
    rfl

/-- **The name of a step is never the name of a size**: the one ends in `p`, and no key of a size
does. -/
theorem Scale.stepSignal_ne_sizeSignal (s : Scale) (v : View) (key : LayoutKey) :
    s.stepSignal ≠ v.sizeSignal key := by
  intro heq
  have hlast := s.getLast?_stepSignal
  rw [heq, v.getLast?_sizeSignal] at hlast
  cases key <;> exact absurd hlast (by decide)

end ChartCompiler
