import ChartCompiler.Proofs.Layout.Duplicates
import ChartCompiler.Proofs.Naming.Identifiers
import ChartCompiler.Proofs.Naming.Replay

/-!
# Signals that are identifiers

Whatever the views and scales of a tree are called, and even where their names collide, a settled
tree declares and reads no other names than those that its views and scales give to their signals.

* `Renames.resolve_induction` — what holds of a name and of everything that names were renamed to
  holds of what the name is resolved to.
* `ViewTree.NamedAfter` — a signal of one of the views or scales of a tree, with the name that it is
  made from.
* `ViewTree.Grown.exists_namedAfter_of_isSignal` — every signal of a settled tree is one of these.
* `ViewTree.Grown.signalNames_resolveTree` — **the signals of a settled tree are made of word
  characters**, and they are identifiers exactly if the name that they are made from does not begin
  with a digit.
* `ViewTree.not_identifier_digitFirst` — a tree that declares a signal that is no identifier.

No assumption on names is made. Where names are not distinct, a rename may redirect references to
another view, and even a cycle of renames is possible; but each name in it is the name of some
view's size, and so is the one that the look-up stops at.
-/

namespace ChartCompiler

namespace Renames

variable {r : Renames} {P : String → Prop}

/-- **What holds of a name and of everything that names were renamed to** holds of what the name is
resolved to, also where renames go round in a cycle. -/
theorem resolve_induction (h : ∀ old new, r.target? old = some new → P new) {name : String}
    (hname : P name) : P (r.resolve name) := by
  unfold resolve
  generalize r.size + 1 = steps
  induction steps generalizing name with
  | zero => exact hname
  | succ steps ih =>
    rw [follow]
    cases hnext : r.next? name with
    | none => exact hname
    | some next => exact ih (h name next (Option.filter_eq_some_iff.mp hnext).1)

/-- A recorded rename is one of those that were recorded, or was there before. -/
theorem mem_or_of_target?_renameAll {aliases : List (String × String)} {old new : String}
    (h : (r.renameAll aliases).target? old = some new) :
    (old, new) ∈ aliases ∨ r.target? old = some new := by
  rw [target?_renameAll, Option.or_eq_some_iff] at h
  refine h.imp (fun hlast => ?_) And.right
  obtain ⟨later, earlier, haliases, -⟩ := List.lookup_eq_some_iff.mp hlast
  rw [← List.mem_reverse, haliases]
  exact List.mem_append_right _ List.mem_cons_self

end Renames

namespace ViewTree

variable {t : ViewTree} (config : Config)

/-- **A signal of one of the views or scales of a tree**, with the name of the view or the scale
that it is made from: the name of one of a view's sizes, or that of a scale's step. -/
inductive NamedAfter (t : ViewTree) : String → String → Prop
  | size {id : ViewId} {v : View} (view : t.view? id = some v) (key : LayoutKey) :
      NamedAfter t (v.sizeSignal key) v.name
  | step {scale : Scale} (owned : scale ∈ t.ownedScales) : NamedAfter t scale.stepSignal scale.name

namespace NamedAfter

variable {name source : String}

/-- A signal of a view or a scale is made of word characters, at least one of them. -/
theorem words (h : t.NamedAfter name source) :
    name ≠ "" ∧ ∀ c ∈ name.toList, Text.isWord c = true := by
  cases h with
  | size _ key => exact ⟨View.sizeSignal_ne_empty _ key, fun _ => isWord_of_mem_identifier⟩
  | step _ => exact ⟨Scale.stepSignal_ne_empty _, fun _ => isWord_of_mem_identifier⟩

/-- A signal of a view or a scale is an identifier exactly if the name that it is made from does not
begin with a digit. An empty name begins with none. -/
theorem isIdentifier_iff (h : t.NamedAfter name source) :
    IsIdentifier name ↔ Text.beginsWithDigit source = false := by
  cases h with
  | size _ key => exact View.isIdentifier_sizeSignal_iff _ key
  | step _ => exact Scale.isIdentifier_stepSignal_iff _

end NamedAfter

/-- Every view gives a name to each of its sizes, settled or not. -/
theorem exists_namedAfter_ownSizeSignal {id : ViewId} (hid : id < t.size) (key : LayoutKey) :
    ∃ source, t.NamedAfter (t.ownSizeSignal id key) source := by
  obtain ⟨v, hv⟩ := exists_view? hid
  refine ⟨v.name, ?_⟩
  rw [ownSizeSignal, hv]
  exact .size hv key

/-- A scale that a size is counted with is owned by one of the views. -/
theorem mem_ownedScales_of_findScale? {id : ViewId} {channel : Channel} {scale : Scale}
    (h : t.findScale? id channel = some scale) : scale ∈ t.ownedScales := by
  obtain ⟨owner, -, howner⟩ := exists_owner_of_findScale? h
  exact List.mem_filterMap.mpr ⟨(owner, channel), List.mem_product.mpr
    ⟨List.mem_range.mpr (lt_size_of_scaleAt? howner), Keyword.mem_all _⟩, howner⟩

/-- **The signals of a tree**: those that it declares, and those that its sizes are read under. -/
def IsSignal (t : ViewTree) (config : Config) (name : String) : Prop :=
  name ∈ t.declared config ∨ ∃ id < t.size, ∃ key, name = t.sizeSignal id key

namespace Grown

variable (h : t.Grown) {root : Nat}

include h

/-- **A size is read under the name of some view's size**, whatever the renames make of it. -/
theorem exists_namedAfter_resolve {id : ViewId} (hid : id < t.size) (key : LayoutKey) :
    ∃ source, t.NamedAfter
      ((t.resolve config root t.layout).value.renames.resolve (t.ownSizeSignal id key)) source := by
  refine Renames.resolve_induction (P := fun name => ∃ source, t.NamedAfter name source) ?_
    (exists_namedAfter_ownSizeSignal hid key)
  intro old new hnew
  rw [renames_resolve config h.linked, h.renames_layout] at hnew
  rcases Renames.mem_or_of_target?_renameAll hnew with halias | hempty
  · -- What a child's size is renamed to is the name of its parent's.
    obtain ⟨p, -, c, hc, d, -, heq⟩ := (mem_aliases_iff config).mp halias
    obtain ⟨hpc, hcsize⟩ := lt_of_mem_children hc
    rw [(Prod.mk.inj heq).2]
    exact exists_namedAfter_ownSizeSignal (Nat.lt_trans hpc hcsize) _
  · cases hempty

variable (hroot : t.root = some root)

include hroot

/-- **Every signal of a settled tree** is a signal of one of its views or scales: a declared size is
declared under the name that it is read under, and a declared step is that of a scale that has been
found. -/
theorem exists_namedAfter_of_isSignal {name : String}
    (hname : (t.onLayout (t.resolve config root)).value.IsSignal config name) :
    ∃ source, t.NamedAfter name source := by
  have hsize : ∀ {id key}, id < t.size →
      ∃ source, t.NamedAfter ((t.onLayout (t.resolve config root)).value.sizeSignal id key) source := by
    intro id key hid
    rw [sizeSignal_onLayout]
    exact h.exists_namedAfter_resolve config hid key
  rcases hname with hdeclared | ⟨id, hid, key, rfl⟩
  · obtain ⟨id, -, key, e, he, hname⟩ := (mem_declared_iff _ config).mp hdeclared
    have hid : id < t.size := (h.mem_slots_of_sizeAt? config hroot he).2
    rcases (mem_sizeSignals_iff _ config).mp hname with
      ⟨amount, -, rfl⟩ | ⟨-, scale, hscale, rfl | rfl⟩
    · exact hsize hid
    · exact ⟨_, .step (mem_ownedScales_of_findScale? ((findScale?_withLayout _ id _).symm.trans hscale))⟩
    · exact hsize hid
  · exact hsize hid

/-- **The signals of a settled tree.** Each of them is the signal of some view or scale; it is not
empty and holds word characters only, and it is an identifier exactly if the name of that view or
scale does not begin with a digit. So all of them are identifiers if no name begins with one.

A digit is the one thing that making a signal's name does not take care of: every character that is
no word character is replaced, but a digit in front stays. -/
theorem signalNames_resolveTree :
    ∃ r, t.resolveTree config = .ok r ∧
      (∀ name, r.value.IsSignal config name → name ≠ "" ∧ (∀ c ∈ name.toList, Text.isWord c = true) ∧
        ∃ source, t.NamedAfter name source ∧
          (IsIdentifier name ↔ Text.beginsWithDigit source = false)) ∧
      ((∀ id v, t.view? id = some v → Text.beginsWithDigit v.name = false) →
        (∀ scale ∈ t.ownedScales, Text.beginsWithDigit scale.name = false) →
          ∀ name, r.value.IsSignal config name → IsIdentifier name) := by
  refine ⟨_, resolveTree_of_root hroot config, fun name hname => ?_, fun hviews hscales name hname => ?_⟩
  · obtain ⟨source, hsource⟩ := h.exists_namedAfter_of_isSignal config hroot hname
    exact ⟨hsource.words.1, hsource.words.2, source, hsource, hsource.isIdentifier_iff⟩
  · obtain ⟨source, hsource⟩ := h.exists_namedAfter_of_isSignal config hroot hname
    refine hsource.isIdentifier_iff.mpr ?_
    cases hsource with
    | size view _ => exact hviews _ _ view
    | step owned => exact hscales _ owned

end Grown

/-! ## A name that begins with a digit -/

/-- A layer with an empty name, of a unit view whose name is not an identifier, which has a scale in
bands, and of one whose name is only punctuation. -/
def oddNames : ViewTree :=
  grow { name := "", kind := .layer }
    [(0, { name := "first view", kind := .unit {},
           scales := .ofList [(.x, { name := "x-größe", type := .band })] }),
      (0, { name := "::", kind := .unit {} })]

/-- All names that this tree declares or reads are identifiers, as no name in it begins with a
digit. Two of them are named. -/
theorem signalNames_oddNames :
    ∃ r, oddNames.resolveTree {} = .ok r ∧ IsIdentifier "x_größe_step" ∧
      IsIdentifier (r.value.sizeSignal 1 .width) := by
  obtain ⟨r, hr, -, hall⟩ := Grown.signalNames_resolveTree (t := oddNames) {} (grown_grow _ _)
    (show oddNames.root = some 0 from rfl)
  have hviews : ∀ id v, oddNames.view? id = some v → Text.beginsWithDigit v.name = false := by
    intro id v hv
    have hmem : v ∈ oddNames.views.toList := Array.mem_toList_iff.mpr (Array.mem_of_getElem? hv)
    have hnames : ∀ v ∈ oddNames.views.toList, Text.beginsWithDigit v.name = false := by decide +kernel
    exact hnames v hmem
  have hids := hall hviews (by decide +kernel)
  refine ⟨r, hr, hids _ (.inl ?_), hids _ (.inr ⟨1, ?_, .width, rfl⟩)⟩ <;>
    rw [resolveTree_of_root (show oddNames.root = some 0 from rfl)] at hr <;>
    obtain rfl := Except.ok.inj hr <;> decide +kernel

/-- A unit view with a name that begins with a digit. -/
def digitFirst : ViewTree := grow { name := "1st", kind := .unit {} } []

/-- **A declared signal need not be an identifier**: a digit in front of a name is kept, so a unit
view called `1st` declares `1st_width`, and reads its width under that name. -/
theorem not_identifier_digitFirst :
    digitFirst.Grown ∧ ∃ r, digitFirst.resolveTree {} = .ok r ∧
      "1st_width" ∈ r.value.declared {} ∧ r.value.sizeSignal 0 .width = "1st_width" ∧
        ¬ IsIdentifier "1st_width" :=
  ⟨grown_grow _ _, _, rfl, by decide +kernel, by decide +kernel, fun h => absurd h.start (by decide)⟩

end ViewTree

end ChartCompiler
