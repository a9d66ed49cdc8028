import ChartCompiler.Layout.Sharing
import ChartCompiler.Proofs.Float.Equality
import Mathlib.Data.List.Pairwise

/-!
# What merging the sizes of children comes to

`mergeSizes` goes through the children with a size so far, merges each further child's size into it,
and stops at the first one that independent scales keep apart. Here its result is told from the list
of the children's entries as a whole.

* `leading?` — the entry that stands for a list: the first authored one, else the first one.
* `areAlike` — no entry is counted in steps, and no two of them differ.
* `MergedSize.ofEntries` — **what becomes of a list of entries**: none without entries; apart where
  independent scales meet entries that are not alike; else the leading entry for all.
* `value_mergeSizes` — **merging in order comes to `MergedSize.ofEntries`**.

The loop compares a new entry with the size so far only, while being alike is a matter of any two
entries. A size so far is as good as the list it came from because equality of sizes is symmetric
and transitive. It is not reflexive, since a number of pixels may be no number, and so neither
relation asks an entry to equal itself.
-/

namespace ChartCompiler

/-! ## Equality of sizes -/

/-- Equality of sizes is symmetric and transitive, as that of the numbers of pixels is. It is not
reflexive, and no theorem here takes it to be. -/
instance layoutSizePartialEquiv : PartialEquivBEq LayoutSize where
  symm {a b} h := by
    cases a with
    | pixels x =>
      cases b with
      | pixels y => exact PartialEquivBEq.symm (α := Float) h
      | _ => cases h
    | step => cases b <;> first | rfl | cases h
    | merged => cases b <;> first | rfl | cases h
  trans {a b c} h h' := by
    cases b with
    | pixels y =>
      cases a with
      | pixels x =>
        cases c with
        | pixels z => exact PartialEquivBEq.trans (α := Float) h h'
        | _ => cases h'
      | _ => cases h
    | step => cases a <;> first | exact h' | cases h
    | merged => cases a <;> first | exact h' | cases h

/-- **Equality of sizes that may be missing is symmetric and transitive** if that of sizes is: two
missing ones are equal. -/
instance optionPartialEquiv {α : Type} [BEq α] [PartialEquivBEq α] :
    PartialEquivBEq (Option α) where
  symm {a b} h := by
    cases a with
    | none => cases b <;> first | rfl | cases h
    | some x =>
      cases b with
      | none => cases h
      | some y => exact PartialEquivBEq.symm (α := α) h
  trans {a b c} h h' := by
    cases b with
    | none => cases a <;> first | exact h' | cases h
    | some y =>
      cases a with
      | none => cases h
      | some x =>
        cases c with
        | none => cases h'
        | some z => exact PartialEquivBEq.trans (α := α) h h'

/-! ## The leading entry -/

/-- **The entry that stands for a list of entries**: the first authored one, else the first one.
Nothing stands for the empty list. -/
def leading? (entries : List SizeEntry) : Option SizeEntry :=
  entries.find? Explicit.isExplicit <|> entries.head?

/-- A single entry leads, authored or not. -/
@[simp] theorem leading?_singleton (e : SizeEntry) : leading? [e] = some e := by
  unfold leading?
  cases he : e.isExplicit <;> simp [he]

/-- The leading entry is one of the list. -/
theorem mem_of_leading? {entries : List SizeEntry} {e : SizeEntry} (h : leading? entries = some e) :
    e ∈ entries := by
  unfold leading? at h
  cases hfind : entries.find? Explicit.isExplicit with
  | some x =>
    rw [hfind] at h
    obtain rfl : x = e := Option.some.inj h
    exact List.mem_of_find?_eq_some hfind
  | none =>
    rw [hfind] at h
    exact List.mem_of_head? h

/-- A list without entries has no leading one, and only such a list. -/
theorem leading?_eq_none_iff {entries : List SizeEntry} : leading? entries = none ↔ entries = [] := by
  constructor
  · intro h
    cases entries with
    | nil => rfl
    | cons e rest =>
      unfold leading? at h
      cases hfind : (e :: rest).find? Explicit.isExplicit with
      | some x => rw [hfind] at h; cases h
      | none => rw [hfind] at h; cases h
  · rintro rfl
    rfl

/-- The first authored entry of a list is its leading one, if that is authored; otherwise there is
none. -/
theorem find?_isExplicit_of_leading? {entries : List SizeEntry} {e : SizeEntry}
    (h : leading? entries = some e) :
    entries.find? Explicit.isExplicit = if e.isExplicit then some e else none := by
  unfold leading? at h
  cases hfind : entries.find? Explicit.isExplicit with
  | some x =>
    rw [hfind] at h
    obtain rfl : x = e := Option.some.inj h
    have hx : x.isExplicit = true := List.find?_some hfind
    rw [if_pos hx]
  | none =>
    rw [hfind] at h
    have hmem : e ∈ entries := List.mem_of_head? h
    have he := List.find?_eq_none.mp hfind e hmem
    rw [if_neg he]

/-- The first entry of a list is its leading one, if none is authored. -/
theorem head?_of_leading? {entries : List SizeEntry} {e : SizeEntry} (h : leading? entries = some e)
    (hnone : entries.find? Explicit.isExplicit = none) : entries.head? = some e := by
  unfold leading? at h
  rw [hnone] at h
  exact h

/-- A later entry leads only where it is authored and none before it is. This is the step of the
loop: the right-hand side is what merging one more entry into the size so far comes to. -/
theorem leading?_append_singleton {entries : List SizeEntry} {e : SizeEntry}
    (h : leading? entries = some e) (later : SizeEntry) :
    leading? (entries ++ [later]) =
      some (if later.isExplicit && !e.isExplicit then later else e) := by
  unfold leading? at h ⊢
  rw [List.find?_append]
  cases hfind : entries.find? Explicit.isExplicit with
  | some x =>
    rw [hfind] at h
    obtain rfl : x = e := Option.some.inj h
    have hx : x.isExplicit = true := List.find?_some hfind
    simp [hx]
  | none =>
    rw [hfind] at h
    have hhead : entries.head? = some e := h
    have he : e.isExplicit = false := by
      simpa using List.find?_eq_none.mp hfind e (List.mem_of_head? hhead)
    have hhead' : (entries ++ [later]).head? = some e := by
      rw [List.head?_append, hhead]
      rfl
    cases hlater : later.isExplicit <;> simp [hlater, he, hhead']

/-! ## Entries that are alike -/

/-- **Whether entries are alike**: none is counted in steps, and no two differ. Entries in steps are
never alike, not even to each other, because each is counted with a scale of its own. Two entries
may differ in whether they are authored. -/
def areAlike (entries : List SizeEntry) : Bool :=
  entries.all (fun e => !e.value.any LayoutSize.isStep) &&
    decide (entries.Pairwise fun a b => (a.value == b.value) = true)

/-- Being alike as a statement about the entries and their pairs. -/
theorem areAlike_iff {entries : List SizeEntry} :
    areAlike entries = true ↔
      (∀ e ∈ entries, e.value.any LayoutSize.isStep = false) ∧
        entries.Pairwise fun a b => (a.value == b.value) = true := by
  simp [areAlike]

/-- The first entries of a list that is alike are alike. -/
theorem areAlike_of_append {entries rest : List SizeEntry}
    (h : areAlike (entries ++ rest) = true) : areAlike entries = true := by
  rw [areAlike_iff] at h ⊢
  exact ⟨fun e he => h.1 e (List.mem_append_left _ he), (List.pairwise_append.mp h.2).1⟩

/-- Two different entries of a list that is alike have the same value, in whichever order they
stand. -/
theorem beq_value_of_areAlike {entries : List SizeEntry} (h : areAlike entries = true)
    {a b : SizeEntry} (ha : a ∈ entries) (hb : b ∈ entries) (hne : a ≠ b) :
    (a.value == b.value) = true := by
  have : Std.Symm fun a b : SizeEntry => (a.value == b.value) = true :=
    ⟨fun _ _ => PartialEquivBEq.symm⟩
  exact (areAlike_iff.mp h).2.forall ha hb hne

/-- **Only the leading entry needs to be looked at** to see whether a later one is like all others.
If the later one equals the leading one, it equals the rest by transitivity. -/
theorem areAlike_append_singleton {entries : List SizeEntry} {e : SizeEntry}
    (h : leading? entries = some e) (halike : areAlike entries = true) (later : SizeEntry) :
    areAlike (entries ++ [later]) = !keepsApart e later := by
  have hmem : e ∈ entries := mem_of_leading? h
  rw [Bool.eq_iff_iff, areAlike_iff, List.pairwise_append]
  obtain ⟨hsteps, hpairs⟩ := areAlike_iff.mp halike
  unfold keepsApart
  constructor
  · rintro ⟨hall, -, -, hlater⟩
    have hstep := hall later (by simp)
    have heq : (e.value == later.value) = true := hlater e hmem later (by simp)
    simp [hstep, bne, heq]
  · intro hkeep
    rw [Bool.not_eq_true', Bool.or_eq_false_iff] at hkeep
    have heq : (e.value == later.value) = true := by simpa [bne] using hkeep.2
    have hlike : ∀ a ∈ entries, (a.value == later.value) = true := by
      intro a ha
      -- The leading entry need not equal itself, so it is set apart from the others.
      by_cases hae : a = e
      · rw [hae]
        exact heq
      · exact PartialEquivBEq.trans (beq_value_of_areAlike halike ha hmem hae) heq
    refine ⟨?_, hpairs, List.pairwise_singleton _ _, ?_⟩
    · intro a ha
      rcases List.mem_append.mp ha with ha | ha
      · exact hsteps a ha
      · rw [List.mem_singleton.mp ha]
        exact hkeep.1
    · intro a ha b hb
      rw [List.mem_singleton.mp hb]
      exact hlike a ha

/-! ## Merging in order -/

namespace MergedSize

/-- **What becomes of a list of entries** of children, whose scales may be independent. Shared
scales never keep entries apart, whatever they are. -/
def ofEntries (independent : Bool) (entries : List SizeEntry) : MergedSize :=
  match leading? entries with
  | none => childless
  | some e => if independent && !areAlike entries then apart else shared e

/-- The entry that the parent keeps: the shared one, and an unresolved one in both other cases. -/
def entry : MergedSize → SizeEntry
  | shared entry => entry
  | _ => .unresolved

/-- Whether the children leave their sizes to the parent. The shared entry may itself be unresolved:
children whose sizes are all unresolved still leave them. -/
def isShared : MergedSize → Bool
  | shared _ => true
  | _ => false

end MergedSize

/-- **When entries are shared**: the leading one is, unless independent scales keep them apart. -/
theorem MergedSize.ofEntries_eq_shared_iff {independent : Bool} {entries : List SizeEntry}
    {e : SizeEntry} :
    ofEntries independent entries = .shared e ↔
      leading? entries = some e ∧ (independent = true → areAlike entries = true) := by
  unfold ofEntries
  cases leading? entries with
  | none => simp
  | some lead =>
    cases independent with
    | false => simp
    | true => cases areAlike entries <;> simp

/-- There is nothing to merge only where there are no entries. -/
theorem MergedSize.ofEntries_eq_childless_iff {independent : Bool} {entries : List SizeEntry} :
    ofEntries independent entries = .childless ↔ entries = [] := by
  rw [← leading?_eq_none_iff]
  unfold ofEntries
  cases leading? entries with
  | none => simp
  | some lead => cases independent && !areAlike entries <;> simp

/-- **When entries are kept apart**: scales are independent and the entries are not alike. -/
theorem MergedSize.ofEntries_eq_apart_iff {independent : Bool} {entries : List SizeEntry} :
    ofEntries independent entries = .apart ↔
      entries ≠ [] ∧ independent = true ∧ areAlike entries = false := by
  rw [Ne, ← leading?_eq_none_iff]
  unfold ofEntries
  cases leading? entries with
  | none => simp
  | some lead =>
    cases independent with
    | false => simp
    | true => cases areAlike entries <;> simp

/-- Going on after some entries, with their leading one as the size so far, comes to what the whole
list comes to. The induction is on the entries still to come; those gone by stay alike as long as
independent scales have not kept any apart. -/
theorem value_mergeOnto (independent : Bool) (property : Property) {gone : List SizeEntry}
    {e : SizeEntry} (h : leading? gone = some e)
    (halike : independent = true → areAlike gone = true) (rest : List SizeEntry) :
    (mergeOnto independent property e rest).value =
      if independent && !areAlike (gone ++ rest) then none else leading? (gone ++ rest) := by
  induction rest generalizing gone e with
  | nil =>
    have hfine : (independent && !areAlike gone) = false := by
      cases independent with
      | false => rfl
      | true => simp [halike rfl]
    rw [List.append_nil, hfine, h]
    rfl
  | cons later rest ih =>
    have hsplit : gone ++ later :: rest = (gone ++ [later]) ++ rest := by simp
    rw [mergeOnto, hsplit]
    by_cases hkeep : (independent && keepsApart e later) = true
    · obtain ⟨hind, hapart⟩ := Bool.and_eq_true_iff.mp hkeep
      -- The loop stops here, and no later entry can make the list alike again.
      have hunlike : areAlike (gone ++ [later] ++ rest) = false := by
        rw [Bool.eq_false_iff]
        intro hall
        have := areAlike_of_append hall
        rw [areAlike_append_singleton h (halike hind), hapart] at this
        cases this
      rw [if_pos hkeep, hind, hunlike]
      rfl
    · rw [if_neg hkeep, Reported.value_bind, Explicit.value_merge]
      refine ih (leading?_append_singleton h later) fun hind => ?_
      rw [areAlike_append_singleton h (halike hind)]
      simpa [hind] using hkeep

/-- **Merging the children's sizes in order** comes to what the list of them comes to. The first
entry is tested by itself, since the loop that follows never looks back at whether it is counted in
steps. -/
theorem value_mergeSizes (independent : Bool) (property : Property) (entries : List SizeEntry) :
    (mergeSizes independent property entries).value = .ofEntries independent entries := by
  cases entries with
  | nil => rfl
  | cons first rest =>
    have hlead : leading? [first] = some first := leading?_singleton first
    have halike : areAlike [first] = !first.value.any LayoutSize.isStep := by simp [areAlike]
    obtain ⟨e, he⟩ := Option.ne_none_iff_exists'.mp
      (mt leading?_eq_none_iff.mp (List.cons_ne_nil first rest))
    rw [mergeSizes, MergedSize.ofEntries, he]
    by_cases hstep : (independent && first.value.any LayoutSize.isStep) = true
    · obtain ⟨hind, hany⟩ := Bool.and_eq_true_iff.mp hstep
      have hunlike : areAlike (first :: rest) = false := by
        rw [Bool.eq_false_iff]
        intro hall
        have := areAlike_of_append (show areAlike ([first] ++ rest) = true from hall)
        rw [halike, hany] at this
        cases this
      rw [if_pos hstep, hind, hunlike]
      rfl
    · have hgo := value_mergeOnto independent property hlead
        (fun hind => by simpa [halike, hind] using hstep) rest
      rw [if_neg hstep, Reported.value_bind, hgo, List.singleton_append, he]
      cases (independent && !areAlike (first :: rest)) <;> rfl

end ChartCompiler
