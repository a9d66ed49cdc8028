import ChartCompiler.Naming.Renames
import Mathlib.Data.List.Perm.Subperm

/-!
# Chains of renames

A name that was renamed goes by another name, and this one may have been renamed as well. What a
name is resolved to is found by following such a chain to its end.

* `Renames.renameAll` — a list of renames recorded one after the other. Where no name is renamed in
  two ways, `Renames.target?_renameAll_eq_some_iff` tells the table from the list.
* `Renames.Leads` — **the chain from a name to the name that stands for itself**, with its length.
* `Renames.Leads.length_le_size` — a chain is never longer than the table: a name that came up twice
  would come up again and again.
* `Renames.Leads.resolve_eq` — **resolving a name finds the end of its chain**, however long.

Resolving follows the table for a number of steps that is fixed beforehand, one more than the table
has entries. That this is enough for every chain that ends is what the bound on the length is for;
chains that do not end are left to `Renames.resolve_renameAll`.
-/

namespace ChartCompiler.Renames

variable {r : Renames}

/-! ## Recording renames -/

/-- The table after a list of renames, each an old name with its new one. A later rename of a name
takes the place of an earlier one. -/
def renameAll (r : Renames) (aliases : List (String × String)) : Renames :=
  aliases.foldl (fun r a => r.rename a.1 a.2) r

/-- No renames leave the table as it is. -/
@[simp] theorem renameAll_nil (r : Renames) : r.renameAll [] = r := rfl

/-- Two lists of renames may be recorded one after the other. -/
theorem renameAll_append (r : Renames) (aliases more : List (String × String)) :
    r.renameAll (aliases ++ more) = (r.renameAll aliases).renameAll more :=
  List.foldl_append

/-- The table after renames of which no two rename one name differently: a name goes by what the list
says, or else by what the table said before. -/
theorem target?_renameAll_eq_some_iff {aliases : List (String × String)}
    (hone : ∀ a ∈ aliases, ∀ b ∈ aliases, a.1 = b.1 → a.2 = b.2) (r : Renames) {old new : String} :
    (r.renameAll aliases).target? old = some new ↔
      (old, new) ∈ aliases ∨ (∀ other, (old, other) ∉ aliases) ∧ r.target? old = some new := by
  induction aliases generalizing r with
  | nil => simp
  | cons a rest ih =>
    have hrest := ih (fun b hb c hc => hone b (List.mem_cons_of_mem _ hb) c
      (List.mem_cons_of_mem _ hc)) (r.rename a.1 a.2)
    change ((r.rename a.1 a.2).renameAll rest).target? old = some new ↔ _
    rw [hrest, target?_rename]
    by_cases hold : old = a.1
    · subst hold
      have hnew : ∀ other, (a.1, other) ∈ rest → other = a.2 := fun other hmem =>
        (hone a (List.mem_cons_self ..) _ (List.mem_cons_of_mem _ hmem) rfl).symm
      constructor
      · rintro (hmem | ⟨-, hlast⟩)
        · exact .inl (List.mem_cons_of_mem _ hmem)
        · rw [if_pos rfl, Option.some.injEq] at hlast
          exact .inl (hlast ▸ List.mem_cons_self ..)
      · rintro (hmem | ⟨hnone, -⟩)
        · have hnew' : new = a.2 := by
            rcases List.mem_cons.mp hmem with he | hmem
            · rw [← he]
            · exact hnew new hmem
          by_cases hagain : (a.1, new) ∈ rest
          · exact .inl hagain
          · refine .inr ⟨fun other hmem' => hagain ?_, by rw [if_pos rfl, hnew']⟩
            rw [hnew', ← hnew other hmem']
            exact hmem'
        · exact absurd (List.mem_cons_self ..) (hnone a.2)
    · have hne : ∀ other, (old, other) ≠ a := fun other he => hold (he ▸ rfl)
      simp [hold, hne]

/-! ## Chains -/

/-- A name that the table does not rename has no next one. -/
theorem next?_eq_none_of_target? {name : String} (h : r.target? name = none) :
    r.next? name = none := by
  rw [next?, h]
  rfl

/-- A name that is renamed to another one has this as its next one. -/
theorem next?_of_target? {name next : String} (h : r.target? name = some next)
    (hne : next ≠ name) : r.next? name = some next := by
  simp [next?, h, hne]

/-- **The chain of renames from a name** to one that stands for itself, with its length. A name that
is renamed to itself stands for itself, like one that was never renamed. -/
inductive Leads (r : Renames) : Nat → String → String → Prop
  | stop {name : String} (h : r.next? name = none) : Leads r 0 name name
  | step {n : Nat} {name next last : String} (h : r.next? name = some next)
      (rest : Leads r n next last) : Leads r (n + 1) name last

namespace Leads

/-- A name has one chain. -/
theorem length_unique {n m : Nat} {name last last' : String} (h : r.Leads n name last)
    (h' : r.Leads m name last') : n = m := by
  induction h generalizing m with
  | stop hstop =>
    cases h' with
    | stop _ => rfl
    | step hstep _ => rw [hstop] at hstep; cases hstep
  | step hstep _ ih =>
    cases h' with
    | stop hstop => rw [hstop] at hstep; cases hstep
    | step hstep' rest' =>
      rw [hstep] at hstep'
      obtain rfl := Option.some.inj hstep'
      rw [ih rest']

/-- The names that a chain comes by are different and all renamed. Each of them has a chain of its
own to the same end, a shorter one the later it comes, and a name has one chain only. -/
theorem exists_names {n : Nat} {name last : String} (h : r.Leads n name last) :
    ∃ names : List String, names.length = n ∧ names.Nodup ∧
      ∀ x ∈ names, (∃ m, m ≤ n ∧ r.Leads m x last) ∧ r.has x = true := by
  induction h with
  | stop _ => exact ⟨[], rfl, List.nodup_nil, fun x hx => absurd hx List.not_mem_nil⟩
  | @step n name next last hstep rest ih =>
    obtain ⟨names, hlength, hnodup, hnames⟩ := ih
    have hchain : r.Leads (n + 1) name last := .step hstep rest
    have hfresh : name ∉ names := by
      intro hmem
      obtain ⟨⟨m, hle, hm⟩, -⟩ := hnames name hmem
      have := hm.length_unique hchain
      omega
    have hhas : r.has name = true := by
      have := (Option.filter_eq_some_iff.mp hstep).1
      rw [has, this]
      rfl
    refine ⟨name :: names, by rw [List.length_cons, hlength],
      List.nodup_cons.mpr ⟨hfresh, hnodup⟩, fun x hx => ?_⟩
    rcases List.mem_cons.mp hx with rfl | hx
    · exact ⟨⟨n + 1, Nat.le_refl _, hchain⟩, hhas⟩
    · obtain ⟨⟨m, hle, hm⟩, hx'⟩ := hnames x hx
      exact ⟨⟨m, by omega, hm⟩, hx'⟩

/-- **A chain is never longer than the table**: the names that it comes by are all different, and
all of them are entries. -/
theorem length_le_size {n : Nat} {name last : String} (h : r.Leads n name last) : n ≤ r.size := by
  obtain ⟨names, rfl, hnodup, hnames⟩ := h.exists_names
  have hkeys : names ⊆ r.entries.map Prod.fst := by
    intro x hx
    have hhas := (hnames x hx).2
    unfold has target? at hhas
    obtain ⟨new, hnew⟩ := Option.isSome_iff_exists.mp hhas
    obtain ⟨l₁, l₂, hsplit, -⟩ := List.lookup_eq_some_iff.mp hnew
    rw [hsplit]
    simp
  calc names.length ≤ (r.entries.map Prod.fst).length := (hnodup.subperm hkeys).length_le
    _ = r.size := List.length_map _

/-- Enough steps along the table reach the end of the chain. Steps that are left over stay there. -/
theorem follow_eq {n : Nat} {name last : String} (h : r.Leads n name last) {steps : Nat}
    (hsteps : n ≤ steps) : r.follow steps name = last := by
  induction h generalizing steps with
  | stop hstop =>
    cases steps with
    | zero => rfl
    | succ steps => rw [follow, hstop]
  | step hstep _ ih =>
    cases steps with
    | zero => omega
    | succ steps =>
      rw [follow, hstep]
      exact ih (by omega)

/-- **Resolving a name finds the end of its chain**, however long the chain is. -/
theorem resolve_eq {n : Nat} {name last : String} (h : r.Leads n name last) :
    r.resolve name = last :=
  h.follow_eq (Nat.le_succ_of_le h.length_le_size)

/-- The end of a chain stands for itself. -/
theorem last {n : Nat} {name last : String} (h : r.Leads n name last) : r.Leads 0 last last := by
  induction h with
  | stop hstop => exact .stop hstop
  | step _ _ ih => exact ih

end Leads

end ChartCompiler.Renames
