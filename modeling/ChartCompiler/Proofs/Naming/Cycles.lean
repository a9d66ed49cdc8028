import ChartCompiler.Proofs.Naming.Replay
import Mathlib.Dynamics.PeriodicPts.Defs

/-!
# Names that are resolved through any renames

Renames may come in any order, repeat a name, rename it to itself, or lead round in a cycle.

* `Renames.latest` — the name that a name was renamed to last, and the name itself if it never was.
  A chain of renames is the iteration of this function, and it ends where the function keeps a name.
* `Renames.resolve_eq_iterate` — resolving a name follows its chain for one step more than there are
  renamed names.
* `Renames.exists_repetition` — a chain that has not ended within as many steps has come by some
  name twice.
* `Renames.resolve_renameAll` — **what a name is resolved to**: the end of its chain if it has one,
  and a name on the cycle that the chain runs into otherwise.

`latest` is read off the list of renames alone, without any table. The proofs go through
`Renames.successor`, which is the same function read off the table, `successor_renameAll`. Following
the table stops at a name that stands for itself, while iteration goes on, but it goes on at that
name; so both are the same, and what is known of iterations and of their periods can be used.
-/

namespace ChartCompiler.Renames

open Function

variable {r : Renames}

/-! ## Chains as iterations -/

/-- **The name that a name was renamed to last**, and the name itself if it never was. -/
def latest (aliases : List (String × String)) (name : String) : String :=
  (aliases.reverse.lookup name).getD name

/-- The name that a table leads to in one step; a name that stands for itself stays. -/
def successor (r : Renames) (name : String) : String := (r.next? name).getD name

/-- A table of recorded renames leads to the latest of them. That a rename of a name to itself is as
good as none is seen here. -/
theorem successor_renameAll (aliases : List (String × String)) :
    (renameAll ∅ aliases).successor = latest aliases := by
  funext name
  have htarget : (renameAll ∅ aliases).target? name = aliases.reverse.lookup name := by
    rw [target?_renameAll]
    exact Option.or_none
  rw [successor, next?, htarget, latest]
  cases aliases.reverse.lookup name with
  | none => rfl
  | some new =>
    by_cases h : new = name <;> simp [Option.filter, h]

/-- A name with a next one is led there. -/
theorem successor_of_next? {name new : String} (h : r.next? name = some new) :
    r.successor name = new := by rw [successor, h, Option.getD_some]

/-- A name stands for itself exactly where the table has no next one for it. -/
theorem isFixedPt_successor_iff {name : String} :
    IsFixedPt r.successor name ↔ r.next? name = none := by
  rw [IsFixedPt, successor]
  cases h : r.next? name with
  | none => simp
  | some new =>
    have hne : new ≠ name := by simpa using (Option.filter_eq_some_iff.mp h).2
    simpa using hne

/-- Following the table is iteration, also beyond the end of a chain. -/
theorem follow_eq_iterate (r : Renames) (steps : Nat) (name : String) :
    r.follow steps name = r.successor^[steps] name := by
  induction steps generalizing name with
  | zero => rfl
  | succ steps ih =>
    rw [follow, iterate_succ_apply]
    cases h : r.next? name with
    | none => rw [isFixedPt_successor_iff.mpr h, (isFixedPt_successor_iff.mpr h).iterate steps]
    | some new => rw [successor_of_next? h, ← ih]

/-- **Resolving a name** follows its chain for one step more than there are renamed names. -/
theorem resolve_eq_iterate (r : Renames) (name : String) :
    r.resolve name = r.successor^[r.size + 1] name :=
  r.follow_eq_iterate _ _

/-! ## Chains that end -/

/-- An iteration that has come to a name standing for itself has followed a chain to its end. -/
theorem exists_leads_iterate {n : Nat} {name : String}
    (h : IsFixedPt r.successor (r.successor^[n] name)) :
    ∃ m ≤ n, r.Leads m name (r.successor^[n] name) := by
  induction n generalizing name with
  | zero => exact ⟨0, Nat.le_refl 0, .stop (isFixedPt_successor_iff.mp h)⟩
  | succ n ih =>
    cases hnext : r.next? name with
    | none =>
      rw [(isFixedPt_successor_iff.mpr hnext).iterate (n + 1)]
      exact ⟨0, Nat.zero_le _, .stop hnext⟩
    | some new =>
      rw [iterate_succ_apply, successor_of_next? hnext] at h ⊢
      obtain ⟨m, hm, hleads⟩ := ih h
      exact ⟨m + 1, Nat.succ_le_succ hm, .step hnext hleads⟩

/-! ## Chains that do not end -/

/-- A name that does not stand for itself is one of the table. -/
theorem mem_names_of_successor_ne {name : String} (h : ¬ IsFixedPt r.successor name) :
    name ∈ r.names := by
  rw [isFixedPt_successor_iff] at h
  obtain ⟨new, hnew⟩ := Option.ne_none_iff_exists'.mp h
  exact mem_names_of_target? (Option.filter_eq_some_iff.mp hnew).1

/-- **A chain that does not end comes by some name twice** within as many steps as there are renamed
names, since each name that it comes by is one of those. -/
theorem exists_repetition {name : String}
    (h : ∀ n, ¬ IsFixedPt r.successor (r.successor^[n] name)) :
    ∃ i j, i < j ∧ j ≤ r.size ∧ r.successor^[i] name = r.successor^[j] name := by
  have hmaps : ∀ n ∈ Finset.range (r.size + 1), r.successor^[n] name ∈ r.names.toFinset :=
    fun n _ => List.mem_toFinset.mpr (mem_names_of_successor_ne (h n))
  have hcard : r.names.toFinset.card < (Finset.range (r.size + 1)).card := by
    calc r.names.toFinset.card ≤ r.names.length := List.toFinset_card_le _
      _ = r.size := List.length_map _
      _ < (Finset.range (r.size + 1)).card := by rw [Finset.card_range]; exact Nat.lt_succ_self _
  obtain ⟨i, hi, j, hj, hne, heq⟩ := Finset.exists_ne_map_eq_of_card_lt_of_maps_to hcard hmaps
  rw [Finset.mem_range, Nat.lt_succ_iff] at hi hj
  rcases Nat.lt_or_gt_of_ne hne with hlt | hlt
  · exact ⟨i, j, hlt, hj, heq⟩
  · exact ⟨j, i, hlt, hi, heq.symm⟩

/-- **A chain that does not end is resolved to a name on a cycle**: the way to the cycle is used up
before the last step. The cycle has two names at least, because a cycle of one name is where a chain
ends. -/
theorem two_le_minimalPeriod_resolve {name : String}
    (h : ∀ n, ¬ IsFixedPt r.successor (r.successor^[n] name)) :
    2 ≤ minimalPeriod r.successor (r.resolve name) := by
  obtain ⟨i, j, hlt, hj, heq⟩ := exists_repetition h
  have hcycle : IsPeriodicPt r.successor (j - i) (r.successor^[i] name) := by
    rw [IsPeriodicPt, IsFixedPt, ← iterate_add_apply, Nat.sub_add_cancel (Nat.le_of_lt hlt)]
    exact heq.symm
  have hresolve : r.resolve name = r.successor^[r.size + 1 - i] (r.successor^[i] name) := by
    rw [resolve_eq_iterate, ← iterate_add_apply, Nat.sub_add_cancel (by omega)]
  have hpos : 0 < minimalPeriod r.successor (r.resolve name) := by
    rw [hresolve]
    exact (hcycle.apply_iterate _).minimalPeriod_pos (Nat.sub_pos_of_lt hlt)
  have hne : minimalPeriod r.successor (r.resolve name) ≠ 1 := by
    rw [Ne, minimalPeriod_eq_one_iff_isFixedPt, resolve_eq_iterate]
    exact h _
  omega

/-! ## Any renames -/

/-- **What a name is resolved to**, whatever was renamed before. A chain that comes to a name which was
not renamed, or was last renamed to itself, is followed to this name, in at most as many steps as there
are renamed names; what it is resolved to stands for itself, and chains that meet are resolved to the
same name. A chain that comes to no such name runs into a cycle of at least two names, and is resolved to
one of these. -/
theorem resolve_renameAll (aliases : List (String × String)) :
    (∀ name n, IsFixedPt (latest aliases) ((latest aliases)^[n] name) →
      (renameAll ∅ aliases).resolve name = (latest aliases)^[n] name ∧
      (renameAll ∅ aliases).resolve ((renameAll ∅ aliases).resolve name) =
        (renameAll ∅ aliases).resolve name ∧
      (∃ k ≤ (renameAll ∅ aliases).size, (latest aliases)^[k] name = (latest aliases)^[n] name) ∧
      ∀ name' m m', (latest aliases)^[m] name = (latest aliases)^[m'] name' →
        (renameAll ∅ aliases).resolve name' = (renameAll ∅ aliases).resolve name) ∧
    ∀ name, (∀ n, ¬ IsFixedPt (latest aliases) ((latest aliases)^[n] name)) →
      (∃ n, (renameAll ∅ aliases).resolve name = (latest aliases)^[n] name) ∧
        2 ≤ minimalPeriod (latest aliases) ((renameAll ∅ aliases).resolve name) := by
  rw [← successor_renameAll]
  generalize renameAll ∅ aliases = r
  have hend : ∀ {name : String} {n : Nat}, IsFixedPt r.successor (r.successor^[n] name) →
      r.resolve name = r.successor^[n] name := fun h =>
    have ⟨_, _, hleads⟩ := exists_leads_iterate h
    hleads.resolve_eq
  refine ⟨fun name n h => ⟨hend h, ?_, ?_, ?_⟩, fun name h => ⟨⟨_, r.resolve_eq_iterate name⟩,
    two_le_minimalPeriod_resolve h⟩⟩
  · rw [hend h]
    exact hend (n := 0) h
  · obtain ⟨m, -, hleads⟩ := exists_leads_iterate h
    refine ⟨m, hleads.length_le_size, ?_⟩
    rw [← follow_eq_iterate]
    exact hleads.follow_eq (Nat.le_refl m)
  · intro name' m m' hmeet
    -- Beyond the end of the first chain both have come to the name at which it ends.
    have hlast : r.successor^[n + m'] name' = r.successor^[n] name := by
      rw [iterate_add_apply, ← hmeet, ← iterate_add_apply, Nat.add_comm, iterate_add_apply]
      exact h.iterate m
    rw [hend h, ← hlast]
    exact hend (hlast ▸ h)

/-- A chain of two renames behind one that was overwritten, and a cycle of two names with a name that
leads to it. -/
def chainAndCycle : List (String × String) :=
  [("a", "z"), ("b", "c"), ("a", "b"), ("c", "c"), ("p", "q"), ("q", "p"), ("o", "p")]

/-- The chain is followed to the name that was renamed to itself, and the other name is resolved to
one on the cycle. -/
theorem resolve_chainAndCycle :
    (renameAll ∅ chainAndCycle).resolve "a" = "c" ∧
      2 ≤ minimalPeriod (latest chainAndCycle) ((renameAll ∅ chainAndCycle).resolve "o") := by
  have hround : ∀ n, (latest chainAndCycle)^[n] "o" ∈ ["o", "p", "q"] := by
    intro n
    induction n with
    | zero => decide
    | succ n ih =>
      rw [iterate_succ_apply']
      have hstep : ∀ name ∈ ["o", "p", "q"], latest chainAndCycle name ∈ ["o", "p", "q"] := by decide
      exact hstep _ ih
  have hmoves : ∀ name ∈ ["o", "p", "q"], latest chainAndCycle name ≠ name := by decide
  obtain ⟨hends, hcycles⟩ := resolve_renameAll chainAndCycle
  exact ⟨(hends "a" 2 (show latest chainAndCycle "c" = "c" by decide)).1,
    (hcycles "o" fun n => hmoves _ (hround n)).2⟩

end ChartCompiler.Renames
