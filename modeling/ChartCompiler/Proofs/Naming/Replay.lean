import ChartCompiler.Proofs.Naming.Chains
import Mathlib.Data.List.Nodup

/-!
# Recording further renames

A table can be given further renames of names that it holds already.

* `Renames.target?_renameAll` — a name goes by the last of several renames of it.
* `Renames.names` — the names that a table renames, in the order they came; a table with distinct
  names is told by them and by what each of them goes by, `Renames.ext_target?`.
* `Renames.renameAll_eq_self_iff` — **further renames leave a table as it is** exactly where the
  last of them says what the table says already, for every name that they rename.

Two tables are the same only if their entries come in the same order, so it is not enough that they
rename every name alike. A rename of a name that the table holds is written where the name stands,
which keeps the order; one of a new name goes to the end.
-/

namespace ChartCompiler.Renames

variable {r : Renames}

/-! ## Tables by their names -/

/-- A name goes by the last of several renames of it, and by what it went by before if there are
none. -/
theorem target?_renameAll (aliases : List (String × String)) (r : Renames) (name : String) :
    (r.renameAll aliases).target? name = (aliases.reverse.lookup name).or (r.target? name) := by
  induction aliases generalizing r with
  | nil => rfl
  | cons a rest ih =>
    show ((r.rename a.1 a.2).renameAll rest).target? name = _
    rw [ih, target?_rename, List.reverse_cons, List.lookup_append, Option.or_assoc]
    congr 1
    by_cases h : name = a.1
    · subst h
      rw [if_pos rfl, List.lookup_cons_self, Option.some_or]
    · have hne : (name == a.1) = false := by simpa using h
      rw [if_neg h, List.lookup_cons, hne, List.lookup_nil, Option.none_or]

/-- The names that a table renames, in the order they came. -/
def names (r : Renames) : List String := r.entries.map Prod.fst

/-- A rename keeps the names of a table and their order, and adds its own behind them if it is
new. -/
theorem names_rename (r : Renames) (old new : String) :
    (r.rename old new).names = if old ∈ r.names then r.names else r.names ++ [old] := by
  unfold names rename
  induction r.entries with
  | nil => simp [put]
  | cons e rest ih =>
    obtain ⟨name, target⟩ := e
    rw [put]
    by_cases h : name = old
    · simp [h]
    · have hne : old ≠ name := Ne.symm h
      rw [if_neg h, List.map_cons, List.map_cons, ih]
      by_cases hmem : old ∈ rest.map Prod.fst
      · rw [if_pos hmem, if_pos (List.mem_cons_of_mem _ hmem)]
      · rw [if_neg hmem, if_neg (List.not_mem_cons_of_ne_of_not_mem hne hmem), List.cons_append]

/-- Recording renames keeps the names of a table apart. -/
theorem nodup_names_renameAll (h : r.names.Nodup) (aliases : List (String × String)) :
    (r.renameAll aliases).names.Nodup := by
  induction aliases generalizing r with
  | nil => exact h
  | cons a rest ih =>
    refine ih (r := r.rename a.1 a.2) ?_
    rw [names_rename]
    split
    · exact h
    · rename_i hnot
      exact List.nodup_append.mpr ⟨h, List.nodup_singleton _, fun x hx y hy hxy =>
        hnot (List.mem_singleton.mp hy ▸ hxy ▸ hx)⟩

/-- A name that goes by another one is one of the table. -/
theorem mem_names_of_target? {name target : String} (h : r.target? name = some target) :
    name ∈ r.names := by
  obtain ⟨before, after, hentries, -⟩ := List.lookup_eq_some_iff.mp h
  rw [names, hentries]
  simp

/-- Renaming names that the table holds adds none. -/
theorem names_renameAll_of_mem {aliases : List (String × String)}
    (h : ∀ a ∈ aliases, a.1 ∈ r.names) : (r.renameAll aliases).names = r.names := by
  induction aliases generalizing r with
  | nil => rfl
  | cons a rest ih =>
    have hnames : (r.rename a.1 a.2).names = r.names := by
      rw [names_rename, if_pos (h a List.mem_cons_self)]
    show ((r.rename a.1 a.2).renameAll rest).names = r.names
    rw [ih fun b hb => hnames ▸ h b (List.mem_cons_of_mem _ hb), hnames]

/-- **A table with distinct names** is told by them and by what each of them goes by. Were a name to
stand there twice, its second entry would never be looked at. -/
theorem ext_target? {r r' : Renames} (hnodup : r.names.Nodup) (hnames : r.names = r'.names)
    (h : ∀ name, r.target? name = r'.target? name) : r = r' := by
  obtain ⟨entries⟩ := r
  obtain ⟨entries'⟩ := r'
  simp only [names] at hnodup hnames
  simp only [target?] at h
  congr 1
  induction entries generalizing entries' with
  | nil => exact (List.map_eq_nil_iff.mp hnames.symm).symm
  | cons e rest ih =>
    obtain ⟨name, target⟩ := e
    obtain ⟨⟨name', target'⟩, rest', rfl, rfl, hrest⟩ := List.map_eq_cons_iff.mp hnames.symm
    rw [List.map_cons, List.nodup_cons] at hnodup
    have hfirst := h name'
    rw [List.lookup_cons_self, List.lookup_cons_self, Option.some.injEq] at hfirst
    -- The name in front is not among the others, which is all that a look-up of it could tell apart.
    have hnone : ∀ {l : List (String × String)}, name' ∉ l.map Prod.fst → l.lookup name' = none :=
      fun hnot => List.lookup_eq_none_iff.mpr fun e he =>
        bne_iff_ne.mpr fun heq => hnot (List.mem_map.mpr ⟨e, he, heq.symm⟩)
    rw [hfirst, ih hnodup.2 rest' hrest.symm fun other => ?_]
    by_cases hother : other = name'
    · subst hother
      rw [hnone hnodup.1, hnone (hrest ▸ hnodup.1)]
    · have hne : (other == name') = false := by simpa using hother
      have := h other
      rwa [List.lookup_cons, List.lookup_cons, hne] at this

/-! ## Tables that stay the same -/

/-- **Further renames leave a table as it is** exactly where the last of them for a name says what
the table says already. Earlier renames of the same name may say anything. -/
theorem renameAll_eq_self_iff (hnodup : r.names.Nodup) {aliases : List (String × String)} :
    r.renameAll aliases = r ↔
      ∀ name target, aliases.reverse.lookup name = some target → r.target? name = some target := by
  constructor
  · intro h name target hlast
    rw [← h, target?_renameAll, hlast, Option.some_or]
  · intro h
    have hmem : ∀ a ∈ aliases, a.1 ∈ r.names := by
      intro a ha
      have hsome : (aliases.reverse.lookup a.1).isSome = true :=
        List.lookup_isSome_iff.mpr ⟨a, List.mem_reverse.mpr ha, beq_self_eq_true a.1⟩
      obtain ⟨target, htarget⟩ := Option.isSome_iff_exists.mp hsome
      exact mem_names_of_target? (h a.1 target htarget)
    refine ext_target? (nodup_names_renameAll hnodup aliases) (names_renameAll_of_mem hmem)
      fun name => ?_
    rw [target?_renameAll]
    cases hlast : aliases.reverse.lookup name with
    | none => rw [Option.none_or]
    | some target => rw [h name target hlast, Option.some_or]

end ChartCompiler.Renames
