/-!
# Renamed signals

`Renames` — a table of signals that now go by another name. A renamed signal keeps its owner; the
table only says which name a reference to it reads. `Renames.resolve` follows the table until a name
stands for itself. A chain without a cycle is never longer than the table, so as many steps as there
are entries, and one more, reach its end; the same bound stops a cycle.
-/

namespace ChartCompiler

/-- **Table of renamed signals**: each name at most once, with the name that replaced it. -/
structure Renames where
  /-- The renamed signals with their new names, in the order in which they first came. -/
  entries : List (String × String)
deriving DecidableEq, Repr, Inhabited

namespace Renames

/-- The table without renames. -/
def empty : Renames := ⟨[]⟩

/-- The table without renames is written `∅`. -/
instance : EmptyCollection Renames := ⟨empty⟩

/-- What a name was last renamed to. -/
def target? (r : Renames) (name : String) : Option String := r.entries.lookup name

/-- Whether a name was renamed. -/
def has (r : Renames) (name : String) : Bool := (r.target? name).isSome

/-- The number of renamed signals. -/
def size (r : Renames) : Nat := r.entries.length

/-- The entries with the one of `old` replaced, or added behind all others. -/
def put (old new : String) : List (String × String) → List (String × String)
  | [] => [(old, new)]
  | (name, target) :: rest =>
    if name = old then (old, new) :: rest else (name, target) :: put old new rest

/-- **Renames a signal**, forgetting what it was renamed to before. -/
def rename (r : Renames) (old new : String) : Renames := ⟨put old new r.entries⟩

/-- The name one step along the table; none where a name stands for itself. -/
def next? (r : Renames) (name : String) : Option String :=
  (r.target? name).filter (· != name)

/-- Follows the table for at most `steps` steps. -/
def follow (r : Renames) : Nat → String → String
  | 0, name => name
  | steps + 1, name =>
    match r.next? name with
    | some next => r.follow steps next
    | none => name

/-- **The name a reference to `name` reads.** -/
def resolve (r : Renames) (name : String) : String := r.follow (r.size + 1) name

/-! ## Laws -/

/-- After an entry is put in place, its name is found with the new target, and every other name as
before. -/
theorem lookup_put (old new name : String) (entries : List (String × String)) :
    (put old new entries).lookup name =
      if name = old then some new else entries.lookup name := by
  induction entries with
  | nil =>
    rw [put, List.lookup_cons, List.lookup_nil]
    by_cases h : name = old
    · simp [h]
    · have hb : (name == old) = false := by simpa using h
      simp [hb, h]
  | cons e rest ih =>
    obtain ⟨n, t⟩ := e
    rw [put, @List.lookup_cons _ _ t rest]
    by_cases hn : n = old
    · subst hn
      rw [if_pos rfl, List.lookup_cons]
      by_cases h : name = n
      · simp [h]
      · have hb : (name == n) = false := by simpa using h
        simp [hb, h]
    · rw [if_neg hn, List.lookup_cons, ih]
      by_cases h : name = n
      · subst h
        simp [hn]
      · have hb : (name == n) = false := by simpa using h
        simp [hb]

/-- A rename is what the renamed name now leads to, and leaves every other name alone. -/
@[simp] theorem target?_rename (r : Renames) (old new name : String) :
    (r.rename old new).target? name = if name = old then some new else r.target? name :=
  lookup_put old new name r.entries

end Renames

end ChartCompiler
