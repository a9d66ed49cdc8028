/-!
# Keywords and tables keyed by them

* `Keyword κ` — an enumeration whose members are written as fixed words: channels, mark types, scale
  types, aggregates. The class lists the members in their fixed order and names each of them; every
  member is listed and no two share a name.
* `Keyword.ofName?` — reading a word; `ofName?_name` says that it undoes `Keyword.name`.
* `Table κ α` — a table over an enumerated key type. It is the partial function itself, so two tables
  with the same entries are equal; `Table.toList` lists the entries in the order of the keys.
-/

namespace ChartCompiler

/-! ## Keywords -/

/-- **An enumeration of fixed words**, listed in its own order. -/
class Keyword (κ : Type) where
  /-- Every member, in order. -/
  all : List κ
  /-- The word a member is written as. -/
  name : κ → String
  /-- No member is missing from the list. -/
  mem_all : ∀ k, k ∈ all
  /-- No two members share a word. -/
  nodup_names : (all.map name).Nodup

namespace Keyword

variable {κ : Type} [Keyword κ]

/-- The member a word names. Words are compared letter by letter, capitals included. -/
def ofName? (word : String) : Option κ :=
  (all : List κ).find? fun k => name k == word

/-- Members of a list with distinct names are found by name. -/
theorem find?_name_eq {ks : List κ} (hnodup : (ks.map name).Nodup) {k : κ} (hk : k ∈ ks) :
    ks.find? (fun k' => name k' == name k) = some k := by
  induction ks with
  | nil => cases hk
  | cons k' rest ih =>
    rw [List.map_cons, List.nodup_cons] at hnodup
    rcases List.mem_cons.mp hk with rfl | hrest
    · simp
    · have hne : name k' ≠ name k := fun h => hnodup.1 (h ▸ List.mem_map_of_mem hrest)
      rw [List.find?_cons_of_neg (by simpa using hne)]
      exact ih hnodup.2 hrest

/-- Reading a member's own word gives the member back. -/
@[simp] theorem ofName?_name (k : κ) : ofName? (name k) = some k :=
  find?_name_eq nodup_names (mem_all k)

/-- Different members have different words. -/
theorem name_injective {a b : κ} (h : name a = name b) : a = b := by
  have ha := ofName?_name a
  rw [h, ofName?_name b] at ha
  exact (Option.some.inj ha).symm

end Keyword

/-! ## Tables -/

  /-- The entry of a key. -/
@[ext] structure Table (κ α : Type) where
  get? : κ → Option α

namespace Table

variable {κ α : Type}

/-- The table without entries. -/
def empty : Table κ α := ⟨fun _ => none⟩

/-- The table without entries is written `∅`. -/
instance : EmptyCollection (Table κ α) := ⟨empty⟩

/-- A table may start without entries. -/
instance : Inhabited (Table κ α) := ⟨empty⟩

/-- The table with `key`'s entry set to `a`, whatever it was before. -/
def insert [DecidableEq κ] (t : Table κ α) (key : κ) (a : α) : Table κ α :=
  ⟨fun k => if k = key then some a else t.get? k⟩

/-- Whether `key` has an entry. -/
def contains (t : Table κ α) (key : κ) : Bool := (t.get? key).isSome

/-- The entries in the order of the keys. -/
def toList [Keyword κ] (t : Table κ α) : List (κ × α) :=
  (Keyword.all : List κ).filterMap fun k => (t.get? k).map fun a => (k, a)

/-- The table with the listed entries; of two entries for one key the later one stays. -/
def ofList [DecidableEq κ] (entries : List (κ × α)) : Table κ α :=
  entries.foldl (fun t e => t.insert e.1 e.2) empty

/-- Without entries no key has one. -/
@[simp] theorem get?_empty (k : κ) : (∅ : Table κ α).get? k = none := rfl

/-- An entry that was set is found. -/
@[simp] theorem get?_insert_self [DecidableEq κ] (t : Table κ α) (k : κ) (a : α) :
    (t.insert k a).get? k = some a := by simp [insert]

/-- Setting one entry leaves those of other keys alone. -/
theorem get?_insert_of_ne [DecidableEq κ] (t : Table κ α) {k k' : κ} (h : k ≠ k') (a : α) :
    (t.insert k' a).get? k = t.get? k := by simp [insert, h]

/-- An entry is listed exactly when it is in the table. -/
theorem mem_toList [Keyword κ] (t : Table κ α) (k : κ) (a : α) :
    (k, a) ∈ t.toList ↔ t.get? k = some a := by
  unfold toList
  rw [List.mem_filterMap]
  constructor
  · rintro ⟨k', _, h⟩
    obtain ⟨a', ha', heq⟩ := Option.map_eq_some_iff.mp h
    obtain ⟨rfl, rfl⟩ := Prod.mk.inj heq
    exact ha'
  · intro h
    exact ⟨k, Keyword.mem_all k, by rw [h]; rfl⟩

end Table

end ChartCompiler
