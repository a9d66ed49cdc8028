import ChartCompiler.Explicit
import ChartCompiler.Keyword

/-!
# Tables of authored and inferred values

`PropertyTable κ α` — for each key a possibly unset value and whether it was authored. A key without
an entry reads as an unset inferred value; an unset value can also be stored, and is then an entry.
-/

namespace ChartCompiler

  /-- The entries that are stored, set or unset. -/
@[ext] structure PropertyTable (κ α : Type) where
  entries : Table κ (Explicit (Option α))

namespace PropertyTable

variable {κ α : Type}

/-- The table without entries. -/
def empty : PropertyTable κ α := ⟨∅⟩

/-- The table without entries is written `∅`. -/
instance : EmptyCollection (PropertyTable κ α) := ⟨empty⟩

/-- A table may start without entries. -/
instance : Inhabited (PropertyTable κ α) := ⟨empty⟩

/-- Stores an entry, which may be unset. -/
def put [DecidableEq κ] (t : PropertyTable κ α) (key : κ) (entry : Explicit (Option α)) :
    PropertyTable κ α :=
  ⟨t.entries.insert key entry⟩

/-- Stores a value. -/
def set [DecidableEq κ] (t : PropertyTable κ α) (key : κ) (value : α) (isExplicit : Bool) :
    PropertyTable κ α :=
  t.put key ⟨some value, isExplicit⟩

/-- **The entry of a key**; an unset inferred value where there is none. -/
def entry (t : PropertyTable κ α) (key : κ) : Explicit (Option α) :=
  (t.entries.get? key).getD (.inferred none)

/-- The value of a key, if it is set. -/
def get? (t : PropertyTable κ α) (key : κ) : Option α := (t.entry key).value

/-- Whether the entry of a key was authored. -/
def isExplicit (t : PropertyTable κ α) (key : κ) : Bool := (t.entry key).isExplicit

/-- Whether there is an entry, set or unset. -/
def contains (t : PropertyTable κ α) (key : κ) : Bool := t.entries.contains key

/-- The entries in the order of the keys. -/
def toList [Keyword κ] (t : PropertyTable κ α) : List (κ × Explicit (Option α)) :=
  t.entries.toList

/-- Without entries every key reads as unset and inferred. -/
@[simp] theorem entry_empty (key : κ) : (∅ : PropertyTable κ α).entry key = .inferred none := rfl

/-- An entry that was stored is read. -/
@[simp] theorem entry_put_self [DecidableEq κ] (t : PropertyTable κ α) (key : κ)
    (e : Explicit (Option α)) : (t.put key e).entry key = e := by
  simp [put, entry]

end PropertyTable

end ChartCompiler
