import ChartCompiler.Decimal.Rounding
import ChartCompiler.Json.Basic
import ChartCompiler.Keyword

/-!
# JSON forms

* `Schema α` — **the JSON form of a type**: `decode?` reads it and fails on anything else, `encode`
  writes it.
* `Record` — the named properties of a value. A record is written as an object, or as the array of
  its properties in their fixed order; an object may have further members, which are ignored, but no
  property twice.
* `Record.optional`, `Record.required`, `Record.withDefault` — the three ways a property is read.
* `Json.record` — writes the properties that are set.
-/

namespace ChartCompiler

/-- **The JSON form of a type.** -/
class Schema (α : Type) where
  /-- The value that a form is read as, if it is one. -/
  decode? : Json → Option α
  /-- The form of a value. -/
  encode : α → Json

export Schema (decode? encode)

/-! ## Plain values -/

/-- The float nearest to a number. -/
def Number.toFloat : Number → Float
  | .integer i => if i < 0 then -(Decimal.toFloat ⟨i.natAbs, 0⟩) else Decimal.toFloat ⟨i.natAbs, 0⟩
  | .float x => x

/-- Floats may be spelled as integers. A number beyond the range of floats is refused. -/
instance : Schema Float where
  decode?
    | .number n => if n.toFloat.isFinite then some n.toFloat else none
    | _ => none
  encode x := .ofFloat x

/-- Truth values have words of their own. -/
instance : Schema Bool where
  decode?
    | .bool b => some b
    | _ => none
  encode b := .bool b

/-- Texts stand for themselves. -/
instance : Schema String where
  decode?
    | .string s => some s
    | _ => none
  encode s := .string s

/-- A count must be spelled as an integer. -/
instance : Schema UInt32 where
  decode?
    | .number (.integer i) => if 0 ≤ i ∧ i < UInt32.size then some (UInt32.ofNat i.toNat) else none
    | _ => none
  encode n := .ofInt n.toNat

/-- Any value is a form of itself. -/
instance : Schema Json where
  decode? := some
  encode := id

/-- Two numbers in an array. -/
instance : Schema (Float × Float) where
  decode?
    | .array [lo, hi] => do
      let lo ← decode? lo
      let hi ← decode? hi
      some (lo, hi)
    | _ => none
  encode p := .array [encode p.1, encode p.2]

/-- A keyword is its word, or an object whose only member has this name and is null. -/
instance {κ : Type} [Keyword κ] : Schema κ where
  decode?
    | .string word => Keyword.ofName? word
    | .object [(word, .null)] => Keyword.ofName? word
    | _ => none
  encode k := .string (Keyword.name k)

/-! ## Records -/

/-- **The properties of a value**, by name. -/
structure Record where
  /-- The properties as they were listed, with names that mean nothing and names that are
  repeated. -/
  members : List (String × Json)

namespace Record

/-- The form of a property. -/
def get? (r : Record) (name : String) : Option Json := r.members.lookup name

/-- The members of an object, or the items of an array under the names of the properties. -/
def named? (names : List String) : Json → Option Record
  | .object members => some ⟨members⟩
  | .array items => some ⟨names.zip items⟩
  | _ => none

/-- Whether a property is given more than once. -/
def repeats (members : List (String × Json)) (name : String) : Bool :=
  1 < (members.filter fun m => m.1 == name).length

/-- Whether a value is written as a record: an object without a property given twice, or an array
that leaves out at most the properties behind the first `least`. -/
def isWellFormed (names : List String) (least : Nat) : Json → Bool
  | .object members => !names.any (repeats members)
  | .array items => least ≤ items.length && items.length ≤ names.length
  | _ => false

/-- **Reads the properties of a value.** -/
def ofJson? (names : List String) (least : Nat) (j : Json) : Option Record :=
  if isWellFormed names least j then named? names j else none

/-- Reads a property that may be missing or null. The outer option tells whether it is well formed,
the inner one whether it is given. -/
def optionalBy {α : Type} (r : Record) (name : String) (read : Json → Option α) :
    Option (Option α) :=
  match r.get? name with
  | none | some .null => some none
  | some value => (read value).map some

/-- **Reads a property that may be missing or null.** -/
def optional {α : Type} [Schema α] (r : Record) (name : String) : Option (Option α) :=
  r.optionalBy name decode?

/-- **Reads a property that must be given.** -/
def required {α : Type} [Schema α] (r : Record) (name : String) : Option α :=
  (r.get? name).bind decode?

/-- **Reads a property that has a value of its own when it is missing.** It may not be null. -/
def withDefault {α : Type} [Schema α] (r : Record) (name : String) (default : α) : Option α :=
  match r.get? name with
  | none => some default
  | some value => decode? value

end Record

/-- A property that is written when it is set. -/
def member {α : Type} [Schema α] (name : String) (value : Option α) : Option (String × Json) :=
  value.map fun v => (name, encode v)

/-- **The object of the properties that are set.** -/
def Json.record (properties : List (Option (String × Json))) : Json :=
  .object (properties.filterMap id)

/-! ## Tables -/

/-- Reads the members of an object as the entries of a table, the last of each key. -/
def Table.ofMembers? {κ α : Type} [Keyword κ] [DecidableEq κ] [Schema α]
    (members : List (String × Json)) : Option (Table κ α) :=
  members.foldlM (fun t m => do
    let key ← Keyword.ofName? m.1
    let value ← decode? m.2
    some (t.insert key value)) ∅

/-- A table is an object with a member for each entry. -/
instance {κ α : Type} [Keyword κ] [DecidableEq κ] [Schema α] : Schema (Table κ α) where
  decode?
    | .object members => Table.ofMembers? members
    | _ => none
  encode t := .object (t.toList.map fun e => (Keyword.name e.1, encode e.2))

end ChartCompiler
