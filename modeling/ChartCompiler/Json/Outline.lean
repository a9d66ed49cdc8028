import ChartCompiler.Json.Basic

/-!
# Outlines of JSON texts

Not all that the grammar of JSON allows stands for a value: a text may hold half of a pair of units,
and a number may lie beyond the range of floats. Whether this matters depends on what is read.

* `Outline` — **a JSON text taken apart**, with the values of its leaves where they stand for one.
* `Shape` — which members of a value are read: all of them, or the properties of a record, or the
  entries of a table.
* `Outline.select?` — **the parts of a value that a shape reads**. It fails if one of them stands for
  no value. Members that are not read may hold anything.
-/

namespace ChartCompiler

/-- Whether a number lies within the range of floats. -/
def Number.isFinite : Number → Bool
  | integer _ => true
  | float x => x.isFinite

namespace Json

/-- **A JSON text taken apart.** A leaf, and likewise a name, may stand for nothing. -/
inductive Outline
  | leaf (value : Option Json)
  | array (items : List Outline)
  | object (members : List (Option String × Outline))
deriving Inhabited

/-- **Which parts of a value are read.** -/
inductive Shape
  /-- Everything. -/
  | whole
  /-- The properties of a record, each in its own shape, written as an object or as an array. -/
  | record (properties : List (String × Shape))
  /-- Every entry of an object, in one shape. -/
  | table (entry : Shape)

namespace Shape

/-- The record whose properties are read as a whole. -/
def flat (names : List String) : Shape := record (names.map fun name => (name, whole))

/-- The shape of a member; none if the member is not read. -/
def member? : Shape → String → Option Shape
  | whole, _ => some whole
  | record properties, name => properties.lookup name
  | table entry, _ => some entry

/-- The shape of an item. All items are read. -/
def item : Shape → Nat → Shape
  | record properties, i => (properties[i]?).elim whole Prod.snd
  | _, _ => whole

end Shape

namespace Outline

/-- A number that was read. -/
def ofNumber (n : Number) : Outline := leaf (if n.isFinite then some (.number n) else none)

/-- A text that was read. -/
def ofText (text : Option String) : Outline := leaf (text.map .string)

mutual

/-- **The parts of a value that a shape reads.** -/
def select? (shape : Shape) : Outline → Option Json
  | leaf value => value
  | array items => (selectItems? shape 0 items).map .array
  | object members => (selectMembers? shape members).map .object

/-- The items that a shape reads, the first of them at the given place. -/
def selectItems? (shape : Shape) (place : Nat) : List Outline → Option (List Json)
  | [] => some []
  | item :: rest => do
    let item ← select? (shape.item place) item
    let rest ← selectItems? shape (place + 1) rest
    some (item :: rest)

/-- The members that a shape reads. All names must stand for one. -/
def selectMembers? (shape : Shape) : List (Option String × Outline) → Option (List (String × Json))
  | [] => some []
  | (none, _) :: _ => none
  | (some name, value) :: rest =>
    match shape.member? name with
    | none => selectMembers? shape rest
    | some inner => do
      let value ← select? inner value
      let rest ← selectMembers? shape rest
      some ((name, value) :: rest)

end

end Outline

end Json

end ChartCompiler
