import ChartCompiler.Definition

/-!
# Value references

What a renderer evaluates for one visual property of a mark.

* `ValueRef` — one reference: a value, a field or a signal, with a scale, a band and an offset.
  `withOffset` and `withBand` leave the reference alone where there is nothing to add, zero included.
* `ChannelRef` — a reference for a channel: a single one, or a list of which the renderer takes the
  first whose test passes, else the last.
* `DefaultRef` — what stands in for a channel without a definition.
-/

namespace ChartCompiler

/-- **A field that is read**: of the row, or of the enclosing group. -/
inductive FieldSource
  /-- A field of the row, by its path. -/
  | row (name : String)
  /-- A property of the enclosing group. -/
  | group (property : String)
deriving DecidableEq, Repr

/-- **An offset in pixels** added after scaling. -/
inductive Offset
  /-- A number of pixels. -/
  | value (amount : Float)
  /-- What a signal says. -/
  | signal (ref : SignalRef)

namespace Offset

/-- Whether there is anything to add. A signal always counts. -/
def isSet : Offset → Bool
  | value amount => amount != 0
  | signal _ => true

end Offset

/-- **A value reference.** Everything in it may be missing. What it refers to is a value, a field or
a signal. -/
structure ValueRef where
  /-- An expression under which the reference holds. -/
  test : Option String := none
  /-- A constant. -/
  value : Option Json := none
  /-- A field that is read. -/
  field : Option FieldSource := none
  /-- The scale that the value or the field goes through. -/
  scale : Option String := none
  /-- An expression. -/
  signal : Option String := none
  /-- The place in the band of the scale. -/
  band : Option Float := none
  /-- What is added after scaling. -/
  offset : Option Offset := none

namespace ValueRef

/-- A reference to a constant. -/
def ofValue (value : Json) : ValueRef := { value := some value }

/-- A reference to a field of the row. -/
def ofField (name : String) : ValueRef := { field := some (.row name) }

/-- A reference to a property of the enclosing group, such as its width. -/
def ofGroup (property : String) : ValueRef := { field := some (.group property) }

/-- A reference to an expression. -/
def ofSignal (expression : String) : ValueRef := { signal := some expression }

/-- The reference through a scale, or through none. -/
def withScale (r : ValueRef) (scale : Option String) : ValueRef := { r with scale := scale }

/-- The reference under a test. -/
def withTest (r : ValueRef) (test : String) : ValueRef := { r with test := some test }

/-- The reference with an offset, unless it is absent or zero. -/
def withOffset (r : ValueRef) (offset : Option Offset) : ValueRef :=
  match offset with
  | some o => if o.isSet then { r with offset := some o } else r
  | none => r

/-- The reference with a place in its band, unless it is absent or zero. -/
def withBand (r : ValueRef) (band : Option Float) : ValueRef :=
  match band with
  | some b => if b != 0 then { r with band := some b } else r
  | none => r

/-- Without an offset there is nothing to add. -/
@[simp] theorem withOffset_none (r : ValueRef) : r.withOffset none = r := rfl

/-- Without a place in the band there is nothing to set. -/
@[simp] theorem withBand_none (r : ValueRef) : r.withBand none = r := rfl

end ValueRef

/-- **The reference of a channel.** -/
inductive ChannelRef
  /-- One reference. -/
  | single (ref : ValueRef)
  /-- References of which the first one holds whose test passes, or else the last one. -/
  | conditional (refs : List ValueRef)

namespace ChannelRef

/-- The reference that holds where no test passes. -/
def fallback? : ChannelRef → Option ValueRef
  | single ref => some ref
  | conditional refs => refs.getLast?

/-- Whether the channel has tests. -/
def isConditional : ChannelRef → Bool
  | single _ => false
  | conditional _ => true

end ChannelRef

/-- **What stands in for a missing definition.** -/
inductive DefaultRef
  /-- Nothing stands in. -/
  | absent
  /-- A reference that is there already. -/
  | value (ref : ValueRef)
  /-- A reference that is made when it is asked for. -/
  | deferred (make : Unit → ValueRef)

namespace DefaultRef

/-- The reference, made now if it was put off. -/
def resolve? : DefaultRef → Option ValueRef
  | absent => none
  | value ref => some ref
  | deferred make => some (make ())

end DefaultRef

end ChartCompiler
