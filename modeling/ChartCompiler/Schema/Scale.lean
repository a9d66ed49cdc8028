import ChartCompiler.Scale
import ChartCompiler.Schema.Record
import ChartCompiler.Stack
import ChartCompiler.View

/-!
# JSON forms of scales, stacks and sharing

* `ScaleRange` — an object with a step, a name, or an array of values. A step is never written as an
  array, since an array lists the values of the range.
* `Scale`, `Stack` — records.
* `ScaleSharing.tableOf?` — the authored sharing of a view, a record around a table.
-/

namespace ChartCompiler

namespace ScaleRange

/-- **Reads a range.** -/
def ofJson? : Json → Option ScaleRange
  | .object members => do
    let r ← Record.ofJson? ["step"] 1 (.object members)
    (r.required "step").map step
  | .string name => some (named name)
  | .array items => some (values items)
  | _ => none

/-- A step is written as an object, a name as a text, and values as an array. -/
instance : Schema ScaleRange where
  decode? := ofJson?
  encode
    | step size => .record [member "step" (some size)]
    | named name => .string name
    | values items => .array items

end ScaleRange

namespace Scale

/-- The properties in their fixed order. -/
def properties : List String :=
  ["name", "type", "range", "zero", "padding", "paddingInner", "paddingOuter"]

/-- **Reads a scale.** -/
def ofJson? (j : Json) : Option Scale := do
  let r ← Record.ofJson? properties 2 j
  let name ← r.required "name"
  let type ← r.required "type"
  let range ← r.optional "range"
  let zero ← r.optional "zero"
  let padding ← r.optional "padding"
  let paddingInner ← r.optional "paddingInner"
  let paddingOuter ← r.optional "paddingOuter"
  some { name, type, range, zero, padding, paddingInner, paddingOuter }

/-- A scale is written as an object, in the order of names. -/
instance : Schema Scale where
  decode? := ofJson?
  encode s := .record [member "name" (some s.name), member "padding" s.padding,
    member "paddingInner" s.paddingInner, member "paddingOuter" s.paddingOuter,
    member "range" s.range, member "type" (some s.type), member "zero" s.zero]

end Scale

namespace Stack

/-- The properties in their fixed order. -/
def properties : List String := ["fieldChannel", "groupbyChannel", "offset", "impute"]

/-- **Reads a stack**; an array must list all properties. -/
def ofJson? (j : Json) : Option Stack := do
  let r ← Record.ofJson? properties 4 j
  let fieldChannel ← r.required "fieldChannel"
  let groupbyChannel ← r.optional "groupbyChannel"
  let offset ← r.required "offset"
  let impute ← r.required "impute"
  some { fieldChannel, groupbyChannel, offset, impute }

/-- A stack is written as an object, in the order of names. -/
instance : Schema Stack where
  decode? := ofJson?
  encode s := .record [member "fieldChannel" (some s.fieldChannel),
    member "groupbyChannel" s.groupbyChannel, member "impute" (some s.impute),
    member "offset" (some s.offset)]

end Stack

namespace ScaleSharing

/-- **Reads the authored sharing of a view.** -/
def tableOf? (j : Json) : Option (Table Channel ScaleSharing) := do
  let r ← Record.ofJson? ["scale"] 0 j
  r.withDefault "scale" ∅

/-- Writes the authored sharing of a view. -/
def tableJson (t : Table Channel ScaleSharing) : Json := .record [member "scale" (some t)]

end ScaleSharing

end ChartCompiler
