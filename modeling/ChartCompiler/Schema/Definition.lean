import ChartCompiler.Definition
import ChartCompiler.Schema.Bin

/-!
# JSON forms of channel definitions

* `FieldDef.ofRecord?` — all properties of a field definition are optional, so any object without a
  malformed property is one.
* `FieldDef.fault` — what is wrong with a refused definition: the first malformed property counts.
* `Literal` — a record of a signal, or else the value itself.
* `ChannelDef` — **the four forms are tried in turn**: datum, value, signal, field. A value that does
  not have an earlier form may still have a later one.
-/

namespace ChartCompiler

/-! ## Fields -/

namespace FieldDef

/-- The properties in their fixed order. -/
def properties : List String := ["field", "type", "bin", "timeUnit", "aggregate", "band"]

/-- Reads the binning, which may be turned off. -/
def binOf? (r : Record) : Option (Option Binning) :=
  match r.get? "bin" with
  | none => some none
  | some j => Binning.ofProperty? j

/-- Reads the properties. -/
def ofRecord? (r : Record) : Option FieldDef := do
  let field ← r.optional "field"
  let type ← r.optional "type"
  let bin ← binOf? r
  let timeUnit ← r.optional "timeUnit"
  let aggregate ← r.optional "aggregate"
  let band ← r.optional "band"
  some { field, type, bin, timeUnit, aggregate, band }

/-- **Reads a field definition.** -/
def ofJson? (j : Json) : Option FieldDef := (Record.ofJson? properties 0 j).bind ofRecord?

/-- What is wrong with the binning of a record. -/
def binFault (r : Record) : DecodeError :=
  match (r.get? "bin").map Binning.decodeProperty with
  | some (.error e) => e
  | _ => .malformed

/-- **What is wrong with a refused definition.** The fault of its binning counts if nothing before it
is malformed. -/
def fault (j : Json) : DecodeError :=
  match Record.named? properties j with
  | some r =>
    if (ofRecord? ⟨r.members.takeWhile fun m => m.1 != "bin"⟩).isSome then binFault r
    else .malformed
  | none => .malformed

/-- Reads a field definition, or tells why it is refused. -/
def decode (j : Json) : Except DecodeError FieldDef :=
  match ofJson? j with
  | some d => .ok d
  | none => .error (fault j)

/-- A field definition is written as an object, in the order of names. -/
instance : Schema FieldDef where
  decode? := ofJson?
  encode d := .record [member "aggregate" d.aggregate, member "band" d.band, member "bin" d.bin,
    member "field" d.field, member "timeUnit" d.timeUnit, member "type" d.type]

end FieldDef

/-! ## Data, signals and literals -/

namespace DatumDef

/-- The properties in their fixed order. -/
def properties : List String := ["datum", "type", "band"]

/-- **Reads a datum definition.** The datum must be given and may be null. -/
def ofJson? (j : Json) : Option DatumDef := do
  let r ← Record.ofJson? properties 1 j
  let datum ← r.required "datum"
  let type ← r.optional "type"
  let band ← r.optional "band"
  some { datum, type, band }

/-- A datum definition is written as an object, its datum even if this is null. -/
instance : Schema DatumDef where
  decode? := ofJson?
  encode d := .record [member "band" d.band, member "datum" (some d.datum), member "type" d.type]

end DatumDef

namespace SignalRef

/-- **Reads a signal.** -/
def ofJson? (j : Json) : Option SignalRef := do
  let r ← Record.ofJson? ["signal"] 1 j
  let signal ← r.required "signal"
  some { signal }

/-- A signal is written as an object around its name. -/
instance : Schema SignalRef where
  decode? := ofJson?
  encode s := .record [member "signal" (some s.signal)]

end SignalRef

namespace Literal

/-- **Reads a literal**: a signal if the form is that of one, else the value itself. -/
def ofJson (j : Json) : Literal :=
  match SignalRef.ofJson? j with
  | some s => signal s
  | none => value j

/-- A literal that is no signal is written as it stands. -/
instance : Schema Literal where
  decode? j := some (ofJson j)
  encode
    | signal s => encode s
    | value j => j

/-- **Reads a value definition**, a record around a literal. -/
def ofDefinition? (j : Json) : Option Literal := do
  let r ← Record.ofJson? ["value"] 1 j
  r.required "value"

/-- The record around a literal. -/
def toDefinition (l : Literal) : Json := .record [member "value" (some l)]

end Literal

/-! ## Channels -/

namespace ChannelDef

/-- **Reads a channel definition** as the first of the four forms that it has. -/
def ofJson? (j : Json) : Option ChannelDef :=
  (DatumDef.ofJson? j).map datum
    <|> (Literal.ofDefinition? j).map value
    <|> (SignalRef.ofJson? j).map signal
    <|> (FieldDef.ofJson? j).map field

/-- A channel definition is written in the form that it has. -/
instance : Schema ChannelDef where
  decode? := ofJson?
  encode
    | datum d => encode d
    | value l => l.toDefinition
    | signal s => encode s
    | field d => encode d

end ChannelDef

end ChartCompiler
