import ChartCompiler.Diagnostic
import ChartCompiler.Layout.Signals
import ChartCompiler.Reference
import ChartCompiler.Schema.Definition

/-!
# JSON and diagnostic forms of references and declarations

* `ValueRef.json` — **a reference as the renderer reads it**: the components that are set.
* `ChannelRef.json` — a single reference, or the array of a conditional one.
* `SignalDecl.json` — a declaration.
* `ValueRef.diagnosticText` and `DefaultRef.diagnosticText` — the same values in messages, where
  unset components are shown too.
-/

namespace ChartCompiler

/-! ## JSON -/

/-- A field source as the renderer reads it. -/
def FieldSource.json : FieldSource → Json
  | row name => .string name
  | group property => .object [("group", .string property)]

/-- An offset as the renderer reads it. -/
def Offset.json : Offset → Json
  | value amount => .ofFloat amount
  | signal ref => encode ref

namespace ValueRef

/-- **A reference as the renderer reads it.** -/
def json (r : ValueRef) : Json :=
  .record [member "band" r.band, r.field.map fun f => ("field", f.json),
    r.offset.map fun o => ("offset", o.json), member "scale" r.scale, member "signal" r.signal,
    member "test" r.test, member "value" r.value]

end ValueRef

/-- The reference of a channel as the renderer reads it. -/
def ChannelRef.json : ChannelRef → Json
  | single ref => ref.json
  | conditional refs => .array (refs.map ValueRef.json)

/-- A declaration as the renderer reads it. -/
def SignalDecl.json (d : SignalDecl) : Json :=
  match d.body with
  | .value amount => .record [member "name" (some d.name), member "value" (some amount)]
  | .update expression =>
    .record [member "name" (some d.name), member "update" (some expression)]

/-! ## Diagnostics -/

/-- A field source in a message, with its kind. -/
instance : Diagnostic FieldSource where
  diagnostic
    | .row name => "Name(" ++ diagnostic name ++ ")"
    | .group property => "Group \x7b group: " ++ diagnostic property ++ " \x7d"

/-- A signal in a message. -/
instance : Diagnostic SignalRef where
  diagnostic s := "SignalRef \x7b signal: " ++ diagnostic s.signal ++ " \x7d"

/-- An offset in a message, with its kind. -/
instance : Diagnostic Offset where
  diagnostic
    | .value amount => "Value(" ++ diagnostic amount ++ ")"
    | .signal ref => "Signal(" ++ diagnostic ref ++ ")"

/-- **A reference in a message**, unset components included. -/
def ValueRef.diagnosticText (r : ValueRef) : String :=
  "VgValueRef \x7b test: " ++ diagnostic r.test ++ ", value: " ++ diagnostic r.value ++ ", field: "
    ++ diagnostic r.field ++ ", scale: " ++ diagnostic r.scale ++ ", signal: "
    ++ diagnostic r.signal ++ ", band: " ++ diagnostic r.band ++ ", offset: "
    ++ diagnostic r.offset ++ " \x7d"

/-- A default reference in a message. What is not made yet is not shown. -/
def DefaultRef.diagnosticText : DefaultRef → String
  | absent => "DefaultRef::None"
  | value ref => "DefaultRef::Value(" ++ ref.diagnosticText ++ ")"
  | deferred _ => "DefaultRef::Lazy(..)"

end ChartCompiler
