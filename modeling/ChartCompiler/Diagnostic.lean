import ChartCompiler.Decimal.Style
import ChartCompiler.Json.Printer
import ChartCompiler.Text.Printable

/-!
# Diagnostic forms of values

* `Diagnostic α` — how the values of a type are shown inside a message.
* `Diagnostic.quote` — texts are quoted, with everything that is not printable escaped by its code
  point.
* `Diagnostic.numeral` — floating-point numbers keep a point, and leave out the sign of a positive
  exponent.
* JSON values are shown with the name of their kind.
-/

namespace ChartCompiler

/-- **How a value is shown in a message.** -/
class Diagnostic (α : Type) where
  /-- The text of a value. -/
  diagnostic : α → String

export Diagnostic (diagnostic)

namespace Diagnostic

/-- **Numbers in messages** keep a point and are positional from `1e-4` to below `1e16`. -/
def numeral : Decimal.Style where
  positional := some (-4, 16)
  wholePoint := true
  plusSign := false
  tie := .up

/-- One character of a quoted text. -/
def quoteChar (c : Char) : List Char :=
  if c = '"' then ['\\', '"']
  else if c = '\\' then ['\\', '\\']
  else if c = '\n' then ['\\', 'n']
  else if c = '\r' then ['\\', 'r']
  else if c = '\t' then ['\\', 't']
  else if c.toNat = 0 then ['\\', '0']
  else if Text.isPrintable c then [c]
  else ['\\', 'u', '\x7b'] ++ Nat.toDigits 16 c.toNat ++ ['\x7d']

/-- **A quoted text.** -/
def quote (text : String) : String :=
  String.ofList ('"' :: (text.toList.flatMap quoteChar ++ ['"']))

/-- Texts are quoted. -/
instance : Diagnostic String := ⟨quote⟩

/-- Integers are written in digits. -/
instance : Diagnostic Int := ⟨Int.repr⟩

/-- Floats are written as numbers in messages. -/
instance : Diagnostic Float := ⟨numeral.render⟩

/-- Truth values are written as words. -/
instance : Diagnostic Bool := ⟨fun b => if b then "true" else "false"⟩

/-- A value that may be missing is shown inside the name of its case. -/
instance {α : Type} [Diagnostic α] : Diagnostic (Option α) where
  diagnostic
    | none => "None"
    | some a => "Some(" ++ diagnostic a ++ ")"

mutual

/-- A JSON value with the name of its kind. -/
def json : Json → String
  | .null => "Null"
  | .bool b => "Bool(" ++ diagnostic b ++ ")"
  | .number n => "Number(" ++ String.ofList n.chars ++ ")"
  | .string s => "String(" ++ quote s ++ ")"
  | .array items => "Array [" ++ jsonItems items ++ "]"
  | .object members => "Object \x7b" ++ jsonMembers members ++ "\x7d"

/-- The items of an array, separated by commas. -/
def jsonItems : List Json → String
  | [] => ""
  | [item] => json item
  | item :: rest => json item ++ ", " ++ jsonItems rest

/-- The members of an object, separated by commas. -/
def jsonMembers : List (String × Json) → String
  | [] => ""
  | [(name, value)] => quote name ++ ": " ++ json value
  | (name, value) :: rest => quote name ++ ": " ++ json value ++ ", " ++ jsonMembers rest

end

/-- JSON values are shown with their kinds. -/
instance : Diagnostic Json := ⟨json⟩

end Diagnostic

end ChartCompiler
