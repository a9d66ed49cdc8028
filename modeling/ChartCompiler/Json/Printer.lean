import ChartCompiler.Decimal.Style
import ChartCompiler.Json.Basic
import ChartCompiler.Json.Quoted

/-!
# Writing JSON

* `Json.numeral` — the style of floating-point numbers in JSON text.
* `Json.quoted` — a text as a JSON string literal.
* `Json.compact` — **a value on one line without blanks**, members in the order they stand.
-/

namespace ChartCompiler

namespace Json

/-- **Numbers in JSON text** keep a point, are positional from `1e-5` to below `1e16`, and sign
their exponents. -/
def numeral : Decimal.Style where
  positional := some (-5, 16)
  wholePoint := true
  plusSign := true
  tie := .toEven

end Json

/-- A number in JSON text. A float that is not finite has no spelling there and is written as
`null`. -/
def Number.chars : Number → List Char
  | .integer i => i.repr.toList
  | .float x => if x.isFinite then (Json.numeral.render x).toList else "null".toList

namespace Json

/-- **A text as a JSON string literal.** -/
def quoted (text : String) : String := String.ofList (Quoted.encode text.toList)

mutual

/-- The characters of a value. -/
def chars : Json → List Char
  | .null => "null".toList
  | .bool b => (if b then "true" else "false").toList
  | .number n => n.chars
  | .string s => Quoted.encode s.toList
  | .array [] => ['[', ']']
  | .array (item :: rest) => '[' :: (chars item ++ itemChars rest)
  | .object [] => ['\x7b', '\x7d']
  | .object ((name, value) :: rest) =>
    '\x7b' :: (Quoted.encode name.toList ++ ':' :: (chars value ++ memberChars rest))

/-- The further items of an array, and its end. -/
def itemChars : List Json → List Char
  | [] => [']']
  | item :: rest => ',' :: (chars item ++ itemChars rest)

/-- The further members of an object, and its end. -/
def memberChars : List (String × Json) → List Char
  | [] => ['\x7d']
  | (name, value) :: rest =>
    ',' :: (Quoted.encode name.toList ++ ':' :: (chars value ++ memberChars rest))

end

/-- **A value on one line.** -/
def compact (j : Json) : String := String.ofList j.chars

end Json

end ChartCompiler
