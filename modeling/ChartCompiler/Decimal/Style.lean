import ChartCompiler.Decimal.Rounding

/-!
# Styles of decimal text

`Decimal.Style` gathers the decisions of one written form of numbers: which orders of magnitude are
written positionally, whether whole numbers keep a `.0`, how an exponent is signed, and which way a
tie between two shortest decimals goes. `Decimal.Style.render` writes a float in a style. The styles
themselves stand with the text they belong to: JSON, expressions, and diagnostics.
-/

namespace ChartCompiler.Decimal

/-- **How numbers are written.** -/
structure Style where
  /-- Numbers from `10 ^ lo` to below `10 ^ hi` are written positionally, all others with an
  exponent; without bounds every number is positional. -/
  positional : Option (Int × Int)
  /-- Whether whole positional numbers end in `.0`. -/
  wholePoint : Bool
  /-- Whether a positive exponent carries its sign. -/
  plusSign : Bool
  /-- Which way a tie between two shortest decimals goes. -/
  tie : Tie
  /-- The words of infinity and of no number. -/
  infinity : String := "inf"
  undefined : String := "NaN"

namespace Style

/-- The digits with a point at the place the exponent gives, zeros filling the gap. -/
def positionalText (s : Style) (digits : List Char) (exponent : Int) : List Char :=
  let places := (-exponent).toNat
  if 0 ≤ exponent then
    digits ++ List.replicate exponent.toNat '0' ++ (if s.wholePoint then ['.', '0'] else [])
  else if places < digits.length then
    digits.take (digits.length - places) ++ '.' :: digits.drop (digits.length - places)
  else
    '0' :: '.' :: (List.replicate (places - digits.length) '0' ++ digits)

/-- One digit before the point, then the power of ten that `order` gives. -/
def exponentText (s : Style) (digits : List Char) (order : Int) : List Char :=
  let mantissa :=
    match digits with
    | d :: rest => if rest.isEmpty then [d] else d :: '.' :: rest
    | [] => []
  let sign := if order < 0 then ['-'] else if s.plusSign then ['+'] else []
  mantissa ++ 'e' :: (sign ++ Nat.toDigits 10 order.natAbs)

/-- A positive decimal in this style. -/
def decimalText (s : Style) (d : Decimal) : List Char :=
  let digits := Nat.toDigits 10 d.digits
  let order : Int := digits.length - 1 + d.exponent
  match s.positional with
  | none => s.positionalText digits d.exponent
  | some (lo, hi) =>
    if lo ≤ order ∧ order < hi then s.positionalText digits d.exponent
    else s.exponentText digits order

/-- A float without its sign. -/
def magnitudeText (s : Style) (x : Float) : List Char :=
  match Dyadic.ofFloat? x with
  | some m => s.decimalText (shortest s.tie m)
  | none =>
    if x.isNaN then s.undefined.toList
    else if x.isInf then s.infinity.toList
    else if s.wholePoint then ['0', '.', '0'] else ['0']

/-- **A float in this style**, its sign in front. -/
def render (s : Style) (x : Float) : String :=
  String.ofList <|
    if Dyadic.isNegative x && !x.isNaN then '-' :: s.magnitudeText x else s.magnitudeText x

end Style

end ChartCompiler.Decimal
