import ChartCompiler.Decimal.Rounding
import ChartCompiler.Json.Outline
import ChartCompiler.Json.Quoted

/-!
# Reading JSON

* `Number.ofToken?` — reads the text of a number. An integer that fits 64 bits stays an integer;
  every other number, minus zero included, is the nearest float.
* `Outline.parse?` — **takes a whole text apart**. The grammar is strict: no trailing commas, no
  leading zeros, nothing after the value but blanks.
* `Json.parse?` — the value that a text stands for; `Json.parsePart?` — the parts that a shape reads.

The functions on values, items and members carry a bound on the number of steps; `Outline.parse?`
starts them with more than the text can take, since every step but the first of a container consumes
a character.
-/

namespace ChartCompiler

/-! ## Numbers -/

namespace Number

/-- The integers of 64 bits, signed or unsigned. -/
def fitsWord (i : Int) : Bool := Int64.minValue.toInt ≤ i && i < UInt64.size

/-- The number a run of decimal digits stands for. -/
def ofDigits (digits : List Char) : Nat :=
  digits.foldl (fun n c => n * 10 + (c.toNat - '0'.toNat)) 0

/-- The exponent behind its `e`: an optional sign and at least one digit. -/
def exponent? (token : List Char) : Option Int :=
  let signed (negative : Bool) (digits : List Char) : Option Int :=
    if digits.isEmpty || !digits.all Char.isDigit then none
    else some (if negative then -(ofDigits digits : Int) else ofDigits digits)
  match token with
  | '-' :: digits => signed true digits
  | '+' :: digits => signed false digits
  | digits => signed false digits

/-- A float of the given sign. -/
def signedFloat (negative : Bool) (d : Decimal) : Number :=
  .float (if negative then -d.toFloat else d.toFloat)

/-- A number without fraction and exponent. -/
def ofWhole (negative : Bool) (digits : List Char) : Number :=
  let n := ofDigits digits
  let value : Int := if negative then -(n : Int) else n
  if fitsWord value && !(negative && n == 0) then .integer value
  else signedFloat negative ⟨n, 0⟩

/-- The part of a number after its sign and whole digits: an optional fraction, then an optional
exponent. -/
def ofTail? (negative : Bool) (whole tail : List Char) : Option Number :=
  match tail with
  | [] => some (ofWhole negative whole)
  | '.' :: rest =>
    let fraction := rest.takeWhile Char.isDigit
    let digits := ofDigits (whole ++ fraction)
    if fraction.isEmpty then none
    else
      match rest.dropWhile Char.isDigit with
      | [] => some (signedFloat negative ⟨digits, -(fraction.length : Int)⟩)
      | e :: power =>
        if e = 'e' ∨ e = 'E' then
          (exponent? power).map fun p => signedFloat negative ⟨digits, p - fraction.length⟩
        else none
  | e :: power =>
    if e = 'e' ∨ e = 'E' then
      (exponent? power).map fun p => signedFloat negative ⟨ofDigits whole, p⟩
    else none

/-- A number after its sign: a lone zero or digits that do not begin with one, then the tail. -/
def ofUnsigned? (negative : Bool) (token : List Char) : Option Number :=
  let whole := token.takeWhile Char.isDigit
  if whole.isEmpty || (whole.head? == some '0' && whole.length != 1) then none
  else ofTail? negative whole (token.dropWhile Char.isDigit)

/-- **Reads the text of a number.** -/
def ofToken? : List Char → Option Number
  | '-' :: rest => ofUnsigned? true rest
  | token => ofUnsigned? false token

/-- The characters numbers are written with. -/
def isNumberChar (c : Char) : Bool :=
  c.isDigit || c == '-' || c == '+' || c == '.' || c == 'e' || c == 'E'

end Number

/-! ## Values -/

namespace Json

namespace Outline

/-- The blanks between tokens. -/
def isBlank (c : Char) : Bool := c == ' ' || c == '\n' || c == '\t' || c == '\r'

/-- The text after its leading blanks. -/
def skipBlanks (text : List Char) : List Char := text.dropWhile isBlank

/-- A name or a text: what stands behind an opening quote, as a string. -/
def readString (text : List Char) : Option (Option String × List Char) :=
  (Quoted.read text).map fun r => (r.1.map String.ofList, r.2)

mutual

/-- A value at the start of the text, and what follows it. -/
def readValue : Nat → List Char → Option (Outline × List Char)
  | 0, _ => none
  | steps + 1, text =>
    match text with
    | 'n' :: 'u' :: 'l' :: 'l' :: rest => some (leaf (some .null), rest)
    | 't' :: 'r' :: 'u' :: 'e' :: rest => some (leaf (some (.bool true)), rest)
    | 'f' :: 'a' :: 'l' :: 's' :: 'e' :: rest => some (leaf (some (.bool false)), rest)
    | '"' :: rest => (readString rest).map fun r => (ofText r.1, r.2)
    | '[' :: rest =>
      match skipBlanks rest with
      | ']' :: rest => some (array [], rest)
      | rest => (readItems steps rest).map fun r => (array r.1, r.2)
    | '\x7b' :: rest =>
      match skipBlanks rest with
      | '\x7d' :: rest => some (object [], rest)
      | rest => (readMembers steps rest).map fun r => (object r.1, r.2)
    | text =>
      (Number.ofToken? (text.takeWhile Number.isNumberChar)).map fun n =>
        (ofNumber n, text.dropWhile Number.isNumberChar)

/-- The items of an array up to its end, at least one. -/
def readItems : Nat → List Char → Option (List Outline × List Char)
  | 0, _ => none
  | steps + 1, text =>
    match readValue steps (skipBlanks text) with
    | none => none
    | some (item, rest) =>
      match skipBlanks rest with
      | ',' :: rest => (readItems steps rest).map fun r => (item :: r.1, r.2)
      | ']' :: rest => some ([item], rest)
      | _ => none

/-- The members of an object up to its end, at least one. -/
def readMembers : Nat → List Char → Option (List (Option String × Outline) × List Char)
  | 0, _ => none
  | steps + 1, text =>
    match skipBlanks text with
    | '"' :: rest =>
      match readString rest with
      | none => none
      | some (name, rest) =>
        match skipBlanks rest with
        | ':' :: rest =>
          match readValue steps (skipBlanks rest) with
          | none => none
          | some (value, rest) =>
            match skipBlanks rest with
            | ',' :: rest => (readMembers steps rest).map fun r => ((name, value) :: r.1, r.2)
            | '\x7d' :: rest => some ([(name, value)], rest)
            | _ => none
        | _ => none
    | _ => none

end

/-- **Takes a whole text apart.** -/
def parse? (text : String) : Option Outline :=
  let chars := text.toList
  match readValue (2 * chars.length + 2) (skipBlanks chars) with
  | some (outline, rest) => if (skipBlanks rest).isEmpty then some outline else none
  | none => none

end Outline

/-- **The parts of a text that a shape reads**, where they stand for values. -/
def parsePart? (shape : Shape) (text : String) : Option Json :=
  (Outline.parse? text).bind (Outline.select? shape)

/-- **The value that a text stands for.** -/
def parse? (text : String) : Option Json := parsePart? .whole text

end Json

end ChartCompiler
