/-!
# Quoted strings of JSON

* `Quoted.escape` — how one character stands between quotes: the quote, the backslash and control
  characters are escaped, everything else is written as it is.
* `Quoted.encode` — a text between its quotes.
* `Quoted.read` — reads the text behind an opening quote up to the closing one and gives what
  follows. It also accepts escapes that `encode` never writes: `\\/`, and `\\u` with four hexadecimal
  digits, two of them for a character beyond U+FFFF. Half of such a pair stands for no character; it
  is read over, but then what was read is no text.
* `read_escapeAll` — **what is written between the quotes is read back**, whatever follows the
  closing one.
-/

namespace ChartCompiler.Json.Quoted

/-! ## Hexadecimal digits -/

/-- The lower-case hexadecimal digit of a number below sixteen. -/
def hexDigit (n : Nat) : Char := Nat.digitChar n

/-- The value of a hexadecimal digit of either case. -/
def hexValue? (c : Char) : Option Nat :=
  if '0' ≤ c ∧ c ≤ '9' then some (c.toNat - '0'.toNat)
  else if 'a' ≤ c ∧ c ≤ 'f' then some (c.toNat - 'a'.toNat + 10)
  else if 'A' ≤ c ∧ c ≤ 'F' then some (c.toNat - 'A'.toNat + 10)
  else none

/-- The value of four hexadecimal digits. -/
def hexUnit? (a b c d : Char) : Option Nat := do
  let a ← hexValue? a
  let b ← hexValue? b
  let c ← hexValue? c
  let d ← hexValue? d
  some (((a * 16 + b) * 16 + c) * 16 + d)

/-! ## Writing -/

/-- **One character between quotes.** -/
def escape (c : Char) : List Char :=
  if c = '"' then ['\\', '"']
  else if c = '\\' then ['\\', '\\']
  else if c.toNat < 0x20 then
    if c.toNat = 0x08 then ['\\', 'b']
    else if c.toNat = 0x09 then ['\\', 't']
    else if c.toNat = 0x0a then ['\\', 'n']
    else if c.toNat = 0x0c then ['\\', 'f']
    else if c.toNat = 0x0d then ['\\', 'r']
    else ['\\', 'u', '0', '0', hexDigit (c.toNat / 16), hexDigit (c.toNat % 16)]
  else [c]

/-- A text with its characters escaped, without the quotes. -/
def escapeAll (text : List Char) : List Char := text.flatMap escape

/-- **A quoted text.** -/
def encode (text : List Char) : List Char := '"' :: (escapeAll text ++ ['"'])

/-! ## Reading -/

/-- The character a one-letter escape stands for. -/
def shortEscape? : Char → Option Char
  | '"' => some '"'
  | '\\' => some '\\'
  | '/' => some '/'
  | 'b' => some '\x08'
  | 'f' => some '\x0c'
  | 'n' => some '\n'
  | 'r' => some '\r'
  | 't' => some '\t'
  | _ => none

/-- Whether a unit begins a pair. -/
def isLeading (unit : Nat) : Bool := 0xd800 ≤ unit && unit < 0xdc00

/-- Whether a unit ends a pair. -/
def isTrailing (unit : Nat) : Bool := 0xdc00 ≤ unit && unit < 0xe000

/-- The character a pair of units stands for. -/
def ofPair (leading trailing : Nat) : Char :=
  Char.ofNat (0x10000 + (leading - 0xd800) * 0x400 + (trailing - 0xdc00))

/-- The character a single unit stands for, unless it is half of a pair. -/
def ofUnit? (unit : Nat) : Option Char :=
  if isLeading unit || isTrailing unit then none else some (Char.ofNat unit)

/-- Puts a character before what was read. There is no text if there is none of either. -/
def before (c : Option Char) (r : Option (List Char) × List Char) :
    Option (List Char) × List Char :=
  (c.bind fun c => r.1.map (c :: ·), r.2)

/-- **Reads up to the closing quote**: the text, if there is one, and what follows the quote. Fails
on a control character, on an unknown escape, and where the quote is missing. -/
def read : List Char → Option (Option (List Char) × List Char)
  | [] => none
  | '"' :: rest => some (some [], rest)
  | '\\' :: 'u' :: a :: b :: c :: d :: rest =>
    match hexUnit? a b c d with
    | none => none
    | some unit =>
      match rest with
      | '\\' :: 'u' :: a' :: b' :: c' :: d' :: rest' =>
        match hexUnit? a' b' c' d' with
        | none => none
        | some unit' =>
          if isLeading unit && isTrailing unit' then
            (read rest').map (before (some (ofPair unit unit')))
          else
            (read ('\\' :: 'u' :: a' :: b' :: c' :: d' :: rest')).map (before (ofUnit? unit))
      | rest => (read rest).map (before (ofUnit? unit))
  | '\\' :: e :: rest =>
    match shortEscape? e with
    | none => none
    | some c => (read rest).map (before (some c))
  | c :: rest =>
    if c.toNat < 0x20 ∨ c = '\\' then none
    else (read rest).map (before (some c))

/-! ## What is written is read back -/

/-- A unit outside the pairs is read as one character, whatever follows it. -/
theorem read_unit {a b c d : Char} {unit : Nat} (h : hexUnit? a b c d = some unit)
    (lead : isLeading unit = false) (trail : isTrailing unit = false) (rest : List Char) :
    read ('\\' :: 'u' :: a :: b :: c :: d :: rest) =
      (read rest).map (before (some (Char.ofNat unit))) := by
  rw [read, h]
  dsimp only
  split
  · split
    · next h' => simp [read, h']
    · simp [ofUnit?, lead, trail]
  · simp [ofUnit?, lead, trail]

/-- The four digits of a control character give its number. -/
theorem hexUnit?_control : ∀ n < 0x20,
    hexUnit? '0' '0' (hexDigit (n / 16)) (hexDigit (n % 16)) = some n := by
  decide

/-- One character is read back. -/
theorem read_escape (c : Char) (rest : List Char) :
    read (escape c ++ rest) = (read rest).map (before (some c)) := by
  have number : ∀ n, c.toNat = n → c = Char.ofNat n := fun n h => by rw [← h, Char.ofNat_toNat]
  unfold escape
  split
  · next h => subst h; rfl
  split
  · next h => subst h; rfl
  split
  · next low =>
    split
    · next h => rw [number _ h]; rfl
    split
    · next h => rw [number _ h]; rfl
    split
    · next h => rw [number _ h]; rfl
    split
    · next h => rw [number _ h]; rfl
    split
    · next h => rw [number _ h]; rfl
    · have h := read_unit (hexUnit?_control c.toNat low) (by simp [isLeading]; omega)
        (by simp [isTrailing]; omega) rest
      rwa [Char.ofNat_toNat] at h
  · next backslash high => simp [read, backslash, high]

/-- **A text is read back** up to its closing quote. -/
theorem read_escapeAll (text rest : List Char) :
    read (escapeAll text ++ '"' :: rest) = some (some text, rest) := by
  induction text with
  | nil => simp [escapeAll, read]
  | cons c text ih =>
    simp only [escapeAll, List.flatMap_cons, List.append_assoc] at ih ⊢
    rw [read_escape, ih]
    rfl

end ChartCompiler.Json.Quoted
