import ChartCompiler.Layout.Signals

/-!
# Names as identifiers

The name of a signal stands in expressions, so it should be an identifier.

* `Text.isDecimalDigit` — the decimal digits of every script; all of them belong to words.
* `IsIdentifier` — **a text that an expression reads as one name**.
* `isIdentifier_identifier_iff` — a text becomes an identifier exactly if it is not empty and does
  not begin with a digit: other characters are replaced wherever they stand, but digits are kept.
* `View.isIdentifier_sizeSignal_iff`, `Scale.isIdentifier_stepSignal_iff` — so the signals of a view
  and of a scale are identifiers exactly if the name of the view, or of the scale, does not begin
  with a digit.

The replaced character is an underscore, which may begin an identifier; so only a first character
that is not replaced can do harm, and of those that belong to words only a digit does.
-/

namespace ChartCompiler

/-! ## Decimal digits -/

namespace Text

/-- The decimal digits beyond ASCII, as Unicode 16 lists them. -/
def digitRanges : Ranges := [
  (0x660, 0x669), (0x6f0, 0x6f9), (0x7c0, 0x7c9), (0x966, 0x96f), (0x9e6, 0x9ef), (0xa66, 0xa6f),
  (0xae6, 0xaef), (0xb66, 0xb6f), (0xbe6, 0xbef), (0xc66, 0xc6f), (0xce6, 0xcef), (0xd66, 0xd6f),
  (0xde6, 0xdef), (0xe50, 0xe59), (0xed0, 0xed9), (0xf20, 0xf29), (0x1040, 0x1049),
  (0x1090, 0x1099), (0x17e0, 0x17e9), (0x1810, 0x1819), (0x1946, 0x194f), (0x19d0, 0x19d9),
  (0x1a80, 0x1a89), (0x1a90, 0x1a99), (0x1b50, 0x1b59), (0x1bb0, 0x1bb9), (0x1c40, 0x1c49),
  (0x1c50, 0x1c59), (0xa620, 0xa629), (0xa8d0, 0xa8d9), (0xa900, 0xa909), (0xa9d0, 0xa9d9),
  (0xa9f0, 0xa9f9), (0xaa50, 0xaa59), (0xabf0, 0xabf9), (0xff10, 0xff19), (0x104a0, 0x104a9),
  (0x10d30, 0x10d39), (0x10d40, 0x10d49), (0x11066, 0x1106f), (0x110f0, 0x110f9),
  (0x11136, 0x1113f), (0x111d0, 0x111d9), (0x112f0, 0x112f9), (0x11450, 0x11459),
  (0x114d0, 0x114d9), (0x11650, 0x11659), (0x116c0, 0x116c9), (0x116d0, 0x116e3),
  (0x11730, 0x11739), (0x118e0, 0x118e9), (0x11950, 0x11959), (0x11bf0, 0x11bf9),
  (0x11c50, 0x11c59), (0x11d50, 0x11d59), (0x11da0, 0x11da9), (0x11f50, 0x11f59),
  (0x16130, 0x16139), (0x16a60, 0x16a69), (0x16ac0, 0x16ac9), (0x16b50, 0x16b59),
  (0x16d70, 0x16d79), (0x1ccf0, 0x1ccf9), (0x1d7ce, 0x1d7ff), (0x1e140, 0x1e149),
  (0x1e2f0, 0x1e2f9), (0x1e4f0, 0x1e4f9), (0x1e5f1, 0x1e5fa), (0x1e950, 0x1e959),
  (0x1fbf0, 0x1fbf9)]

/-- **Whether a character is a decimal digit**, of ASCII or of any other script. -/
def isDecimalDigit (c : Char) : Bool := c.isDigit || digitRanges.has c.toNat

/-- The digits beyond ASCII lie within the word characters. -/
theorem exists_wordRange_of_mem_digitRanges :
    ∀ r ∈ digitRanges, 0x80 ≤ r.1 ∧ ∃ w ∈ wordRanges, w.1 ≤ r.1 ∧ r.2 ≤ w.2 := by
  -- All pairs of ranges are compared as truth values, which are computed faster than decisions.
  have hall : (digitRanges.all fun r => Nat.ble 0x80 r.1 &&
      wordRanges.any fun w => Nat.ble w.1 r.1 && Nat.ble r.2 w.2) = true := by decide +kernel
  intro r hr
  obtain ⟨hbeyond, hword⟩ := (Bool.and_eq_true _ _).mp (List.all_eq_true.mp hall r hr)
  obtain ⟨w, hw, hwithin⟩ := List.any_eq_true.mp hword
  obtain ⟨hlow, hhigh⟩ := (Bool.and_eq_true _ _).mp hwithin
  exact ⟨Nat.le_of_ble_eq_true hbeyond, w, hw, Nat.le_of_ble_eq_true hlow, Nat.le_of_ble_eq_true hhigh⟩

/-- **Every decimal digit belongs to a word.** -/
theorem isWord_of_isDecimalDigit {c : Char} (h : isDecimalDigit c = true) : isWord c = true := by
  rcases (Bool.or_eq_true _ _).mp h with h | h
  · exact isWord_of_isAlphanum (by simp [Char.isAlphanum, h])
  · obtain ⟨r, hr, hlow, hhigh⟩ := Ranges.has_iff.mp h
    obtain ⟨hbeyond, w, hw, hwlow, hwhigh⟩ := exists_wordRange_of_mem_digitRanges r hr
    have hhas : wordRanges.has c.toNat = true := Ranges.has_iff.mpr ⟨w, hw, by omega, by omega⟩
    have hge : 0x80 ≤ c.toNat := by omega
    simp [isWord, hhas, hge]

/-- Whether a text begins with a decimal digit. An empty text does not. -/
def beginsWithDigit (text : String) : Bool := text.toList.head?.any isDecimalDigit

end Text

/-! ## Identifiers -/

/-- **A text that an expression reads as one name.** -/
structure IsIdentifier (text : String) : Prop where
  /-- An identifier is not empty. -/
  nonempty : text ≠ ""
  /-- All characters of an identifier belong to words. -/
  words : ∀ c ∈ text.toList, Text.isWord c = true
  /-- An identifier does not begin with a digit, as a number would. -/
  start : Text.beginsWithDigit text = false

/-- Replacing what belongs to no word neither makes a digit nor takes one away. -/
theorem isDecimalDigit_identifierChar (c : Char) :
    Text.isDecimalDigit (identifierChar c) = Text.isDecimalDigit c := by
  unfold identifierChar
  split
  · rfl
  · next hword =>
    have hc : Text.isDecimalDigit c = false :=
      Bool.eq_false_iff.mpr fun hdigit => hword (Text.isWord_of_isDecimalDigit hdigit)
    rw [hc]
    decide

/-- A text begins with a digit exactly if its identifier does. -/
@[simp] theorem beginsWithDigit_identifier (text : String) :
    Text.beginsWithDigit (identifier text) = Text.beginsWithDigit text := by
  unfold Text.beginsWithDigit identifier
  rw [String.toList_ofList, List.head?_map, Option.any_map]
  exact congrArg (Option.any · _) (funext isDecimalDigit_identifierChar)

/-- The identifier of a text that is not empty is not empty: it has as many characters. -/
theorem identifier_ne_empty {text : String} (h : text ≠ "") : identifier text ≠ "" := by
  intro hempty
  have hlength := length_identifier text
  rw [hempty] at hlength
  exact h (String.toList_eq_nil_iff.mp (List.length_eq_zero_iff.mp hlength.symm))

/-- **Which texts become identifiers**: those that do not begin with a digit. Their characters are
all replaced by ones that belong to words, whatever they are. -/
theorem isIdentifier_identifier_iff {text : String} (h : text ≠ "") :
    IsIdentifier (identifier text) ↔ Text.beginsWithDigit text = false := by
  constructor
  · intro hid
    rw [← beginsWithDigit_identifier]
    exact hid.start
  · intro hstart
    exact ⟨identifier_ne_empty h, fun _ => isWord_of_mem_identifier,
      (beginsWithDigit_identifier text).trans hstart⟩

/-- A text begins as its first part does, if this is not empty. -/
theorem beginsWithDigit_append {text : String} (h : text ≠ "") (rest : String) :
    Text.beginsWithDigit (text ++ rest) = Text.beginsWithDigit text := by
  obtain ⟨c, cs, hchars⟩ := List.exists_cons_of_ne_nil (mt String.toList_eq_nil_iff.mp h)
  unfold Text.beginsWithDigit
  rw [String.toList_append, hchars, List.cons_append, List.head?_cons, List.head?_cons]

/-! ## Signals of views and scales -/

namespace View

/-- The signal of a size is never empty, not even that of a view without a name. -/
theorem sizeSignal_ne_empty (v : View) (key : LayoutKey) : v.sizeSignal key ≠ "" := by
  refine identifier_ne_empty ?_
  split
  · cases key <;> decide
  · simp

/-- **A signal of a view is an identifier** exactly if the name of the view does not begin with a
digit. A view without a name has signals that are named for their sizes alone, and these are
identifiers. -/
theorem isIdentifier_sizeSignal_iff (v : View) (key : LayoutKey) :
    IsIdentifier (v.sizeSignal key) ↔ Text.beginsWithDigit v.name = false := by
  unfold sizeSignal signalName
  by_cases hname : v.name = ""
  · rw [hname]
    cases key <;> exact (isIdentifier_identifier_iff (by decide)).trans (by decide)
  · have hnonempty : v.name.isEmpty = false := by simpa using hname
    rw [hnonempty, if_neg Bool.false_ne_true, isIdentifier_identifier_iff (by simp [hname]),
      String.append_assoc, beginsWithDigit_append hname]

end View

namespace Scale

/-- The signal of a step is never empty. -/
theorem stepSignal_ne_empty (s : Scale) : s.stepSignal ≠ "" := identifier_ne_empty (by simp)

/-- **The step signal of a scale is an identifier** exactly if the name of the scale does not begin
with a digit. -/
theorem isIdentifier_stepSignal_iff (s : Scale) :
    IsIdentifier s.stepSignal ↔ Text.beginsWithDigit s.name = false := by
  unfold stepSignal
  rw [isIdentifier_identifier_iff (by simp)]
  by_cases hname : s.name = ""
  · rw [hname]
    decide
  · rw [beginsWithDigit_append hname]

end Scale

end ChartCompiler
