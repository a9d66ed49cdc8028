import ChartCompiler.Text.Word

/-!
# Names of signals and fields

* `identifier` — **a signal name made from any text**: every character that does not belong to a
  word becomes an underscore.
* `escapePath` — **a flattened field name as a field reference**: a dot would descend into a nested
  object, so each dot gets a backslash.
-/

namespace ChartCompiler

/-- The character that stands for `c` in an identifier. -/
def identifierChar (c : Char) : Char := if Text.isWord c then c else '_'

/-- **The identifier of a text.** -/
def identifier (text : String) : String := String.ofList (text.toList.map identifierChar)

/-- A field name with its dots escaped, as characters. -/
def escapeDots : List Char → List Char
  | [] => []
  | c :: rest => if c = '.' then '\\' :: '.' :: escapeDots rest else c :: escapeDots rest

/-- **The field reference of a flattened field name.** -/
def escapePath (field : String) : String := String.ofList (escapeDots field.toList)

/-! ## Laws -/

/-- The character that stands in an identifier belongs to words, whatever it stands for. -/
theorem isWord_identifierChar (c : Char) : Text.isWord (identifierChar c) = true := by
  unfold identifierChar
  split
  · assumption
  · exact Text.isWord_underscore

/-- An identifier is made of word characters only. -/
theorem isWord_of_mem_identifier {text : String} {c : Char} (h : c ∈ (identifier text).toList) :
    Text.isWord c = true := by
  rw [identifier, String.toList_ofList, List.mem_map] at h
  obtain ⟨d, _, rfl⟩ := h
  exact isWord_identifierChar d

/-- An identifier has a character for each character of the text. -/
@[simp] theorem length_identifier (text : String) :
    (identifier text).toList.length = text.toList.length := by
  simp [identifier]

end ChartCompiler
