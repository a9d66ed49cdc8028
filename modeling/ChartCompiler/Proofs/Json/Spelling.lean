import ChartCompiler.Proofs.Json.Reading
import Mathlib.Logic.Function.Basic

/-!
# Spelling quoted texts

* `Json.Quoted.Spells` — **the grammar of quoted texts**: what may stand between two quotes, and
  which text it spells. `Json.Quoted.Spells.high` says that no control character does.
* `Json.Quoted.Spells.read_eq` — what is spelled is read up to the closing quote, whatever follows.
* `Json.Quoted.spells_escapeAll` — what is written between quotes spells the text it was written
  for.
* `Json.parse?_quoted` — **a literal is read back**; so two texts have different literals.

The grammar is that of JSON, in which a text can be spelled in several ways; what is written is one
of them. It is stated apart from the functions that write and read, so that what is said of a
literal does not depend on how these work.
-/

namespace ChartCompiler

namespace Json.Quoted

/-! ## The grammar -/

/-- **The grammar of quoted texts**: what may stand between two quotes, with the text that it
spells. -/
inductive Spells : List Char → List Char → Prop
  /-- Nothing spells the empty text. -/
  | nil : Spells [] []
  /-- A character that is neither a quote, a backslash nor a control character stands for itself. -/
  | plain {c : Char} {body text : List Char} (quote : c ≠ '"') (backslash : c ≠ '\\')
      (high : 0x20 ≤ c.toNat) (rest : Spells body text) : Spells (c :: body) (c :: text)
  /-- A backslash and one letter. -/
  | short {e c : Char} {body text : List Char} (escape : shortEscape? e = some c)
      (rest : Spells body text) : Spells ('\\' :: e :: body) (c :: text)
  /-- A backslash and the number of a character in four digits. -/
  | unit {a b c d : Char} {unit : Nat} {body text : List Char}
      (digits : hexUnit? a b c d = some unit) (lead : isLeading unit = false)
      (trail : isTrailing unit = false) (rest : Spells body text) :
      Spells ('\\' :: 'u' :: a :: b :: c :: d :: body) (Char.ofNat unit :: text)
  /-- Two such numbers that make up a pair. -/
  | pair {a b c d a' b' c' d' : Char} {unit unit' : Nat} {body text : List Char}
      (digits : hexUnit? a b c d = some unit) (digits' : hexUnit? a' b' c' d' = some unit')
      (lead : isLeading unit = true) (trail : isTrailing unit' = true) (rest : Spells body text) :
      Spells ('\\' :: 'u' :: a :: b :: c :: d :: '\\' :: 'u' :: a' :: b' :: c' :: d' :: body)
        (ofPair unit unit' :: text)

/-! ## Reading what is spelled -/

/-- A character that stands for itself is read as it is. -/
theorem read_plain {c : Char} (quote : c ≠ '"') (backslash : c ≠ '\\') (high : 0x20 ≤ c.toNat)
    (rest : List Char) : read (c :: rest) = (read rest).map (before (some c)) := by
  simp [read, backslash, Nat.not_lt.mpr high]

/-- A backslash and a letter are read as one character. -/
theorem read_short {e c : Char} (escape : shortEscape? e = some c) (rest : List Char) :
    read ('\\' :: e :: rest) = (read rest).map (before (some c)) := by
  have hunit : e ≠ 'u' := by
    rintro rfl
    cases escape
  simp [read, escape, hunit]

/-- A pair of units is read as one character. -/
theorem read_pair {a b c d a' b' c' d' : Char} {unit unit' : Nat}
    (digits : hexUnit? a b c d = some unit) (digits' : hexUnit? a' b' c' d' = some unit')
    (lead : isLeading unit = true) (trail : isTrailing unit' = true) (rest : List Char) :
    read ('\\' :: 'u' :: a :: b :: c :: d :: '\\' :: 'u' :: a' :: b' :: c' :: d' :: rest) =
      (read rest).map (before (some (ofPair unit unit'))) := by
  simp [read, digits, digits', lead, trail]

/-- **What is spelled is read up to the closing quote**, whatever follows it. -/
theorem Spells.read_eq {body text : List Char} (h : Spells body text) (rest : List Char) :
    read (body ++ '"' :: rest) = some (some text, rest) := by
  induction h with
  | nil => simp [read]
  | plain quote backslash high _ ih =>
    rw [List.cons_append, read_plain quote backslash high, ih]
    rfl
  | short escape _ ih =>
    rw [List.cons_append, List.cons_append, read_short escape, ih]
    rfl
  | unit digits lead trail _ ih =>
    simp only [List.cons_append]
    rw [read_unit digits lead trail, ih]
    rfl
  | pair digits digits' lead trail _ ih =>
    simp only [List.cons_append]
    rw [read_pair digits digits' lead trail, ih]
    rfl

/-- **Control characters are known one by one**, by their numbers. -/
theorem control_induction {P : Char → Prop} (h : ∀ n < 0x20, P (Char.ofNat n)) {c : Char}
    (hc : c.toNat < 0x20) : P c := by
  have hn := h c.toNat hc
  rwa [Char.ofNat_toNat] at hn

/-- No control character is the letter of an escape. -/
theorem high_of_shortEscape? {e c : Char} (h : shortEscape? e = some c) : 0x20 ≤ e.toNat := by
  by_contra hlow
  have hnone : shortEscape? e = none :=
    control_induction (P := fun e => shortEscape? e = none) (by decide) (Nat.lt_of_not_le hlow)
  rw [h] at hnone
  cases hnone

/-- No control character is a hexadecimal digit. -/
theorem high_of_hexValue? {c : Char} {n : Nat} (h : hexValue? c = some n) : 0x20 ≤ c.toNat := by
  by_contra hlow
  have hnone : hexValue? c = none :=
    control_induction (P := fun c => hexValue? c = none) (by decide) (Nat.lt_of_not_le hlow)
  rw [h] at hnone
  cases hnone

/-- The four digits of an escaped unit are no control characters. -/
theorem high_of_hexUnit? {a b c d : Char} {unit : Nat} (h : hexUnit? a b c d = some unit) :
    0x20 ≤ a.toNat ∧ 0x20 ≤ b.toNat ∧ 0x20 ≤ c.toNat ∧ 0x20 ≤ d.toNat := by
  obtain ⟨_, ha, h⟩ := Option.bind_eq_some_iff.mp h
  obtain ⟨_, hb, h⟩ := Option.bind_eq_some_iff.mp h
  obtain ⟨_, hc, h⟩ := Option.bind_eq_some_iff.mp h
  obtain ⟨_, hd, -⟩ := Option.bind_eq_some_iff.mp h
  exact ⟨high_of_hexValue? ha, high_of_hexValue? hb, high_of_hexValue? hc, high_of_hexValue? hd⟩

/-- **No control character stands between two quotes**, whichever way a text is spelled. -/
theorem Spells.high {body text : List Char} (h : Spells body text) :
    ∀ c ∈ body, 0x20 ≤ c.toNat := by
  have hbackslash : 0x20 ≤ '\\'.toNat := by decide
  have hletter : 0x20 ≤ 'u'.toNat := by decide
  induction h with
  | nil => nofun
  | plain _ _ high _ ih => exact List.forall_mem_cons.mpr ⟨high, ih⟩
  | short escape _ ih =>
    simp only [List.forall_mem_cons]
    exact ⟨hbackslash, high_of_shortEscape? escape, ih⟩
  | unit digits _ _ _ ih =>
    obtain ⟨ha, hb, hc, hd⟩ := high_of_hexUnit? digits
    simp only [List.forall_mem_cons]
    exact ⟨hbackslash, hletter, ha, hb, hc, hd, ih⟩
  | pair digits digits' _ _ _ ih =>
    obtain ⟨ha, hb, hc, hd⟩ := high_of_hexUnit? digits
    obtain ⟨ha', hb', hc', hd'⟩ := high_of_hexUnit? digits'
    simp only [List.forall_mem_cons]
    exact ⟨hbackslash, hletter, ha, hb, hc, hd, hbackslash, hletter, ha', hb', hc', hd', ih⟩

/-! ## Spelling what is written -/

/-- Control characters are written with a letter of their own, or by their number. -/
theorem escape_control {c : Char} (hc : c.toNat < 0x20) :
    (∃ e, shortEscape? e = some c ∧ escape c = ['\\', e]) ∨
      escape c = ['\\', 'u', '0', '0', hexDigit (c.toNat / 16), hexDigit (c.toNat % 16)] := by
  -- Only these letters are tried, not all characters.
  have hcases := control_induction
    (P := fun c => (['b', 't', 'n', 'f', 'r'].any fun e =>
        shortEscape? e = some c ∧ escape c = ['\\', e]) = true ∨
      escape c = ['\\', 'u', '0', '0', hexDigit (c.toNat / 16), hexDigit (c.toNat % 16)])
    (by decide) hc
  rcases hcases with hletter | hnumber
  · obtain ⟨e, -, he⟩ := List.any_eq_true.mp hletter
    exact .inl ⟨e, of_decide_eq_true he⟩
  · exact .inr hnumber

/-- **One character between quotes** spells the character: as a letter or a number behind a
backslash if it is a control character, behind a backslash if it is a quote or a backslash, and
otherwise as it is. -/
theorem spells_escape_append (c : Char) {body text : List Char} (h : Spells body text) :
    Spells (escape c ++ body) (c :: text) := by
  by_cases hlow : c.toNat < 0x20
  · rcases escape_control hlow with ⟨e, hshort, hescape⟩ | hescape
    · rw [hescape]
      exact .short hshort h
    · have hlead : isLeading c.toNat = false := by simp [isLeading]; omega
      have htrail : isTrailing c.toNat = false := by simp [isTrailing]; omega
      have hunit := Spells.unit (hexUnit?_control c.toNat hlow) hlead htrail h
      rw [Char.ofNat_toNat] at hunit
      rw [hescape]
      exact hunit
  · by_cases hquote : c = '"'
    · subst hquote
      exact .short rfl h
    · by_cases hbackslash : c = '\\'
      · subst hbackslash
        exact .short rfl h
      · have hescape : escape c = [c] := by simp [escape, hquote, hbackslash, hlow]
        rw [hescape]
        exact .plain hquote hbackslash (Nat.le_of_not_lt hlow) h

/-- **What is written between quotes spells the text** it was written for. -/
theorem spells_escapeAll (text : List Char) : Spells (escapeAll text) text := by
  induction text with
  | nil => exact .nil
  | cons c text ih =>
    rw [escapeAll, List.flatMap_cons]
    exact spells_escape_append c ih

end Json.Quoted

/-! ## Literals -/

/-- A literal is a text that is spelled between two quotes. -/
theorem Json.quoted_eq (text : String) :
    quoted text = "\"" ++ String.ofList (Quoted.escapeAll text.toList) ++ "\"" := by
  apply String.toList_inj.mp
  simp [quoted, Quoted.encode]

/-- **A literal is read back** as the text that it was written for. -/
theorem Json.parse?_quoted (text : String) : parse? (quoted text) = some (.string text) := by
  have hcompact : quoted text = (Json.string text).compact := rfl
  have hnumbers : (Json.string text).numbers = [] := by simp [numbers]
  rw [parse?, parsePart?, hcompact, Outline.parse?_compact (by simp [hnumbers])]
  exact fits_whole (.string text)

/-- Two texts have different literals. -/
theorem Json.quoted_injective : Function.Injective quoted := by
  intro text text' h
  have hread := parse?_quoted text
  rw [h, parse?_quoted text'] at hread
  cases hread
  rfl

end ChartCompiler
