import ChartCompiler.Json.Parser
import ChartCompiler.Json.Printer
import ChartCompiler.Proofs.Json.Order
import Mathlib.Data.List.TakeWhile

/-!
# Reading what was written

* `Number.ReadsBack` — a number is read back from its own text.
* `Json.outline` — the outline of a value: every leaf stands for itself.
* `Json.IsReadBack` — a value is read from its characters, whatever follows them;
  `Json.isReadBack_of_numbers` says that it is enough that its numbers read back.
* `Json.Outline.parse?_compact` — **a value that was written is taken apart into its outline**.
* `Json.Fits` — a shape reads all of a value. The shape of everything does.

The reader is one recursion over values, items and members, and it spends a step on each of them. So
what is shown by induction on a value says three things at once: that its characters are read if the
steps suffice, twice as many as there are characters; that the rest of the text is left as it is;
and how the value begins, which is what the reader goes by in an array and after a comma.

Whether numbers are read back is not settled here. It is a hypothesis about the numbers that a value
holds, because printing and reading of floats round in ways of their own; everything else is proved
to read back.
-/

namespace ChartCompiler

/-! ## Numbers -/

namespace Number

/-- **A number is read back** from its own text. That it is so has to be known of each number. -/
def ReadsBack (n : Number) : Prop := ofToken? n.chars = some n

/-- Digits are characters of numbers. -/
theorem isNumberChar_of_isDigit {c : Char} (h : c.isDigit = true) : isNumberChar c = true := by
  simp [isNumberChar, h]

/-- An exponent is made of characters of numbers: digits, and a sign in front of them. -/
theorem isNumberChar_of_exponent? {token : List Char} {p : Int} (h : exponent? token = some p) :
    ∀ c ∈ token, isNumberChar c = true := by
  have signed : ∀ {digits : List Char} {v : Int},
      (if digits.isEmpty || !digits.all Char.isDigit then none else some v) = some p →
        ∀ c ∈ digits, isNumberChar c = true := by
    intro digits v hdigits c hc
    obtain ⟨hdigits, -⟩ := Option.ite_none_left_eq_some.mp hdigits
    simp only [Bool.or_eq_true, Bool.not_eq_true', not_or, Bool.not_eq_false] at hdigits
    exact isNumberChar_of_isDigit (List.all_eq_true.mp hdigits.2 c hc)
  unfold exponent? at h
  split at h
  · exact List.forall_mem_cons.mpr ⟨by decide, signed h⟩
  · exact List.forall_mem_cons.mpr ⟨by decide, signed h⟩
  · exact signed h

/-- What follows the whole digits of a number is made of characters of numbers: a point with digits,
an exponent, both, or nothing. -/
theorem isNumberChar_of_ofTail? {negative : Bool} {whole tail : List Char} {n : Number}
    (h : ofTail? negative whole tail = some n) : ∀ c ∈ tail, isNumberChar c = true := by
  have power : ∀ {e : Char} {power : List Char} {f : Int → Number},
      (if e = 'e' ∨ e = 'E' then (exponent? power).map f else none) = some n →
        ∀ c ∈ e :: power, isNumberChar c = true := by
    intro e power f hpower
    obtain ⟨he, hpower⟩ := Option.ite_none_right_eq_some.mp hpower
    obtain ⟨p, hp, -⟩ := Option.map_eq_some_iff.mp hpower
    refine List.forall_mem_cons.mpr ⟨?_, isNumberChar_of_exponent? hp⟩
    rcases he with rfl | rfl <;> decide
  unfold ofTail? at h
  split at h
  · exact fun _ => nofun
  · rename_i rest
    obtain ⟨-, h⟩ := Option.ite_none_left_eq_some.mp h
    refine List.forall_mem_cons.mpr ⟨by decide, fun c hc => ?_⟩
    -- Behind the point there are digits, and an exponent where these end.
    rw [← List.takeWhile_append_dropWhile (p := Char.isDigit) (l := rest), List.mem_append] at hc
    rcases hc with hc | hc
    · exact isNumberChar_of_isDigit (List.mem_takeWhile_imp hc)
    · split at h
      · rename_i hend
        rw [hend] at hc
        cases hc
      · rename_i hend
        rw [hend] at hc
        exact power h c hc
  · exact power h

/-- A number without a sign is not empty and made of characters of numbers. -/
theorem isNumberChar_of_ofUnsigned? {negative : Bool} {token : List Char} {n : Number}
    (h : ofUnsigned? negative token = some n) :
    token ≠ [] ∧ ∀ c ∈ token, isNumberChar c = true := by
  obtain ⟨hwhole, h⟩ := Option.ite_none_left_eq_some.mp h
  refine ⟨?_, fun c hc => ?_⟩
  · rintro rfl
    exact hwhole rfl
  · rw [← List.takeWhile_append_dropWhile (p := Char.isDigit) (l := token), List.mem_append] at hc
    rcases hc with hc | hc
    · exact isNumberChar_of_isDigit (List.mem_takeWhile_imp hc)
    · exact isNumberChar_of_ofTail? h c hc

/-- **The text of a number** is not empty and holds only the characters of numbers. -/
theorem isNumberChar_of_ofToken? {token : List Char} {n : Number} (h : ofToken? token = some n) :
    token ≠ [] ∧ ∀ c ∈ token, isNumberChar c = true := by
  unfold ofToken? at h
  split at h
  · refine ⟨List.cons_ne_nil _ _, List.forall_mem_cons.mpr ⟨by decide, ?_⟩⟩
    exact (isNumberChar_of_ofUnsigned? h).2
  · exact isNumberChar_of_ofUnsigned? h

/-- A float that is not finite is written as null, which is no number. -/
theorem ReadsBack.isFinite {n : Number} (h : n.ReadsBack) : n.isFinite = true := by
  cases n with
  | integer i => rfl
  | float x =>
    by_contra hfinite
    have hchars : (Number.float x).chars = "null".toList := if_neg hfinite
    have hnull : ofToken? "null".toList = none := by decide
    rw [ReadsBack, hchars, hnull] at h
    cases h

end Number

namespace Json

/-! ## Outlines of values -/

mutual

/-- **The outline of a value**, in which everything is kept: a leaf is what it was read as, and
arrays and objects have the outlines of what they hold. -/
def outline : Json → Outline
  | .array items => .array (outlineItems items)
  | .object members => .object (outlineMembers members)
  | .null => .leaf (some .null)
  | .bool b => .leaf (some (.bool b))
  | .number n => .leaf (some (.number n))
  | .string s => .leaf (some (.string s))

/-- `outline` on the items of an array. -/
def outlineItems : List Json → List Outline
  | [] => []
  | item :: rest => item.outline :: outlineItems rest

/-- `outline` on the members of an object. -/
def outlineMembers : List (String × Json) → List (Option String × Outline)
  | [] => []
  | (name, value) :: rest => (some name, value.outline) :: outlineMembers rest

end

mutual

/-- The numbers in a value. -/
def numbers : Json → List Number
  | .array items => numbersItems items
  | .object members => numbersMembers members
  | .number n => [n]
  | .null | .bool _ | .string _ => []

/-- The numbers in the items of an array. -/
def numbersItems : List Json → List Number
  | [] => []
  | item :: rest => item.numbers ++ numbersItems rest

/-- The numbers in the members of an object. -/
def numbersMembers : List (String × Json) → List Number
  | [] => []
  | (_, value) :: rest => value.numbers ++ numbersMembers rest

end

/-- The numbers in an array are those in its items. -/
theorem mem_numbers_array {items : List Json} {n : Number} :
    n ∈ (array items).numbers ↔ ∃ item ∈ items, n ∈ item.numbers := by
  rw [numbers]
  induction items with
  | nil => simp [numbersItems]
  | cons item rest ih => simp [numbersItems, ih]

/-- The numbers in an object are those in the values of its members. -/
theorem mem_numbers_object {members : List (String × Json)} {n : Number} :
    n ∈ (object members).numbers ↔ ∃ m ∈ members, n ∈ m.2.numbers := by
  rw [numbers]
  induction members with
  | nil => simp [numbersMembers]
  | cons m rest ih => simp [numbersMembers, ih]

/-- The value of a member is smaller than the object, so that a recursion over values may go into
objects. -/
theorem sizeOf_member_lt {members : List (String × Json)} {m : String × Json} (h : m ∈ members) :
    sizeOf m.2 < sizeOf (object members) := by
  have hm := List.sizeOf_lt_of_mem h
  obtain ⟨name, value⟩ := m
  simp only [Prod.mk.sizeOf_spec, object.sizeOf_spec] at hm ⊢
  omega

/-- The numbers in a value do not depend on the order of members. -/
theorem mem_numbers_rearrange {order : MemberOrder} {n : Number} :
    (j : Json) → (n ∈ (rearrange order j).numbers ↔ n ∈ j.numbers)
  | .null | .bool _ | .number _ | .string _ => .rfl
  | .array items => by
    simp only [rearrange, rearrangeItems_eq_map, mem_numbers_array, List.mem_map,
      exists_exists_and_eq_and]
    exact exists_congr fun item => and_congr_right fun _hitem => mem_numbers_rearrange item
  | .object members => by
    simp only [rearrange, rearrangeMembers_eq_map, mem_numbers_object, (order.perm _).mem_iff,
      List.mem_map, exists_exists_and_eq_and]
    exact exists_congr fun m => and_congr_right fun _hm => mem_numbers_rearrange m.2
termination_by j => sizeOf j
decreasing_by
  · decreasing_tactic
  · exact sizeOf_member_lt _hm

/-! ## Values are read back -/

namespace Outline

/-- What may follow a number: nothing that could go on with it. -/
def EndsNumber (rest : List Char) : Prop := ∀ c ∈ rest.head?, Number.isNumberChar c = false

/-- A number ends in front of a character that no number has. -/
theorem endsNumber_cons {c : Char} (h : Number.isNumberChar c = false) (rest : List Char) :
    EndsNumber (c :: rest) := by
  rintro _ ⟨⟩
  exact h

/-- A text that begins with no blank has none to skip. -/
theorem skipBlanks_cons {c : Char} (h : isBlank c = false) (rest : List Char) :
    skipBlanks (c :: rest) = c :: rest :=
  List.dropWhile_cons_of_neg (by simp [h])

/-- A quoted name or text is read back, up to its closing quote. -/
theorem readString_encode (s : String) (rest : List Char) :
    readString (Quoted.escapeAll s.toList ++ '"' :: rest) = some (some s, rest) := by
  rw [readString, Quoted.read_escapeAll]
  simp

/-- **A number is read** up to the first character that cannot go on with it. -/
theorem readValue_token {token rest : List Char} {n : Number}
    (htoken : Number.ofToken? token = some n) (hrest : EndsNumber rest) (steps : Nat) :
    readValue (steps + 1) (token ++ rest) = some (ofNumber n, rest) := by
  obtain ⟨hne, hchars⟩ := Number.isNumberChar_of_ofToken? htoken
  obtain ⟨c, token', rfl⟩ := List.exists_cons_of_ne_nil hne
  have hc : Number.isNumberChar c = true := hchars c List.mem_cons_self
  have htake : (c :: token' ++ rest).takeWhile Number.isNumberChar = c :: token' := by
    rw [List.takeWhile_append_of_pos hchars]
    cases rest with
    | nil => simp
    | cons d rest => simp [hrest d rfl]
  have hdrop : (c :: token' ++ rest).dropWhile Number.isNumberChar = rest := by
    rw [List.dropWhile_append_of_pos hchars]
    cases rest with
    | nil => simp
    | cons d rest => simp [hrest d rfl]
  -- The other forms of a value begin with characters that no number has.
  have first : ∀ {d : Char} {tail : List Char}, Number.isNumberChar d = false →
      c :: token' ++ rest = d :: tail → False := by
    intro d tail hd h
    rw [List.cons_append, List.cons.injEq] at h
    rw [h.1, hd] at hc
    cases hc
  rw [readValue, htake, hdrop, htoken]
  · rfl
  · exact fun _ => first (by decide)
  · exact fun _ => first (by decide)
  · exact fun _ => first (by decide)
  · exact fun _ => first (by decide)
  · exact fun _ => first (by decide)
  · exact fun _ => first (by decide)

end Outline

open Outline

/-- **A value is read back** from its characters, whatever follows them. A value begins with no
blank, and not like the end of an array. -/
structure IsReadBack (j : Json) : Prop where
  /-- The first character of the value tells it from a blank and from the end of an array. -/
  begins : ∃ c tail, j.chars = c :: tail ∧ isBlank c = false ∧ c ≠ ']'
  /-- With two steps for every character the value is read, and the rest is left. -/
  reads : ∀ steps rest, 2 * j.chars.length ≤ steps → EndsNumber rest →
    readValue steps (j.chars ++ rest) = some (j.outline, rest)

/-- No blanks are skipped in front of a value. -/
theorem IsReadBack.skipBlanks_chars {j : Json} (h : j.IsReadBack) (rest : List Char) :
    skipBlanks (j.chars ++ rest) = j.chars ++ rest := by
  obtain ⟨c, tail, hchars, hblank, -⟩ := h.begins
  rw [hchars, List.cons_append]
  exact skipBlanks_cons hblank _

/-- A value has characters. -/
theorem IsReadBack.length_pos {j : Json} (h : j.IsReadBack) : 0 < j.chars.length := by
  obtain ⟨c, tail, hchars, -⟩ := h.begins
  rw [hchars]
  exact Nat.succ_pos _

/-- A number whose text is read back is read back as a value. It ends where the text goes on with
something that no number has. -/
theorem isReadBack_number {n : Number} (h : n.ReadsBack) : (number n).IsReadBack := by
  obtain ⟨hne, hchars⟩ := Number.isNumberChar_of_ofToken? h
  refine ⟨?_, fun steps rest hsteps hrest => ?_⟩
  · obtain ⟨c, tail, heq⟩ := List.exists_cons_of_ne_nil hne
    have hc : Number.isNumberChar c = true := hchars c (heq ▸ List.mem_cons_self)
    refine ⟨c, tail, heq, ?_, ?_⟩
    · by_contra hblank
      simp only [isBlank, Bool.not_eq_false, Bool.or_eq_true, beq_iff_eq] at hblank
      rcases hblank with ((rfl | rfl) | rfl) | rfl <;> cases hc
    · rintro rfl
      cases hc
  · have hpos : 0 < n.chars.length := List.length_pos_iff.mpr hne
    have hsteps : 2 * n.chars.length ≤ steps := hsteps
    obtain ⟨steps, rfl⟩ : ∃ k, steps = k + 1 := ⟨steps - 1, by omega⟩
    show readValue (steps + 1) (n.chars ++ rest) = _
    rw [readValue_token h hrest, ofNumber, h.isFinite]
    rfl

/-- The word for null is read back. -/
theorem isReadBack_null : null.IsReadBack := by
  refine ⟨⟨'n', _, rfl, by decide, by decide⟩, fun steps rest hsteps _ => ?_⟩
  obtain ⟨steps, rfl⟩ : ∃ k, steps = k + 1 := ⟨steps - 1, by simp [chars] at hsteps; omega⟩
  rfl

/-- The words of the two truth values are read back. -/
theorem isReadBack_bool (b : Bool) : (bool b).IsReadBack := by
  cases b with
  | false =>
    refine ⟨⟨'f', _, rfl, by decide, by decide⟩, fun steps rest hsteps _ => ?_⟩
    obtain ⟨steps, rfl⟩ : ∃ k, steps = k + 1 := ⟨steps - 1, by simp [chars] at hsteps; omega⟩
    rfl
  | true =>
    refine ⟨⟨'t', _, rfl, by decide, by decide⟩, fun steps rest hsteps _ => ?_⟩
    obtain ⟨steps, rfl⟩ : ∃ k, steps = k + 1 := ⟨steps - 1, by simp [chars] at hsteps; omega⟩
    rfl

/-- A text is read back from between its quotes. -/
theorem isReadBack_string (s : String) : (string s).IsReadBack := by
  refine ⟨⟨'"', _, rfl, by decide, by decide⟩, fun steps rest hsteps _ => ?_⟩
  simp only [chars, Quoted.encode, List.length_cons] at hsteps
  obtain ⟨steps, rfl⟩ : ∃ k, steps = k + 1 := ⟨steps - 1, by omega⟩
  rw [chars, Quoted.encode, List.cons_append, List.append_assoc, List.singleton_append, readValue,
    readString_encode]
  rfl

section items

variable {item : Json} {steps : Nat} (hitem : item.IsReadBack)
  (hsteps : 2 * item.chars.length ≤ steps) (rest : List Char)

include hitem hsteps

/-- The last item of an array is read up to the bracket behind it. -/
theorem readItems_last :
    readItems (steps + 1) (item.chars ++ ']' :: rest) = some ([item.outline], rest) := by
  rw [readItems, hitem.skipBlanks_chars, hitem.reads steps _ hsteps (endsNumber_cons (by decide) _)]
  dsimp only
  rw [skipBlanks_cons (by decide)]
  rfl

/-- An item of an array that others follow is read up to the comma, and the others after it. -/
theorem readItems_more :
    readItems (steps + 1) (item.chars ++ ',' :: rest) =
      (readItems steps rest).map fun r => (item.outline :: r.1, r.2) := by
  rw [readItems, hitem.skipBlanks_chars, hitem.reads steps _ hsteps (endsNumber_cons (by decide) _)]
  dsimp only
  rw [skipBlanks_cons (by decide)]
  rfl

end items

/-- **The items of an array are read back**, up to the end of the array. The induction is on the
items behind the first one. -/
theorem readItems_chars {item : Json} {items : List Json} (hitem : item.IsReadBack)
    (hitems : ∀ j ∈ items, j.IsReadBack) :
    ∀ steps rest, 2 * (item.chars ++ itemChars items).length ≤ steps →
      readItems steps (item.chars ++ (itemChars items ++ rest)) =
        some (outlineItems (item :: items), rest) := by
  induction items generalizing item with
  | nil =>
    intro steps rest hsteps
    simp only [itemChars, List.length_append, List.length_singleton] at hsteps
    obtain ⟨steps, rfl⟩ : ∃ k, steps = k + 1 := ⟨steps - 1, by omega⟩
    exact readItems_last hitem (by omega) rest
  | cons next items ih =>
    intro steps rest hsteps
    have hpos := hitem.length_pos
    simp only [itemChars, List.length_append, List.length_cons] at hsteps
    obtain ⟨steps, rfl⟩ : ∃ k, steps = k + 1 := ⟨steps - 1, by omega⟩
    have hnext := ih (hitems next List.mem_cons_self)
      (fun j hj => hitems j (List.mem_cons_of_mem _ hj)) steps rest
      (by rw [List.length_append]; omega)
    rw [itemChars, List.cons_append, List.append_assoc, readItems_more hitem (by omega), hnext]
    rfl

/-- An array is read back if its items are. -/
theorem isReadBack_array {items : List Json} (h : ∀ j ∈ items, j.IsReadBack) :
    (array items).IsReadBack := by
  cases items with
  | nil =>
    refine ⟨⟨'[', _, rfl, by decide, by decide⟩, fun steps rest hsteps _ => ?_⟩
    simp only [chars, List.length_cons] at hsteps
    obtain ⟨steps, rfl⟩ : ∃ k, steps = k + 1 := ⟨steps - 1, by omega⟩
    rw [chars, List.cons_append, List.singleton_append, readValue, skipBlanks_cons (by decide)]
    rfl
  | cons item items =>
    have hitem := h item List.mem_cons_self
    refine ⟨⟨'[', _, rfl, by decide, by decide⟩, fun steps rest hsteps _ => ?_⟩
    rw [chars, List.length_cons] at hsteps
    obtain ⟨steps, rfl⟩ : ∃ k, steps = k + 1 := ⟨steps - 1, by omega⟩
    rw [chars, List.cons_append, readValue]
    -- The first item does not begin like the end of the array, so the reader goes on to it.
    obtain ⟨c, tail, hchars, -, hc⟩ := hitem.begins
    have hread := readItems_chars hitem (fun j hj => h j (List.mem_cons_of_mem _ hj)) steps rest
      (by omega)
    rw [List.append_assoc, hitem.skipBlanks_chars]
    split
    · rename_i hend
      rw [hchars, List.cons_append, List.cons.injEq] at hend
      exact absurd hend.1 hc
    · rw [hread]
      rfl

section members

variable (name : String) {value : Json} {steps : Nat} (hvalue : value.IsReadBack)
  (hsteps : 2 * value.chars.length ≤ steps) (rest : List Char)

include hvalue hsteps

/-- The last member of an object is read up to the brace behind it. -/
theorem readMembers_last :
    readMembers (steps + 1) (Quoted.encode name.toList ++ ':' :: (value.chars ++ '\x7d' :: rest)) =
      some ([(some name, value.outline)], rest) := by
  rw [Quoted.encode, List.cons_append, List.append_assoc, List.singleton_append, readMembers,
    skipBlanks_cons (by decide)]
  simp only [readString_encode, skipBlanks_cons (show isBlank ':' = false by decide)]
  rw [hvalue.skipBlanks_chars, hvalue.reads steps _ hsteps (endsNumber_cons (by decide) _)]
  dsimp only
  rw [skipBlanks_cons (by decide)]
  rfl

/-- A member of an object that others follow is read up to the comma, and the others after it. -/
theorem readMembers_more :
    readMembers (steps + 1) (Quoted.encode name.toList ++ ':' :: (value.chars ++ ',' :: rest)) =
      (readMembers steps rest).map fun r => ((some name, value.outline) :: r.1, r.2) := by
  rw [Quoted.encode, List.cons_append, List.append_assoc, List.singleton_append, readMembers,
    skipBlanks_cons (by decide)]
  simp only [readString_encode, skipBlanks_cons (show isBlank ':' = false by decide)]
  rw [hvalue.skipBlanks_chars, hvalue.reads steps _ hsteps (endsNumber_cons (by decide) _)]
  dsimp only
  rw [skipBlanks_cons (by decide)]
  rfl

end members

/-- **The members of an object are read back**, up to the end of the object. -/
theorem readMembers_chars (name : String) {value : Json} {members : List (String × Json)}
    (hvalue : value.IsReadBack) (hmembers : ∀ m ∈ members, m.2.IsReadBack) :
    ∀ steps rest, 2 * (value.chars ++ memberChars members).length + 2 ≤ steps →
      readMembers steps
          (Quoted.encode name.toList ++ ':' :: (value.chars ++ (memberChars members ++ rest))) =
        some (outlineMembers ((name, value) :: members), rest) := by
  induction members generalizing name value with
  | nil =>
    intro steps rest hsteps
    simp only [memberChars, List.length_append, List.length_singleton] at hsteps
    obtain ⟨steps, rfl⟩ : ∃ k, steps = k + 1 := ⟨steps - 1, by omega⟩
    exact readMembers_last name hvalue (by omega) rest
  | cons next members ih =>
    obtain ⟨name', value'⟩ := next
    intro steps rest hsteps
    simp only [memberChars, List.length_append, List.length_cons] at hsteps
    obtain ⟨steps, rfl⟩ : ∃ k, steps = k + 1 := ⟨steps - 1, by omega⟩
    have hvalue' : value'.IsReadBack := hmembers _ List.mem_cons_self
    have hnext := ih name' hvalue'
      (fun m hm => hmembers m (List.mem_cons_of_mem _ hm)) steps rest
      (by rw [List.length_append]; omega)
    rw [memberChars]
    simp only [List.cons_append, List.append_assoc]
    rw [readMembers_more name hvalue (by omega), hnext]
    rfl

/-- An object is read back if the values of its members are, with the names in their order. -/
theorem isReadBack_object {members : List (String × Json)} (h : ∀ m ∈ members, m.2.IsReadBack) :
    (object members).IsReadBack := by
  cases members with
  | nil =>
    refine ⟨⟨'\x7b', _, rfl, by decide, by decide⟩, fun steps rest hsteps _ => ?_⟩
    simp only [chars, List.length_cons] at hsteps
    obtain ⟨steps, rfl⟩ : ∃ k, steps = k + 1 := ⟨steps - 1, by omega⟩
    rw [chars, List.cons_append, List.singleton_append, readValue, skipBlanks_cons (by decide)]
    rfl
  | cons m members =>
    obtain ⟨name, value⟩ := m
    have hvalue : value.IsReadBack := h _ List.mem_cons_self
    refine ⟨⟨'\x7b', _, rfl, by decide, by decide⟩, fun steps rest hsteps _ => ?_⟩
    simp only [chars, Quoted.encode, List.length_cons, List.length_append] at hsteps
    obtain ⟨steps, rfl⟩ : ∃ k, steps = k + 1 := ⟨steps - 1, by omega⟩
    have hread := readMembers_chars name hvalue
      (fun m hm => h m (List.mem_cons_of_mem _ hm)) steps rest
      (by rw [List.length_append]; omega)
    rw [chars]
    simp only [List.cons_append, List.append_assoc]
    rw [readValue, Quoted.encode, List.cons_append, skipBlanks_cons (by decide)]
    rw [Quoted.encode, List.cons_append] at hread
    show (readMembers steps _).map _ = _
    rw [hread]
    rfl

/-- **A value is read back if its numbers are.** Everything else in a value reads back by itself. -/
theorem isReadBack_of_numbers : (j : Json) → (∀ n ∈ j.numbers, n.ReadsBack) → j.IsReadBack
  | .null, _ => isReadBack_null
  | .bool b, _ => isReadBack_bool b
  | .number n, h => isReadBack_number (h n (by simp [numbers]))
  | .string s, _ => isReadBack_string s
  | .array items, h => isReadBack_array fun j hj =>
    isReadBack_of_numbers j fun n hn => h n (mem_numbers_array.mpr ⟨j, hj, hn⟩)
  | .object members, h => isReadBack_object fun m hm =>
    isReadBack_of_numbers m.2 fun n hn => h n (mem_numbers_object.mpr ⟨m, hm, hn⟩)
termination_by j => sizeOf j
decreasing_by
  · decreasing_tactic
  · exact sizeOf_member_lt hm

/-- **A value that was written is taken apart into its outline.** The reader gives itself enough
steps for the length of the text. -/
theorem Outline.parse?_compact {j : Json} (h : ∀ n ∈ j.numbers, n.ReadsBack) :
    parse? j.compact = some j.outline := by
  have hj := isReadBack_of_numbers j h
  have hread := hj.reads (2 * j.chars.length + 2) [] (by omega) nofun
  rw [List.append_nil] at hread
  have hskip : skipBlanks j.chars = j.chars := by
    have := hj.skipBlanks_chars []
    rwa [List.append_nil] at this
  simp only [parse?, compact, String.toList_ofList, hskip, hread]
  rfl

/-! ## Shapes that read all of a value -/

/-- **A shape reads all of a value**: it selects from the outline of the value the value itself. -/
def Fits (shape : Shape) (j : Json) : Prop := Outline.select? shape j.outline = some j

/-- A shape reads all of an array if it reads all of every item, at whatever place. -/
theorem fits_array {shape : Shape} {items : List Json}
    (h : ∀ item ∈ items, ∀ place, Fits (shape.item place) item) : Fits shape (array items) := by
  have hitems : ∀ place, selectItems? shape place (outlineItems items) = some items := by
    induction items with
    | nil => exact fun _ => rfl
    | cons item rest ih =>
      intro place
      have hitem : select? (shape.item place) item.outline = some item :=
        h item List.mem_cons_self place
      rw [outlineItems, selectItems?, hitem,
        ih (fun j hj => h j (List.mem_cons_of_mem _ hj)) (place + 1)]
      rfl
  rw [Fits, outline, select?, hitems]
  rfl

/-- A shape reads all of an object if it has a shape for each member that reads all of its value. -/
theorem fits_object {shape : Shape} {members : List (String × Json)}
    (h : ∀ m ∈ members, ∃ inner, shape.member? m.1 = some inner ∧ Fits inner m.2) :
    Fits shape (object members) := by
  have hmembers : selectMembers? shape (outlineMembers members) = some members := by
    induction members with
    | nil => rfl
    | cons m rest ih =>
      obtain ⟨name, value⟩ := m
      obtain ⟨inner, hinner, hvalue⟩ := h _ List.mem_cons_self
      have hvalue : select? inner value.outline = some value := hvalue
      rw [outlineMembers, selectMembers?, hinner]
      dsimp only
      rw [hvalue, ih fun m hm => h m (List.mem_cons_of_mem _ hm)]
      rfl
  rw [Fits, outline, select?, hmembers]
  rfl

/-- The shape of everything reads all of a value. -/
theorem fits_whole : (j : Json) → Fits .whole j
  | .null | .bool _ | .number _ | .string _ => rfl
  | .array items => fits_array fun item _hitem _ => fits_whole item
  | .object members => fits_object fun m _hm => ⟨.whole, rfl, fits_whole m.2⟩
termination_by j => sizeOf j
decreasing_by
  · decreasing_tactic
  · exact sizeOf_member_lt _hm

/-- A flat shape reads all of each of its properties. -/
theorem member?_flat {names : List String} {name : String} (h : name ∈ names) :
    (Shape.flat names).member? name = some .whole := by
  show (names.map fun name => (name, Shape.whole)).lookup name = some .whole
  induction names with
  | nil => cases h
  | cons n rest ih =>
    rw [List.map_cons, List.lookup_cons]
    rcases List.mem_cons.mp h with rfl | hrest
    · simp
    · cases name == n with
      | true => rfl
      | false => exact ih hrest

/-- **What was written is read back by every shape that reads all of it.** -/
theorem parsePart?_compact {shape : Shape} {j : Json} (h : ∀ n ∈ j.numbers, n.ReadsBack)
    (hshape : Fits shape j) : parsePart? shape j.compact = some j := by
  rw [parsePart?, Outline.parse?_compact h]
  exact hshape

end Json

end ChartCompiler
