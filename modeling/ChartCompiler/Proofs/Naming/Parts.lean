import Mathlib.Data.List.Forall2
import Mathlib.Data.List.Nodup

/-!
# Names in parts

A name tells its parts apart although they are joined by underscores and hold underscores
themselves: a part begins with an underscore and its key, and no value made from numbers goes on
like that.

* `partText` — the text of a part: its key and its value behind underscores, or nothing if it has no
  value.
* `IsNumberWord` — a value made from numbers: digits and underscores, with a digit at the end.
* `ToldApart` — two values that are the same if texts agree that begin with them and go on with a
  part.
* `flatMap_partText_inj` — **the values of all parts can be read off a name**, given the keys.

Where a value ends is what has to be found. If two texts agree and one value were longer than the
other, the rest of it would have to look like the beginning of a part: an underscore, and then a
character that is neither a digit nor an underscore. A value made from numbers has no such
character. Which keys there are is known here, and they are distinct, so a part that is missing in
one of two names cannot be made up for by a later one.

Nothing in this module speaks of binnings; `BinParams.words` says what the parts of their names are.
-/

namespace ChartCompiler

/-! ## Keys -/

/-- What a key is made of: neither digits nor underscores, which are what values made from numbers
consist of. -/
def isKeyChar (c : Char) : Bool := !c.isDigit && c != '_'

/-- **A key** stands between the underscores of a name. -/
structure IsKey (key : List Char) : Prop where
  /-- A key has characters, so the underscore in front of it is not followed by another one. -/
  nonempty : key ≠ []
  /-- No character of a key is a digit or an underscore. -/
  keyChars : ∀ c ∈ key, isKeyChar c = true

/-- A key ends at the underscore behind it, so two texts that begin with keys and agree have the
same key and go on in the same way. -/
theorem IsKey.append_inj {key key' rest rest' : List Char} (h : IsKey key) (h' : IsKey key')
    (heq : key ++ '_' :: rest = key' ++ '_' :: rest') : key = key' ∧ rest = rest' := by
  have htake : ∀ {key rest : List Char}, IsKey key →
      (key ++ '_' :: rest).takeWhile isKeyChar = key := by
    intro key rest hkey
    rw [List.takeWhile_append_of_pos hkey.keyChars, List.takeWhile_cons_of_neg (by decide),
      List.append_nil]
  have hkeys : key = key' := by rw [← htake h, heq, htake h']
  subst hkeys
  exact ⟨rfl, (List.cons.inj (List.append_cancel_left heq)).2⟩

/-! ## Values -/

/-- What may follow a value: nothing, or an underscore and what begins a key. -/
inductive StartsPart : List Char → Prop
  | nil : StartsPart []
  | cons {c : Char} (rest : List Char) (key : isKeyChar c = true) : StartsPart ('_' :: c :: rest)

/-- **Two values are told apart** by any texts that begin with them: if the texts agree and go on as
a name in parts does, the values are the same, and so is what follows. -/
def ToldApart (value value' : List Char) : Prop :=
  ∀ rest rest', StartsPart rest → StartsPart rest' → value ++ rest = value' ++ rest' →
    value = value' ∧ rest = rest'

/-- **A value made from numbers**: one number, or several with an underscore between two of them. -/
structure IsNumberWord (word : List Char) : Prop where
  /-- A value made from numbers holds nothing but digits and underscores. -/
  isDigit_or : ∀ c ∈ word, c.isDigit = true ∨ c = '_'
  /-- A value made from numbers does not end with an underscore. -/
  getLast : ∀ c ∈ word.getLast?, c.isDigit = true

/-- A value made from numbers does not go on as a part begins. -/
theorem IsNumberWord.eq_nil_of_append {word more rest : List Char} (h : IsNumberWord (word ++ more))
    (hstarts : StartsPart (more ++ rest)) : more = [] := by
  match more with
  | [] => rfl
  | [c] =>
    -- The underscore that begins a part would be the last character of the value.
    have hdigit : c.isDigit = true := h.getLast c (by simp)
    cases hstarts with
    | cons => exact absurd hdigit (by decide)
  | c :: d :: more =>
    -- Its second character would begin a key.
    cases hstarts with
    | cons _ hkey =>
      rcases h.isDigit_or d (by simp) with hdigit | rfl
      · simp [isKeyChar, hdigit] at hkey
      · exact absurd hkey (by decide)

/-- **Values made from numbers are told apart.** Of two texts that agree, one begins with the value
of the other, and what this value has left over would begin a part. -/
theorem IsNumberWord.toldApart {word word' : List Char} (h : IsNumberWord word)
    (h' : IsNumberWord word') : ToldApart word word' := by
  intro rest rest' hrest hrest' heq
  rcases List.append_eq_append_iff.mp heq with ⟨more, rfl, rfl⟩ | ⟨more, rfl, rfl⟩
  · rw [h'.eq_nil_of_append hrest, List.append_nil, List.nil_append]
    exact ⟨rfl, rfl⟩
  · rw [h.eq_nil_of_append hrest', List.append_nil, List.nil_append]
    exact ⟨rfl, rfl⟩

/-! ## Parts -/

/-- **The text of a part**, a key and perhaps a value. A part without a value leaves no trace in a
name. -/
def partText (part : List Char × Option (List Char)) : List Char :=
  match part.2 with
  | none => []
  | some value => '_' :: (part.1 ++ '_' :: value)

variable {parts parts' : List (List Char × Option (List Char))}

/-- A name in parts goes on as a part begins. -/
theorem startsPart_flatMap (h : ∀ part ∈ parts, IsKey part.1) :
    StartsPart (parts.flatMap partText) := by
  induction parts with
  | nil => exact .nil
  | cons part parts ih =>
    obtain ⟨key, value⟩ := part
    have hkey : IsKey key := h _ List.mem_cons_self
    cases value with
    | none => exact ih fun part hpart => h part (List.mem_cons_of_mem _ hpart)
    | some value =>
      obtain ⟨c, cs, rfl⟩ := List.exists_cons_of_ne_nil hkey.nonempty
      exact .cons _ (hkey.keyChars c List.mem_cons_self)

/-- The key that stands first in a name is the key of one of its parts. It need not be the first
part, which may have no value. -/
theorem mem_keys_of_flatMap (h : ∀ part ∈ parts, IsKey part.1) {key rest : List Char}
    (hkey : IsKey key) (heq : parts.flatMap partText = '_' :: (key ++ '_' :: rest)) :
    key ∈ parts.map Prod.fst := by
  induction parts with
  | nil => cases heq
  | cons part parts ih =>
    obtain ⟨first, value⟩ := part
    cases value with
    | none =>
      exact List.mem_cons_of_mem _ (ih (fun part hpart => h part (List.mem_cons_of_mem _ hpart)) heq)
    | some value =>
      have hchars : first ++ '_' :: (value ++ parts.flatMap partText) = key ++ '_' :: rest := by
        simpa [partText] using heq
      rw [← ((h _ List.mem_cons_self).append_inj hkey hchars).1]
      exact List.mem_cons_self

/-- Two parts with the same key, whose values are told apart if both have one. -/
def Comparable (part part' : List Char × Option (List Char)) : Prop :=
  part.1 = part'.1 ∧ ∀ value ∈ part.2, ∀ value' ∈ part'.2, ToldApart value value'

/-- Values of one key are compared by their words. -/
theorem comparable_map {α : Type} {key : List Char} {word : α → List Char} {value value' : Option α}
    (h : ∀ a ∈ value, ∀ a' ∈ value', ToldApart (word a) (word a')) :
    Comparable (key, value.map word) (key, value'.map word) := by
  refine ⟨rfl, fun w hw w' hw' => ?_⟩
  obtain ⟨a, ha, rfl⟩ := Option.map_eq_some_iff.mp hw
  obtain ⟨a', ha', rfl⟩ := Option.map_eq_some_iff.mp hw'
  exact h a ha a' ha'

/-- Parts that can be compared one by one have the same keys. -/
theorem keys_eq_of_comparable (h : List.Forall₂ Comparable parts parts') :
    parts.map Prod.fst = parts'.map Prod.fst := by
  induction h with
  | nil => rfl
  | cons hpart _ ih => rw [List.map_cons, List.map_cons, hpart.1, ih]

/-- **The values of all parts can be read off a name**, if the keys are known and distinct and the
values of each key are told apart.

The induction is on the parts of both names side by side. Where only one of two parts has a value,
the other name would have to go on with the same key, which stands in none of its later parts. -/
theorem flatMap_partText_inj (hkeys : ∀ part ∈ parts, IsKey part.1)
    (hnodup : (parts.map Prod.fst).Nodup)
    (hcomparable : List.Forall₂ Comparable parts parts')
    (heq : parts.flatMap partText = parts'.flatMap partText) : parts = parts' := by
  induction hcomparable with
  | nil => rfl
  | @cons part part' parts parts' hpart hrest ih =>
    obtain ⟨key, value⟩ := part
    obtain ⟨key', value'⟩ := part'
    obtain ⟨rfl, hvalues⟩ := hpart
    rw [List.map_cons, List.nodup_cons] at hnodup
    have hsame := keys_eq_of_comparable hrest
    have hkey : IsKey key := hkeys _ List.mem_cons_self
    have hothers : ∀ part ∈ parts, IsKey part.1 := fun part hp => hkeys part (List.mem_cons_of_mem _ hp)
    have hothers' : ∀ part ∈ parts', IsKey part.1 := by
      intro part hp
      have hmem : part.1 ∈ parts.map Prod.fst := hsame ▸ List.mem_map_of_mem hp
      obtain ⟨other, hother, hfst⟩ := List.mem_map.mp hmem
      exact hfst ▸ hothers other hother
    rw [List.flatMap_cons, List.flatMap_cons] at heq
    cases value with
    | none =>
      cases value' with
      | none => rw [ih hothers hnodup.2 heq]
      | some value' =>
        -- One name would go on with a key that none of its other parts has.
        have hname : parts.flatMap partText =
            '_' :: (key ++ '_' :: (value' ++ parts'.flatMap partText)) := by simpa [partText] using heq
        exact absurd (mem_keys_of_flatMap hothers hkey hname) hnodup.1
    | some value =>
      cases value' with
      | none =>
        have hname : parts'.flatMap partText =
            '_' :: (key ++ '_' :: (value ++ parts.flatMap partText)) := by
          simpa [partText] using heq.symm
        exact absurd (mem_keys_of_flatMap hothers' hkey hname) (hsame ▸ hnodup.1)
      | some value' =>
        have hchars : value ++ parts.flatMap partText = value' ++ parts'.flatMap partText := by
          simpa [partText] using heq
        obtain ⟨rfl, hnames⟩ := hvalues value rfl value' rfl _ _ (startsPart_flatMap hothers)
          (startsPart_flatMap hothers') hchars
        rw [ih hothers hnodup.2 hnames]

end ChartCompiler
