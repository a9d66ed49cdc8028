import ChartCompiler.Proofs.Decimal.Numerals
import ChartCompiler.Proofs.Naming.Parts
import ChartCompiler.Proofs.Naming.Renderings

/-!
# Names of binnings

The output fields of two binnings are kept apart by the names of the binnings, in which all
punctuation of numbers has become underscores.

* `Numeral.words_append_inj` — **the ends of a range can be read off its word**, unless a point of
  one range stands where another range has the space between its ends.
* `BinRange.Mistakable` — such two ranges.
* `BinParams.same_name_iff` — **which binnings have the same name**: those that agree in everything
  but the range, and whose ranges are the same or mistakable.
* `BinParams.name_eq_iff` — the same for the output fields of a field, which are as different as the
  names of its binnings, unless rows are counted.

A name is taken apart from the outside. `toList_name` says that it consists of parts, each with a
key and the word of a value, and `flatMap_partText_inj` that the words can be read off it. Which
values have the same word is then asked of each parameter on its own. Different counts and different
truth values have different words, and so have different numbers, because a number is written as a
numeral and the two underscores of a numeral cannot change places, the one standing in front of the
first digit and the other behind it. Only a range is a text of two numerals with an underscore
between them, and there a point may be taken for the space.

All numbers are assumed to be finite, as all numbers that are read are.
-/

namespace ChartCompiler

/-! ## Numerals as words -/

/-- Letters and digits stay what they are. -/
theorem identifierChar_of_isAlphanum {c : Char} (h : c.isAlphanum = true) : identifierChar c = c :=
  if_pos (Text.isWord_of_isAlphanum h)

/-- Text of digits alone stays as it is. -/
theorem map_identifierChar_of_isDigit {cs : List Char} (h : ∀ c ∈ cs, c.isDigit = true) :
    cs.map identifierChar = cs :=
  (List.map_congr_left (g := id) fun c hc =>
    identifierChar_of_isAlphanum (by simp [Char.isAlphanum, h c hc])).trans (List.map_id cs)

namespace Numeral

variable {n n' k k' : Numeral}

/-- **The word of a number**: underscores stand for its minus sign and its point. -/
def word (n : Numeral) : List Char := n.spell '_' '_'

/-- The word of a number is what its numeral becomes in an identifier. -/
theorem map_identifierChar_spell (n : Numeral) :
    (n.spell '-' '.').map identifierChar = n.word := by
  have hminus : identifierChar '-' = '_' := by decide
  have hpoint : identifierChar '.' = '_' := by decide
  unfold word spell lead tail
  rw [List.map_append]
  congr 1
  · split
    · rw [List.map_cons, hminus, map_identifierChar_of_isDigit n.whole_isDigit]
    · exact map_identifierChar_of_isDigit n.whole_isDigit
  · split
    · rfl
    · rw [List.map_cons, hpoint, map_identifierChar_of_isDigit n.fraction_isDigit]

/-- An underscore is no digit, so a word has its digits where the numeral has them. -/
theorem isDigit_underscore : '_'.isDigit = false := by decide

/-- The word of a number is made of digits and underscores, and ends with a digit. -/
theorem isNumberWord (n : Numeral) : IsNumberWord n.word := by
  constructor
  · intro c hc
    unfold word spell lead tail at hc
    rcases List.mem_append.mp hc with hlead | htail
    · split at hlead
      · rcases List.mem_cons.mp hlead with rfl | hwhole
        · exact .inr rfl
        · exact .inl (n.whole_isDigit c hwhole)
      · exact .inl (n.whole_isDigit c hlead)
    · split at htail
      · cases htail
      · rcases List.mem_cons.mp htail with rfl | hfraction
        · exact .inr rfl
        · exact .inl (n.fraction_isDigit c hfraction)
  · intro c hc
    have hwhole : ∀ cs : List Char, c ∈ (cs ++ n.whole).getLast? → c.isDigit = true := by
      intro cs hlast
      rw [List.getLast?_append_of_ne_nil _ n.whole_ne_nil] at hlast
      exact n.whole_isDigit c (List.mem_of_getLast? hlast)
    unfold word spell lead tail at hc
    by_cases hfraction : n.fraction = []
    · rw [if_pos hfraction, List.append_nil] at hc
      split at hc
      · exact hwhole ['_'] hc
      · exact hwhole [] hc
    · rw [if_neg hfraction, List.getLast?_append_of_ne_nil _ (List.cons_ne_nil _ _),
        List.getLast?_cons_of_ne_nil hfraction] at hc
      exact n.fraction_isDigit c (List.mem_of_getLast? hc)

/-- A word without an underscore is that of a whole number without a sign. -/
theorem eq_whole_of_word_isDigit (h : ∀ c ∈ n.word, c.isDigit = true) :
    n.negative = false ∧ n.fraction = [] ∧ n.word = n.whole := by
  unfold word spell lead tail at h ⊢
  cases hnegative : n.negative with
  | true => exact absurd (h '_' (by simp [hnegative])) (by decide)
  | false =>
    by_cases hfraction : n.fraction = []
    · simp [hfraction]
    · exact absurd (h '_' (by simp [hfraction])) (by decide)

/-- **Where the point of `n` stands, the range from `n'` to `k'` has the space between its ends**,
and the range from `n` to `k` has its space where the point of `k'` stands. -/
structure PointForSpace (n k n' k' : Numeral) : Prop where
  /-- Both ranges begin with the same sign and the same whole digits. -/
  lead : n.lead '-' = n'.lead '-'
  /-- The lower end of the first range has a point behind them. -/
  pointed : n.fraction ≠ []
  /-- The lower end of the second range has none. -/
  unpointed : n'.fraction = []
  /-- The digits behind that point are the whole digits of the second range's upper end. -/
  fraction : n.fraction = k'.whole
  /-- The digits behind the point of this upper end are those of the first range's upper end. -/
  fraction' : k'.fraction = k.whole
  /-- The first range's upper end has no sign, as its word consists of digits only. -/
  positive : k.negative = false
  /-- The second range's upper end has no sign, as a digit stands where it would be. -/
  positive' : k'.negative = false
  /-- The upper end of the first range has no point. -/
  whole : k.fraction = []

/-- Ranges with the same word of which only the first has a point in its lower end are of this kind.
Behind the digits of the point stands an underscore; it is the point of the other range's upper end,
since a sign of that end would have to come before those digits. -/
theorem pointForSpace (hlead : n.lead '-' = n'.lead '-') (hpointed : n.fraction ≠ [])
    (hunpointed : n'.fraction = []) (h : n.tail '_' ++ '_' :: k.word = '_' :: k'.word) :
    PointForSpace n k n' k' := by
  unfold tail at h
  rw [if_neg hpointed, List.cons_append, List.cons.injEq] at h
  have hchars : n.fraction ++ '_' :: k.word = k'.lead '_' ++ k'.tail '_' := h.2
  have hpositive : k'.negative = false := by
    rw [Bool.eq_false_iff]
    intro htrue
    obtain ⟨c, cs, hcs⟩ := List.exists_cons_of_ne_nil hpointed
    have hdigit : c.isDigit = true := n.fraction_isDigit c (hcs ▸ List.mem_cons_self)
    -- The sign would stand where the first digit behind the point stands.
    rw [hcs, lead, if_pos htrue, List.cons_append, List.cons_append, List.cons.injEq] at hchars
    rw [hchars.1] at hdigit
    exact absurd hdigit (by decide)
  rw [lead, if_neg (by simp [hpositive])] at hchars
  obtain ⟨hwhole, htail⟩ := digits_append_inj n.fraction_isDigit k'.whole_isDigit
    (endsDigits_cons isDigit_underscore) (k'.endsDigits_tail isDigit_underscore) hchars
  unfold tail at htail
  split at htail
  · cases htail
  · have hword : k.word = k'.fraction := (List.cons.inj htail).2
    obtain ⟨hsign, hpoint, hdigits⟩ := eq_whole_of_word_isDigit (hword ▸ k'.fraction_isDigit)
    exact ⟨hlead, hpointed, hunpointed, hwhole, hword.symm.trans hdigits, hsign, hpositive, hpoint⟩

/-- **The ends of a range can be read off its word**, unless a point of one range stands where the
other range has the space between its ends.

Signs and whole digits of the lower ends are the same in any case. If both of these have a point or
neither has one, the underscore behind them is the space in both ranges, and the rest is the word of
one numeral. -/
theorem words_append_inj (h : n.word ++ '_' :: k.word = n'.word ++ '_' :: k'.word) :
    (n = n' ∧ k = k') ∨ PointForSpace n k n' k' ∨ PointForSpace n' k' n k := by
  have hends : ∀ m m' : Numeral, EndsDigits (m.tail '_' ++ '_' :: m'.word) := by
    intro m m'
    unfold tail
    split
    · exact endsDigits_cons isDigit_underscore
    · exact endsDigits_cons isDigit_underscore
  have hchars : n.lead '_' ++ (n.tail '_' ++ '_' :: k.word) =
      n'.lead '_' ++ (n'.tail '_' ++ '_' :: k'.word) := by
    rw [← List.append_assoc, ← List.append_assoc]
    exact h
  obtain ⟨hnegative, hwhole, hrest⟩ :=
    lead_append_inj isDigit_underscore (hends n k) (hends n' k') hchars
  have hlead : n.lead '-' = n'.lead '-' := by rw [lead, lead, hnegative, hwhole]
  -- The underscore behind the whole digits is a point or the space, in each of the two ranges.
  by_cases hfraction : n.fraction = []
  · by_cases hfraction' : n'.fraction = []
    · rw [tail, tail, if_pos hfraction, if_pos hfraction'] at hrest
      exact .inl ⟨Numeral.ext hnegative hwhole (hfraction.trans hfraction'.symm),
        spell_inj isDigit_underscore isDigit_underscore (List.cons.inj hrest).2⟩
    · rw [tail, if_pos hfraction] at hrest
      exact .inr (.inr (pointForSpace hlead.symm hfraction' hfraction hrest.symm))
  · by_cases hfraction' : n'.fraction = []
    · rw [tail.eq_1 '_' n', if_pos hfraction'] at hrest
      exact .inr (.inl (pointForSpace hlead hfraction hfraction' hrest))
    · rw [tail, tail, if_neg hfraction, if_neg hfraction', List.cons_append, List.cons_append,
        List.cons.injEq] at hrest
      obtain ⟨hsame, hwords⟩ := digits_append_inj n.fraction_isDigit n'.fraction_isDigit
        (endsDigits_cons isDigit_underscore) (endsDigits_cons isDigit_underscore) hrest.2
      exact .inl ⟨Numeral.ext hnegative hwhole hsame,
        spell_inj isDigit_underscore isDigit_underscore (List.cons.inj hwords).2⟩

end Numeral

/-! ## Numbers and ranges as words -/

/-- **The word of a value in a name**: its identifier, in which underscores stand for all that
belongs to no word. -/
def wordOf (value : String) : List Char := (identifier value).toList

/-- The word of two texts is made of their words. -/
@[simp] theorem wordOf_append (value value' : String) :
    wordOf (value ++ value') = wordOf value ++ wordOf value' := by
  simp [wordOf, identifier]

/-- The word of a finite float is that of its numeral. -/
theorem exists_wordOf_number {x : Float} (h : x.isFinite = true) :
    ∃ n : Numeral, Expression.Writes n x ∧ Expression.number x = String.ofList (n.spell '-' '.') ∧
      wordOf (Expression.number x) = n.word := by
  obtain ⟨n, hwrites, htext⟩ := Expression.exists_numeral h
  refine ⟨n, hwrites, by rw [← htext, String.ofList_toList], ?_⟩
  rw [wordOf, identifier, htext, String.toList_ofList, n.map_identifierChar_spell]

/-- The word of a finite float is made from numbers. -/
theorem isNumberWord_number {x : Float} (h : x.isFinite = true) :
    IsNumberWord (wordOf (Expression.number x)) := by
  obtain ⟨n, -, -, hword⟩ := exists_wordOf_number h
  exact hword ▸ n.isNumberWord

/-- **Two finite floats have different words.** This includes the two zeros, which are written with
and without a sign. -/
theorem wordOf_number_inj {x y : Float} (hx : x.isFinite = true) (hy : y.isFinite = true) :
    wordOf (Expression.number x) = wordOf (Expression.number y) ↔ x = y := by
  refine ⟨fun h => ?_, fun h => h ▸ rfl⟩
  obtain ⟨n, hn, -, hword⟩ := exists_wordOf_number hx
  obtain ⟨n', hn', -, hword'⟩ := exists_wordOf_number hy
  obtain rfl : n = n' := Numeral.spell_inj Numeral.isDigit_underscore Numeral.isDigit_underscore
    (hword.symm.trans (h.trans hword'))
  exact hn.eq hx hy hn'

/-- A count is written in digits, which are a word as they stand. -/
theorem wordOf_repr (n : Nat) : wordOf n.repr = Nat.toDigits 10 n := by
  rw [wordOf, identifier, Nat.toList_repr, String.toList_ofList,
    map_identifierChar_of_isDigit Decimal.isDigit_toDigits]

/-- The word of a count is made from numbers. -/
theorem isNumberWord_repr (n : Nat) : IsNumberWord (wordOf n.repr) := by
  rw [wordOf_repr]
  exact ⟨fun c hc => .inl (Decimal.isDigit_toDigits c hc),
    fun c hc => Decimal.isDigit_toDigits c (List.mem_of_getLast? hc)⟩

/-- Two counts have different words. -/
theorem wordOf_repr_inj {n n' : UInt32} : wordOf n.toNat.repr = wordOf n'.toNat.repr ↔ n = n' := by
  refine ⟨fun h => ?_, fun h => h ▸ rfl⟩
  rw [wordOf_repr, wordOf_repr] at h
  have hvalue := congrArg (Nat.ofDigitChars 10 · 0) h
  simp only [Nat.ofDigitChars_ten_toDigits] at hvalue
  exact UInt32.toNat_inj.mp hvalue

/-- **A range**: its two ends. -/
abbrev BinRange : Type := Float × Float

namespace BinRange

/-- The ends of a range as they stand in a name, with an underscore between them. -/
def text (r : BinRange) : String := Expression.number r.1 ++ "_" ++ Expression.number r.2

/-- Both ends of a range are finite. -/
def IsFinite (r : BinRange) : Prop := r.1.isFinite = true ∧ r.2.isFinite = true

/-- **A range that another one is mistaken for**: where one has a point in its first end, the other
has the space between its ends, and the other way round. So are `2.5` to `3` and `2` to `5.3`. -/
def Mistakable (r r' : BinRange) : Prop :=
  ∃ a b c : String, Expression.number r.1 = a ++ "." ++ b ∧ Expression.number r.2 = c ∧
    Expression.number r'.1 = a ∧ Expression.number r'.2 = b ++ "." ++ c

variable {r r' : BinRange}

/-- A range and one that it is mistaken for have the same word. -/
theorem Mistakable.wordOf_eq (h : Mistakable r r') : wordOf r.text = wordOf r'.text := by
  obtain ⟨a, b, c, hr, hr', hs, hs'⟩ := h
  have hpoint : wordOf "." = wordOf "_" := by decide
  rw [text, text, hr, hr', hs, hs']
  simp [hpoint]

/-- The word of a range with finite ends is that of two numerals, with an underscore between
them. -/
theorem exists_wordOf_text (h : r.IsFinite) :
    ∃ n k : Numeral, Expression.Writes n r.1 ∧ Expression.Writes k r.2 ∧
      Expression.number r.1 = String.ofList (n.spell '-' '.') ∧
      Expression.number r.2 = String.ofList (k.spell '-' '.') ∧
      wordOf r.text = n.word ++ '_' :: k.word := by
  obtain ⟨n, hn, htext, hword⟩ := exists_wordOf_number h.1
  obtain ⟨k, hk, htext', hword'⟩ := exists_wordOf_number h.2
  have hspace : wordOf "_" = ['_'] := by decide
  refine ⟨n, k, hn, hk, htext, htext', ?_⟩
  rw [text, wordOf_append, wordOf_append, hword, hword', hspace, List.append_assoc,
    List.singleton_append]

/-- A range is mistaken for another if the numerals of its ends are. -/
theorem mistakable_of_pointForSpace {n k n' k' : Numeral}
    (hlow : Expression.number r.1 = String.ofList (n.spell '-' '.'))
    (hhigh : Expression.number r.2 = String.ofList (k.spell '-' '.'))
    (hlow' : Expression.number r'.1 = String.ofList (n'.spell '-' '.'))
    (hhigh' : Expression.number r'.2 = String.ofList (k'.spell '-' '.'))
    (h : Numeral.PointForSpace n k n' k') : Mistakable r r' := by
  have hpoint : ∀ m : Numeral, m.fraction ≠ [] → String.ofList (m.spell '-' '.') =
      String.ofList (m.lead '-') ++ "." ++ String.ofList m.fraction := by
    intro m hm
    apply String.toList_inj.mp
    simp [Numeral.spell, Numeral.tail, hm]
  have hwhole : ∀ m : Numeral, m.fraction = [] → m.spell '-' '.' = m.lead '-' := by
    intro m hm
    rw [Numeral.spell, Numeral.tail, if_pos hm, List.append_nil]
  have hpositive : ∀ m : Numeral, m.negative = false → m.lead '-' = m.whole := by
    intro m hm
    rw [Numeral.lead, if_neg (by simp [hm])]
  refine ⟨String.ofList (n.lead '-'), String.ofList n.fraction, String.ofList k.whole, ?_, ?_, ?_, ?_⟩
  · rw [hlow, hpoint n h.pointed]
  · rw [hhigh, hwhole k h.whole, hpositive k h.positive]
  · rw [hlow', hwhole n' h.unpointed, h.lead]
  · rw [hhigh', hpoint k' (h.fraction' ▸ k.whole_ne_nil), hpositive k' h.positive', h.fraction,
      h.fraction']

/-- **Two ranges have the same word** if they are the same or one is mistaken for the other. -/
theorem wordOf_text_eq_iff (h : r.IsFinite) (h' : r'.IsFinite) :
    wordOf r.text = wordOf r'.text ↔ r = r' ∨ Mistakable r r' ∨ Mistakable r' r := by
  constructor
  · intro heq
    obtain ⟨n, k, hn, hk, hlow, hhigh, hword⟩ := exists_wordOf_text h
    obtain ⟨n', k', hn', hk', hlow', hhigh', hword'⟩ := exists_wordOf_text h'
    rw [hword, hword'] at heq
    rcases Numeral.words_append_inj heq with ⟨rfl, rfl⟩ | hpoint | hpoint
    · exact .inl (Prod.ext (hn.eq h.1 h'.1 hn') (hk.eq h.2 h'.2 hk'))
    · exact .inr (.inl (mistakable_of_pointForSpace hlow hhigh hlow' hhigh' hpoint))
    · exact .inr (.inr (mistakable_of_pointForSpace hlow' hhigh' hlow hhigh hpoint))
  · rintro (rfl | hmistaken | hmistaken)
    · rfl
    · exact hmistaken.wordOf_eq
    · exact hmistaken.wordOf_eq.symm

/-- The word of a range is made from numbers. -/
theorem isNumberWord_text (h : r.IsFinite) : IsNumberWord (wordOf r.text) := by
  obtain ⟨n, k, -, -, -, -, hword⟩ := exists_wordOf_text h
  rw [hword]
  refine ⟨fun c hc => ?_, fun c hc => ?_⟩
  · rcases List.mem_append.mp hc with hc | hc
    · exact n.isNumberWord.isDigit_or c hc
    · rcases List.mem_cons.mp hc with rfl | hc
      · exact .inr rfl
      · exact k.isNumberWord.isDigit_or c hc
  · have hne : k.word ≠ [] := by
      unfold Numeral.word Numeral.spell Numeral.lead
      split <;> simp [k.whole_ne_nil]
    rw [List.getLast?_append_of_ne_nil _ (List.cons_ne_nil _ _), List.getLast?_cons_of_ne_nil hne] at hc
    exact k.isNumberWord.getLast c hc

end BinRange

/-! ## Binnings -/

namespace BinParams

/-- All numbers among the parameters are finite. -/
structure IsFinite (p : BinParams) : Prop where
  /-- The value that one of the bins begins at. -/
  anchor : ∀ x ∈ p.anchor, x.isFinite = true
  /-- The base of the step sizes. -/
  base : ∀ x ∈ p.base, x.isFinite = true
  /-- Both ends of the range. -/
  extent : ∀ r ∈ p.extent, BinRange.IsFinite r
  /-- The least step. -/
  minstep : ∀ x ∈ p.minstep, x.isFinite = true
  /-- The step, if it is given. -/
  step : ∀ x ∈ p.step, x.isFinite = true

/-- **The parts of a binning's name**, each with the word of its value. All keys are listed, those
without a value too, so that the parts of any two binnings can be compared one by one. -/
def words (p : BinParams) : List (List Char × Option (List Char)) :=
  [ ("anchor".toList, p.anchor.map fun x => wordOf (Expression.number x)),
    ("base".toList, p.base.map fun x => wordOf (Expression.number x)),
    ("extent".toList, p.extent.map fun r => wordOf (BinRange.text r)),
    ("maxbins".toList, p.maxbins.map fun n => wordOf n.toNat.repr),
    ("minstep".toList, p.minstep.map fun x => wordOf (Expression.number x)),
    ("nice".toList, p.nice.map fun b => wordOf (if b then "true" else "false")),
    ("step".toList, p.step.map fun x => wordOf (Expression.number x)) ]

variable {p q : BinParams}

/-- The keys of all parts are keys in the sense of a name in parts. -/
theorem isKey_of_mem_words : ∀ part ∈ p.words, IsKey part.1 := by
  have hkeys : ∀ key ∈ p.words.map Prod.fst, key ≠ [] ∧ key.all isKeyChar = true := by
    show ∀ key ∈ ["anchor".toList, "base".toList, "extent".toList, "maxbins".toList,
      "minstep".toList, "nice".toList, "step".toList], key ≠ [] ∧ key.all isKeyChar = true
    decide
  intro part hpart
  obtain ⟨hne, hchars⟩ := hkeys _ (List.mem_map_of_mem hpart)
  exact ⟨hne, List.all_eq_true.mp hchars⟩

/-- No two parts have the same key. -/
theorem nodup_keys_words : (p.words.map Prod.fst).Nodup := by
  show ["anchor".toList, "base".toList, "extent".toList, "maxbins".toList, "minstep".toList,
    "nice".toList, "step".toList].Nodup
  decide

/-- A part that is given stands in the name under its key; one that is not given does not stand
there at all. -/
theorem identifier_part {α : Type} (key : String) (text : α → String) (hkey : wordOf key = key.toList)
    (value : Option α) :
    ((value.map fun a => (key, text a)).map fun part =>
        (identifier ("_" ++ part.1 ++ "_" ++ part.2)).toList).getD [] =
      partText (key.toList, value.map fun a => wordOf (text a)) := by
  have hspace : wordOf "_" = ['_'] := by decide
  cases value with
  | none => rfl
  | some a =>
    show wordOf ("_" ++ key ++ "_" ++ text a) = '_' :: (key.toList ++ '_' :: wordOf (text a))
    simp [hspace, hkey]

/-- The text of the parts that are given. -/
theorem flatMap_filterMap_id {α β : Type} (os : List (Option α)) (g : α → List β) :
    (os.filterMap id).flatMap g = os.flatMap fun o => (o.map g).getD [] := by
  induction os with
  | nil => rfl
  | cons o os ih => cases o <;> simpa using ih

/-- **The name of a binning is made of its parts**, behind the word that all such names begin
with. -/
theorem toList_name (p : BinParams) :
    p.name.toList = "bin".toList ++ p.words.flatMap partText := by
  have hkey : ∀ key ∈ ["anchor", "base", "extent", "maxbins", "minstep", "nice", "step"],
      wordOf key = key.toList := by decide
  rw [name, String.toList_append, String.toList_join, List.flatMap_map, parts, flatMap_filterMap_id]
  simp only [List.flatMap_cons, List.flatMap_nil, words]
  rw [identifier_part "anchor" _ (hkey _ (by decide)), identifier_part "base" _ (hkey _ (by decide)),
    identifier_part "maxbins" _ (hkey _ (by decide)), identifier_part "minstep" _ (hkey _ (by decide)),
    identifier_part "nice" _ (hkey _ (by decide)), identifier_part "step" _ (hkey _ (by decide))]
  congr 4
  exact identifier_part "extent" BinRange.text (hkey _ (by decide)) p.extent

/-- The words of the two truth values differ in their first letter. -/
theorem toldApart_flag (b b' : Bool) :
    ToldApart (wordOf (if b then "true" else "false")) (wordOf (if b' then "true" else "false")) := by
  intro rest rest' _ _ heq
  have htrue : wordOf "true" = ['t', 'r', 'u', 'e'] := by decide
  have hfalse : wordOf "false" = ['f', 'a', 'l', 's', 'e'] := by decide
  cases b <;> cases b' <;> simp [htrue, hfalse] at heq ⊢ <;> exact heq

/-- **The values of every parameter are told apart**: six of them are made from numbers, and truth
values by their first letters. -/
theorem comparable_words (hp : p.IsFinite) (hq : q.IsFinite) :
    List.Forall₂ Comparable p.words q.words := by
  have hnumber : ∀ {key : List Char} {a b : Option Float}, (∀ x ∈ a, x.isFinite = true) →
      (∀ x ∈ b, x.isFinite = true) →
      Comparable (key, a.map fun x => wordOf (Expression.number x))
        (key, b.map fun x => wordOf (Expression.number x)) := fun ha hb =>
    comparable_map fun x hx y hy =>
      (isNumberWord_number (ha x hx)).toldApart (isNumberWord_number (hb y hy))
  refine .cons (hnumber hp.anchor hq.anchor) (.cons (hnumber hp.base hq.base)
    (.cons (comparable_map fun r hr r' hr' => ?extent) (.cons (comparable_map fun _ _ _ _ => ?maxbins)
      (.cons (hnumber hp.minstep hq.minstep) (.cons (comparable_map fun _ _ _ _ => ?nice)
        (.cons (hnumber hp.step hq.step) .nil))))))
  case extent =>
    exact (BinRange.isNumberWord_text (hp.extent r hr)).toldApart
      (BinRange.isNumberWord_text (hq.extent r' hr'))
  case maxbins => exact (isNumberWord_repr _).toldApart (isNumberWord_repr _)
  case nice => exact toldApart_flag _ _

/-- **Binnings have the same name** if all their values have the same words. -/
theorem name_eq_iff_words (hp : p.IsFinite) (hq : q.IsFinite) : p.name = q.name ↔ p.words = q.words := by
  rw [← String.toList_inj, toList_name, toList_name, List.append_cancel_left_eq]
  exact ⟨flatMap_partText_inj isKey_of_mem_words nodup_keys_words (comparable_words hp hq),
    fun h => h ▸ rfl⟩

/-- A number that may be missing is known by its word. -/
theorem map_wordOf_number_inj {a b : Option Float} (ha : ∀ x ∈ a, x.isFinite = true)
    (hb : ∀ x ∈ b, x.isFinite = true) :
    (a.map fun x => wordOf (Expression.number x)) = (b.map fun x => wordOf (Expression.number x)) ↔
      a = b := by
  cases a with
  | none => cases b <;> simp
  | some x =>
    cases b with
    | none => simp
    | some y => simp [wordOf_number_inj (ha x rfl) (hb y rfl)]

/-- **Two binnings ask for the same range**, or for one that is mistaken for the other's. -/
def LikeExtents (p q : BinParams) : Prop :=
  p.extent = q.extent ∨ ∃ r r', p.extent = some r ∧ q.extent = some r' ∧
    (BinRange.Mistakable r r' ∨ BinRange.Mistakable r' r)

/-- The words of two ranges that may be missing are the same exactly if the ranges are alike. -/
theorem map_wordOf_text_iff (hp : p.IsFinite) (hq : q.IsFinite) :
    (p.extent.map fun r => wordOf (BinRange.text r)) = (q.extent.map fun r => wordOf (BinRange.text r)) ↔
      LikeExtents p q := by
  unfold LikeExtents
  cases hr : p.extent with
  | none => cases q.extent <;> simp
  | some r =>
    cases hr' : q.extent with
    | none => simp
    | some r' => simp [BinRange.wordOf_text_eq_iff (hp.extent r hr) (hq.extent r' hr')]

/-- **Which binnings have the same name**: those that agree in all parameters but the range, and
have the same range or mistakable ones. -/
theorem same_name_iff (hp : p.IsFinite) (hq : q.IsFinite) :
    p.name = q.name ↔ LikeExtents p q ∧ p.anchor = q.anchor ∧ p.base = q.base ∧
      p.maxbins = q.maxbins ∧ p.minstep = q.minstep ∧ p.nice = q.nice ∧ p.step = q.step := by
  have hmaxbins : (p.maxbins.map fun n => wordOf n.toNat.repr) =
      (q.maxbins.map fun n => wordOf n.toNat.repr) ↔ p.maxbins = q.maxbins :=
    Option.map_inj_right fun _ _ => wordOf_repr_inj.mp
  have hnice : (p.nice.map fun b => wordOf (if b then "true" else "false")) =
      (q.nice.map fun b => wordOf (if b then "true" else "false")) ↔ p.nice = q.nice :=
    Option.map_inj_right (by decide)
  rw [name_eq_iff_words hp hq]
  simp only [words, List.cons.injEq, Prod.mk.injEq, true_and, and_true,
    map_wordOf_number_inj hp.anchor hq.anchor, map_wordOf_number_inj hp.base hq.base,
    map_wordOf_number_inj hp.minstep hq.minstep, map_wordOf_number_inj hp.step hq.step,
    map_wordOf_text_iff hp hq, hmaxbins, hnice]
  tauto

end BinParams

/-! ## Output fields -/

namespace FieldDef

/-- Two definitions have the same reference if their output fields have the same name. -/
theorem output_eq_iff (d d' : FieldDef) (form : OutputForm) :
    d.output form = d'.output form ↔ d.outputName form = d'.outputName form := by
  unfold output
  cases form.row with
  | none => exact escapePath_injective.eq_iff
  | some row => exact (Expression.access_injective row).eq_iff

/-- The output name of a field that the compiler bins, before any suffix. -/
theorem stem_of_made {d : FieldDef} {p : BinParams} (h : d.bin = some (.made p))
    (hcount : d.aggregate ≠ some .count) :
    d.stem = if (d.field.getD "").isEmpty then p.name else p.name ++ "_" ++ d.field.getD "" := by
  simp [stem, operation?, h, hcount, Binning.name?]

/-- What stands behind the name of a field that the compiler bins: the suffix of the bin's end, if
one is asked for, and any other. -/
theorem outputSuffix_of_made {d : FieldDef} {p : BinParams} (h : d.bin = some (.made p))
    (hcount : d.aggregate ≠ some .count) (form : OutputForm) :
    d.outputSuffix form = form.binSuffix ++ form.suffix := by
  simp [outputSuffix, isBinning, h, hcount, Binning.isMade]

/-- **Fields that are not counted have the same output field** if their binnings have the same name.
The rest of the two names is the same, and it stands behind the name of the binning. -/
theorem output_eq_iff_of_made {d d' : FieldDef} {p q : BinParams} (h : d.bin = some (.made p))
    (h' : d'.bin = some (.made q)) (hfield : d.field = d'.field) (hcount : d.aggregate ≠ some .count)
    (hcount' : d'.aggregate ≠ some .count) (form : OutputForm) :
    d.output form = d'.output form ↔ p.name = q.name := by
  rw [output_eq_iff, outputName, outputName, outputSuffix_of_made h hcount,
    outputSuffix_of_made h' hcount', stem_of_made h hcount, stem_of_made h' hcount', ← hfield]
  cases (form.binSuffix ++ form.suffix).isEmpty <;> cases (d.field.getD "").isEmpty <;>
    simp [String.append_left_inj]

/-- **Counted rows have one output field**, whatever the binning. -/
theorem outputName_of_count {d : FieldDef} (h : d.aggregate = some .count) (form : OutputForm) :
    d.outputName form = if form.suffix.isEmpty then "__count" else "__count" ++ "_" ++ form.suffix := by
  simp [outputName, outputSuffix, stem, h]

/-- The output field of counted rows is not that of a binned field. -/
theorem output_ne_of_count {d d' : FieldDef} {p : BinParams} (hcount : d.aggregate = some .count)
    (h : d'.bin = some (.made p)) (hcount' : d'.aggregate ≠ some .count) (form : OutputForm) :
    d.output form ≠ d'.output form := by
  -- One name begins with an underscore, the other with the name of the binning.
  have hhead : (d.outputName form).toList.head? = some '_' := by
    rw [outputName_of_count hcount]
    split <;> simp
  have hhead' : (d'.outputName form).toList.head? = some 'b' := by
    rw [outputName, stem_of_made h hcount']
    split <;> split <;> simp [BinParams.toList_name]
  rw [Ne, output_eq_iff]
  intro heq
  rw [heq, hhead'] at hhead
  exact absurd hhead (by decide)

end FieldDef

/-! ## Binnings of a field -/

namespace BinParams

variable {p q : BinParams}

/-- **Which binnings are told apart.** Two binnings with finite numbers have the same name exactly if they
agree in all parameters, or in all but the range and one range is mistaken for the other. Two definitions
of a field with these binnings have the same output field exactly if these names are the same and neither
definition counts rows, or if both of them do. -/
theorem name_eq_iff (hp : p.IsFinite) (hq : q.IsFinite) :
    (p.name = q.name ↔ LikeExtents p q ∧ p.anchor = q.anchor ∧ p.base = q.base ∧
      p.maxbins = q.maxbins ∧ p.minstep = q.minstep ∧ p.nice = q.nice ∧ p.step = q.step) ∧
    ∀ d d' : FieldDef, d.bin = some (.made p) → d'.bin = some (.made q) → d.field = d'.field →
      ∀ form : OutputForm, d.output form = d'.output form ↔
        (d.aggregate = some .count ∧ d'.aggregate = some .count) ∨
          (d.aggregate ≠ some .count ∧ d'.aggregate ≠ some .count ∧ p.name = q.name) := by
  refine ⟨same_name_iff hp hq, fun d d' h h' hfield form => ?_⟩
  by_cases hcount : d.aggregate = some .count <;> by_cases hcount' : d'.aggregate = some .count
  · refine iff_of_true ?_ (.inl ⟨hcount, hcount'⟩)
    rw [FieldDef.output_eq_iff, FieldDef.outputName_of_count hcount,
      FieldDef.outputName_of_count hcount']
  · exact iff_of_false (FieldDef.output_ne_of_count hcount h' hcount' form) (by simp [hcount, hcount'])
  · exact iff_of_false (FieldDef.output_ne_of_count hcount' h hcount form).symm
      (by simp [hcount, hcount'])
  · simp [hcount, hcount', FieldDef.output_eq_iff_of_made h h' hfield hcount hcount' form]

/-- Bins from `2.5` to `3`. -/
def pointedRange : BinParams := { extent := some (2.5, 3), maxbins := some 10 }

/-- Bins from `2` to `5.3`. -/
def spacedRange : BinParams := { extent := some (2, 5.3), maxbins := some 10 }

/-- The range from `2.5` to `3` has finite ends. -/
theorem isFinite_pointedRange : pointedRange.IsFinite :=
  ⟨nofun, nofun, fun _ hr => Option.some.inj hr ▸ ⟨by decide, by decide⟩, nofun, nofun⟩

/-- The range from `2` to `5.3` has finite ends. -/
theorem isFinite_spacedRange : spacedRange.IsFinite :=
  ⟨nofun, nofun, fun _ hr => Option.some.inj hr ▸ ⟨by decide, by decide⟩, nofun, nofun⟩

/-- Bins of a given width that begin at zero, of either sign. -/
def anchored (zero : Float) : BinParams := { anchor := some zero, step := some 2.5 }

/-- Bins that begin at a finite zero have finite numbers only. -/
theorem isFinite_anchored (zero : Float) (h : zero.isFinite = true) : (anchored zero).IsFinite :=
  ⟨fun _ hx => Option.some.inj hx ▸ h, nofun, nofun, nofun,
    fun _ hx => Option.some.inj hx ▸ by decide⟩

/-- A field with one of these binnings. -/
def binnedField (p : BinParams) : FieldDef := { field := "a", bin := some (.made p) }

/-- Even the two zeros are told apart, but not the two ranges, so a field has the same output field with
either of them. -/
theorem names_zerosAndRanges :
    (anchored 0).name ≠ (anchored (-0)).name ∧ pointedRange.name = spacedRange.name ∧
      (binnedField pointedRange).output {} = (binnedField spacedRange).output {} := by
  have hzeros := name_eq_iff (isFinite_anchored 0 (by decide))
    (isFinite_anchored (-0) (by decide))
  have hranges := name_eq_iff isFinite_pointedRange isFinite_spacedRange
  have hsame : pointedRange.name = spacedRange.name := hranges.1.mpr
    ⟨.inr ⟨_, _, rfl, rfl, .inl ⟨"2", "5", "3", by decide +kernel, by decide +kernel,
      by decide +kernel, by decide +kernel⟩⟩, rfl, rfl, rfl, rfl, rfl, rfl⟩
  refine ⟨fun h => ?_, hsame, ?_⟩
  · have hanchor : some (0 : Float) = some (-0) := (hzeros.1.mp h).2.1
    exact absurd (congrArg Dyadic.isNegative (Option.some.inj hanchor)) (by decide)
  · exact (hranges.2 (binnedField pointedRange) (binnedField spacedRange) rfl rfl rfl {}).mpr
      (.inr ⟨nofun, nofun, hsame⟩)

/-- **Two different binnings with the same name**, so that a field has the same output field with either
of them. -/
theorem sameName_pointedRange :
    pointedRange.IsFinite ∧ spacedRange.IsFinite ∧ ((2.5 : Float) == 2) = false ∧
      pointedRange.extent = some (2.5, 3) ∧ spacedRange.extent = some (2, 5.3) ∧
      pointedRange.name = "bin_extent_2_5_3_maxbins_10" ∧
      spacedRange.name = "bin_extent_2_5_3_maxbins_10" ∧
      (binnedField pointedRange).output {} = (binnedField spacedRange).output {} :=
  ⟨isFinite_pointedRange, isFinite_spacedRange, by decide +kernel, rfl, rfl, by decide +kernel,
    by decide +kernel, by decide +kernel⟩

end BinParams

end ChartCompiler
