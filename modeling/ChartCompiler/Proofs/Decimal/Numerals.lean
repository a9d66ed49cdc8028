import ChartCompiler.Expression
import ChartCompiler.Proofs.Decimal.Shortest
import ChartCompiler.Proofs.Float.Magnitude

/-!
# Numbers as they are written

* `Numeral` — **the parts of a written number**: a sign, digits, and the digits behind its point.
* `Numeral.spell` — the text of these parts, with any characters for the minus sign and the point;
  `Numeral.spell_inj` recovers the parts from it.
* `Numeral.magnitude` — the number that is written, without its sign.
* `Expression.exists_numeral` — **what the numeral of a float stands for**: its sign, and a number
  of its interval.
* `Expression.number_injective` — so two finite floats are never written alike.

A text is taken back to the float it was written for in two steps. The text gives the numeral,
because the characters of the sign and the point are no digits and each run of digits ends where the
digits end. The numeral gives the float, because its number lies in the interval of one float only,
and zeros, which have no interval, are written as zero.

The characters of the sign and the point are left open, since names have an underscore in the place
of both.
-/

namespace ChartCompiler

/-!
## Runs of digits

Here and below a text is a list of characters. Where two texts agree, they are compared run by run.
-/

/-- What follows a run of digits: it does not begin with a digit. -/
def EndsDigits (rest : List Char) : Prop := ∀ c ∈ rest.head?, c.isDigit = false

/-- A run of digits ends with the text. -/
theorem endsDigits_nil : EndsDigits [] := nofun

/-- A run of digits ends at a character that is no digit. -/
theorem endsDigits_cons {c : Char} {rest : List Char} (h : c.isDigit = false) :
    EndsDigits (c :: rest) := by
  rintro d hd
  rwa [← Option.some.inj hd]

/-- **A run of digits ends where the digits end**: texts that agree have the same digits in front,
and go on in the same way. -/
theorem digits_append_inj {run run' rest rest' : List Char} (h : ∀ c ∈ run, c.isDigit = true)
    (h' : ∀ c ∈ run', c.isDigit = true) (hrest : EndsDigits rest) (hrest' : EndsDigits rest')
    (heq : run ++ rest = run' ++ rest') : run = run' ∧ rest = rest' := by
  have htake : ∀ {run rest : List Char}, (∀ c ∈ run, c.isDigit = true) → EndsDigits rest →
      (run ++ rest).takeWhile Char.isDigit = run := by
    intro run rest hrun hrest
    rw [List.takeWhile_append_of_pos hrun]
    cases rest with
    | nil => simp
    | cons c rest => simp [hrest c rfl]
  have hrun : run = run' := by rw [← htake h hrest, heq, htake h' hrest']
  subst hrun
  exact ⟨rfl, List.append_cancel_left heq⟩

/-! ## Numerals -/

  /-- Whether there is a minus sign. -/
@[ext] structure Numeral where
  negative : Bool
  /-- The digits in front of the point. -/
  whole : List Char
  /-- The digits behind the point. -/
  fraction : List Char
  /-- There is a digit in front of the point, if only a zero. -/
  whole_ne_nil : whole ≠ []
  /-- All characters in front of the point are digits. -/
  whole_isDigit : ∀ c ∈ whole, c.isDigit = true
  /-- All characters behind the point are digits. -/
  fraction_isDigit : ∀ c ∈ fraction, c.isDigit = true

namespace Numeral

variable {minus point : Char} {n n' : Numeral}

/-- The sign and the digits in front of the point. -/
def lead (minus : Char) (n : Numeral) : List Char := if n.negative then minus :: n.whole else n.whole

/-- The point and the digits behind it, or nothing if there are none. -/
def tail (point : Char) (n : Numeral) : List Char := if n.fraction = [] then [] else point :: n.fraction

/-- **The text of a number**, with the given characters for the minus sign and the point. -/
def spell (minus point : Char) (n : Numeral) : List Char := n.lead minus ++ n.tail point

/-- **The number that is written**, without its sign: all digits as one number, moved by as many
places as stand behind the point. -/
def magnitude (n : Numeral) : Rat :=
  (Nat.ofDigitChars 10 (n.whole ++ n.fraction) 0 : Rat) * (10 : Rat) ^ (-(n.fraction.length : Int))

/-- A numeral begins with a digit, behind its sign. -/
theorem exists_whole_eq_cons (n : Numeral) : ∃ c cs, n.whole = c :: cs ∧ c.isDigit = true := by
  obtain ⟨c, cs, hcs⟩ := List.exists_cons_of_ne_nil n.whole_ne_nil
  exact ⟨c, cs, hcs, n.whole_isDigit c (hcs ▸ List.mem_cons_self)⟩

/-- The point ends the digits in front of it. -/
theorem endsDigits_tail (hpoint : point.isDigit = false) (n : Numeral) :
    EndsDigits (n.tail point) := by
  unfold tail
  split
  · exact endsDigits_nil
  · exact endsDigits_cons hpoint

/-- **The sign and the digits in front of the point can be read off**, whatever follows them. -/
theorem lead_append_inj (hminus : minus.isDigit = false) {rest rest' : List Char}
    (hrest : EndsDigits rest) (hrest' : EndsDigits rest')
    (h : n.lead minus ++ rest = n'.lead minus ++ rest') :
    n.negative = n'.negative ∧ n.whole = n'.whole ∧ rest = rest' := by
  have hrun : n.whole ++ rest = n'.whole ++ rest' → n.whole = n'.whole ∧ rest = rest' :=
    digits_append_inj n.whole_isDigit n'.whole_isDigit hrest hrest'
  -- The minus sign is no digit, so either both numbers have one or none does.
  have hmixed : ∀ {k k' : Numeral} {r r' : List Char}, minus :: (k.whole ++ r) = k'.whole ++ r' →
      False := by
    intro k k' r r' heq
    obtain ⟨c, cs, hcs, hc⟩ := k'.exists_whole_eq_cons
    rw [hcs, List.cons_append, List.cons.injEq] at heq
    rw [← heq.1, hminus] at hc
    cases hc
  unfold lead at h
  cases hn : n.negative <;> cases hn' : n'.negative <;>
    simp only [hn, hn', if_true, Bool.false_eq_true, if_false, List.cons_append] at h
  · exact ⟨rfl, hrun h⟩
  · exact (hmixed h.symm).elim
  · exact (hmixed h).elim
  · exact ⟨rfl, hrun (List.cons.inj h).2⟩

/-- **A number is known by its text**, as long as the minus sign and the point are not written as
digits. They may be written alike: the sign stands in front of the first digit, and the point behind
it. -/
theorem spell_inj (hminus : minus.isDigit = false) (hpoint : point.isDigit = false)
    (h : n.spell minus point = n'.spell minus point) : n = n' := by
  obtain ⟨hnegative, hwhole, htail⟩ :=
    lead_append_inj hminus (n.endsDigits_tail hpoint) (n'.endsDigits_tail hpoint) h
  refine Numeral.ext hnegative hwhole ?_
  unfold tail at htail
  split at htail <;> split at htail <;> simp_all

end Numeral

/-! ## Decimals as numerals -/

namespace Decimal

/-- The digits of a natural number are digits. -/
theorem isDigit_toDigits {n : Nat} : ∀ c ∈ Nat.toDigits 10 n, c.isDigit = true :=
  fun _ => Nat.isDigit_of_mem_toDigits (by decide) (by decide)

/-- A single zero is made of digits. -/
theorem isDigit_zero : ∀ c ∈ ['0'], c.isDigit = true := by
  intro c hc
  rw [List.mem_singleton.mp hc]
  rfl

/-- Zeros are digits, however many. -/
theorem isDigit_replicate_zero {n : Nat} : ∀ c ∈ List.replicate n '0', c.isDigit = true := by
  intro c hc
  rw [List.eq_of_mem_replicate hc]
  decide

/-- **A decimal is written as a numeral that stands for it.** There are three forms, by where the
point falls: behind all digits, where zeros make up for the missing places; among the digits; or in
front of all of them, where zeros fill the places up to the point. -/
theorem exists_numeral (d : Decimal) (negative : Bool) :
    ∃ n : Numeral, n.negative = negative ∧ n.magnitude = d.value ∧
      n.whole ++ n.tail '.' = Expression.numeral.positionalText (Nat.toDigits 10 d.digits) d.exponent := by
  have hdigits := isDigit_toDigits (n := d.digits)
  have hnonempty : Nat.toDigits 10 d.digits ≠ [] := Nat.toDigits_ne_nil
  have hvalue : Nat.ofDigitChars 10 (Nat.toDigits 10 d.digits) 0 = d.digits :=
    Nat.ofDigitChars_ten_toDigits
  generalize Nat.toDigits 10 d.digits = digits at hdigits hnonempty hvalue ⊢
  unfold Style.positionalText value
  by_cases hexponent : 0 ≤ d.exponent
  · -- Zeros take the place of the digits that a whole number does not have.
    refine ⟨⟨negative, digits ++ List.replicate d.exponent.toNat '0', [], by simp [hnonempty], ?_,
      nofun⟩, rfl, ?_, ?_⟩
    · intro c hc
      rcases List.mem_append.mp hc with hc | hc
      · exact hdigits c hc
      · exact isDigit_replicate_zero c hc
    · have hpow : (10 : Rat) ^ d.exponent = (10 : Rat) ^ d.exponent.toNat := by
        rw [← zpow_natCast, Int.toNat_of_nonneg hexponent]
      rw [hpow]
      simp [Numeral.magnitude, Nat.ofDigitChars_append, Nat.ofDigitChars_replicate_zero, hvalue,
        mul_comm]
    · simp [Numeral.tail, hexponent, Expression.numeral]
  · have hplaces : d.exponent = -((-d.exponent).toNat : Int) := by omega
    generalize (-d.exponent).toNat = places at hplaces
    rw [if_neg hexponent]
    have hpositive : 0 < places := by omega
    by_cases hlength : places < digits.length
    · refine ⟨⟨negative, digits.take (digits.length - places), digits.drop (digits.length - places),
        ?_, fun c hc => hdigits c (List.mem_of_mem_take hc),
        fun c hc => hdigits c (List.mem_of_mem_drop hc)⟩, rfl, ?_, ?_⟩
      · simp only [ne_eq, List.take_eq_nil_iff, hnonempty, or_false]
        omega
      · have hcount : (digits.drop (digits.length - places)).length = places := by
          rw [List.length_drop]
          omega
        rw [Numeral.magnitude, List.take_append_drop, hvalue, hcount, ← hplaces]
      · have hne : digits.drop (digits.length - places) ≠ [] := by
          rw [ne_eq, List.drop_eq_nil_iff]
          omega
        rw [if_pos hlength, Numeral.tail, if_neg hne]
    · refine ⟨⟨negative, ['0'], List.replicate (places - digits.length) '0' ++ digits, by simp,
        isDigit_zero, ?_⟩, rfl, ?_, ?_⟩
      · intro c hc
        rcases List.mem_append.mp hc with hc | hc
        · exact isDigit_replicate_zero c hc
        · exact hdigits c hc
      · have hcount : (List.replicate (places - digits.length) '0' ++ digits).length = places := by
          rw [List.length_append, List.length_replicate]
          omega
        have hzeros : Nat.ofDigitChars 10
            (['0'] ++ (List.replicate (places - digits.length) '0' ++ digits)) 0 = d.digits := by
          rw [Nat.ofDigitChars_append, Nat.ofDigitChars_append, ← hvalue]
          congr 1
          exact Nat.ofDigitChars_replicate_zero
        rw [Numeral.magnitude, hzeros, hcount, ← hplaces]
      · rw [if_neg hlength, Numeral.tail, if_neg (by simp [hnonempty])]
        rfl

end Decimal

/-! ## Floats as numerals -/

namespace Expression

/-- **A numeral stands for a float**: it has its sign, and the number that it is lies in the
interval of its magnitude. -/
structure Writes (n : Numeral) (x : Float) : Prop where
  /-- The numeral has a minus sign exactly if the float carries one, a zero included. -/
  negative : n.negative = Dyadic.isNegative x
  /-- A float without a magnitude is written as zero. -/
  zero : Dyadic.ofFloat? x = none → n.magnitude = 0
  /-- The number of any other float lies in the interval of its magnitude. -/
  magnitude : ∀ d, Dyadic.ofFloat? x = some d → (Decimal.Interval.ofDyadic d).Contains n.magnitude

/-- **A finite float is written as a numeral that stands for it.** A zero is written as the digit
zero, any other float as its shortest decimal. -/
theorem exists_numeral {x : Float} (h : x.isFinite = true) :
    ∃ n : Numeral, Writes n x ∧ (number x).toList = n.spell '-' '.' := by
  have hparts := floatParts h
  have hnan : x.isNaN = false := by
    show x.toModel.unpack.isNaN = false
    cases hparts with
    | zero s unpacked => rw [unpacked]; rfl
    | finite s m e pos unpacked => rw [unpacked]; rfl
  have htext : ∀ n : Numeral, n.negative = Dyadic.isNegative x →
      n.whole ++ n.tail '.' = numeral.magnitudeText x → (number x).toList = n.spell '-' '.' := by
    intro n hnegative hmagnitude
    rw [number, Decimal.Style.render, String.toList_ofList, ← hmagnitude, ← hnegative, hnan,
      Numeral.spell, Numeral.lead]
    cases n.negative <;> rfl
  cases hparts with
  | zero s unpacked _ hnone =>
    have hinf : x.isInf = false := by
      show x.toModel.unpack.isInf = false
      rw [unpacked]
      rfl
    let n : Numeral := ⟨Dyadic.isNegative x, ['0'], [], by simp, Decimal.isDigit_zero, nofun⟩
    refine ⟨n, ⟨rfl, fun _ => ?_, fun d hd => ?_⟩, htext n rfl ?_⟩
    · simp [n, Numeral.magnitude, Nat.ofDigitChars]
    · rw [hnone] at hd
      cases hd
    · rw [Decimal.Style.magnitudeText, hnone, hnan, hinf]
      rfl
  | finite s m e pos _ _ hsome canonical le =>
    obtain ⟨n, hnegative, hmagnitude, hchars⟩ :=
      (Decimal.shortest numeral.tie ⟨m, e⟩).exists_numeral (Dyadic.isNegative x)
    refine ⟨n, ⟨hnegative, fun hnone => ?_, fun d hd => ?_⟩, htext n hnegative ?_⟩
    · rw [hsome] at hnone
      cases hnone
    · rw [hsome, Option.some.injEq] at hd
      rw [← hd, hmagnitude]
      exact Decimal.contains_shortest canonical pos le _
    · rw [Decimal.Style.magnitudeText, hsome, hchars]
      rfl

/-- **A numeral stands for one finite float only.** A number that is not zero lies in one interval,
and zero in none. -/
theorem Writes.eq {n : Numeral} {x y : Float} (hx : x.isFinite = true) (hy : y.isFinite = true)
    (h : Writes n x) (h' : Writes n y) : x = y := by
  refine eq_of_ofFloat?_eq hx hy (h.negative.symm.trans h'.negative) ?_
  cases floatParts hx with
  | zero s _ _ hmx =>
    cases floatParts hy with
    | zero s' _ _ hmy => rw [hmx, hmy]
    | finite s' m' e' hm' _ _ hmy =>
      have hpos := Decimal.pos_of_contains hm' (h'.magnitude _ hmy)
      rw [h.zero hmx] at hpos
      exact absurd hpos (lt_irrefl _)
  | finite s m e hm _ _ hmx hcanonical =>
    cases floatParts hy with
    | zero s' _ _ hmy =>
      have hpos := Decimal.pos_of_contains hm (h.magnitude _ hmx)
      rw [h'.zero hmy] at hpos
      exact absurd hpos (lt_irrefl _)
    | finite s' m' e' hm' _ _ hmy hcanonical' =>
      obtain ⟨rfl, rfl⟩ := Decimal.eq_of_contains hcanonical hcanonical' (h.magnitude _ hmx)
        (h'.magnitude _ hmy)
      rw [hmx, hmy]

/-- **Two finite floats are never written alike**, the two zeros included: they differ in their
signs. -/
theorem number_injective {x y : Float} (hx : x.isFinite = true) (hy : y.isFinite = true)
    (h : number x = number y) : x = y := by
  obtain ⟨n, hn, htext⟩ := exists_numeral hx
  obtain ⟨n', hn', htext'⟩ := exists_numeral hy
  have hsame : n.spell '-' '.' = n'.spell '-' '.' := by rw [← htext, ← htext', h]
  obtain rfl := Numeral.spell_inj (by decide) (by decide) hsame
  exact hn.eq hx hy hn'

end Expression

end ChartCompiler
