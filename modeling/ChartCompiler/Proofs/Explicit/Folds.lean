import ChartCompiler.Explicit
import Mathlib.Data.List.Perm.Basic
import Mathlib.Order.Lattice

/-!
# Merging many candidates

The candidates for one property are merged in order, the result so far with the next one. What comes
of a whole list is told here from the list, by those of its candidates that were authored.

* `Explicit.conflicts` — the notices on an authored candidate and the later ones that differ from
  it.
* `Explicit.foldlM_merge` — **the usual merge of a list**: the first authored candidate stays, else
  the first one; the authored ones behind it that differ are reported, and nothing else is.
* `Explicit.leaders` — the candidates that count: the authored ones, or all where none is.
* `combination?` — the values of a list combined by an operation. It does not depend on their order
  where the operation is commutative and associative.
* `TieBreaker.combine` — the tie breaker that combines both values; `Explicit.join` is what two
  candidates come to with it.
* `Explicit.foldlM_mergeBy_combine` — **merging by combination does not depend on the order**: the
  values of the candidates that count are combined.

The usual merge keeps one candidate and passes judgement on the others, so its fold splits in two:
up to the first authored candidate the result so far may change, from there on it never does.
Merging by combination forgets which candidate a value came from. For it the fold is compared with
the combination of the leaders, which takes one step to the next when the first two candidates are
replaced by what they come to together.
-/

namespace ChartCompiler

variable {α : Type}

namespace Explicit

/-! ## The usual merge -/

section merge

variable [BEq α] [Diagnostic α] (property : Property)

/-- **What merging two candidates reports**: that both are authored and differ. Equality is the
program's, under which a number that is no number differs from itself. -/
theorem notices_merge (v₁ v₂ : Explicit α) :
    (merge property v₁ v₂).notices =
      if v₁.isExplicit && v₂.isExplicit && !(v₁.value == v₂.value) then
        [.conflict property.name property.owner (diagnostic v₁.value) (diagnostic v₂.value)]
      else [] := by
  unfold merge mergeBy TieBreaker.keepFirst
  cases v₁.isExplicit <;> cases v₂.isExplicit <;> cases v₁.value == v₂.value <;> rfl

/-- **The conflicts of a candidate with later ones**: one notice for each that differs from it, in
order, which names the candidate first and the later one second. -/
def conflicts (lead : Explicit α) (later : List (Explicit α)) : List Notice :=
  (later.filter fun e => !(lead.value == e.value)).map fun e =>
    .conflict property.name property.owner (diagnostic lead.value) (diagnostic e.value)

/-- An authored candidate stays, whatever comes behind it, and is reported with those authored ones
that differ from it. Agreeing ones are passed over in silence, and so are all inferred ones. -/
theorem foldlM_merge_of_isExplicit {lead : Explicit α} (hlead : lead.isExplicit = true)
    (rest : List (Explicit α)) :
    rest.foldlM (merge property) lead =
      { value := lead, notices := conflicts property lead (rest.filter isExplicit) } := by
  induction rest with
  | nil => rfl
  | cons e rest ih =>
    have hstays : (merge property lead e).value = lead := by simp [value_merge, hlead]
    rw [List.foldlM_cons]
    apply Reported.ext
    · rw [Reported.value_bind, hstays, ih]
    · rw [Reported.notices_bind, hstays, ih, notices_merge, hlead]
      by_cases he : e.isExplicit = true
      · by_cases hvalue : (lead.value == e.value) = true
        · simp [conflicts, he, hvalue]
        · simp [conflicts, he, hvalue]
      · simp [conflicts, he]

/-- An inferred candidate gives way to an authored one and stays before an inferred one. Nothing is
reported. -/
theorem merge_of_not_isExplicit {first : Explicit α} (hfirst : first.isExplicit = false)
    (e : Explicit α) : merge property first e = pure (if e.isExplicit then e else first) := by
  apply Reported.ext
  · simp [value_merge, hfirst]
  · simp [notices_merge, hfirst]

/-- **The usual merge of a list of candidates.** The first authored one stays as it is, or the first
one if none is authored. Each authored candidate behind the first authored one is reported if it
differs from that one, in order, and nothing else is reported.

So the candidates in front of the first authored one have no influence at all, and those behind it
none on the result. -/
theorem foldlM_merge (first : Explicit α) (rest : List (Explicit α)) :
    rest.foldlM (merge property) first =
      match (first :: rest).filter isExplicit with
      | [] => { value := first, notices := [] }
      | lead :: later => { value := lead, notices := conflicts property lead later } := by
  by_cases hfirst : first.isExplicit = true
  · rw [List.filter_cons_of_pos hfirst]
    exact foldlM_merge_of_isExplicit property hfirst rest
  rw [List.filter_cons_of_neg hfirst]
  -- An inferred first candidate stays until an authored one comes.
  induction rest with
  | nil => rfl
  | cons e rest ih =>
    rw [List.foldlM_cons, merge_of_not_isExplicit property (Bool.eq_false_iff.mpr hfirst), pure_bind]
    by_cases he : e.isExplicit = true
    · rw [if_pos he, List.filter_cons_of_pos he]
      exact foldlM_merge_of_isExplicit property he rest
    · rw [if_neg he, List.filter_cons_of_neg he]
      exact ih

/-- Of three authored widths the second one agrees with the first, and only the third is reported. -/
example :
    [authored 2, inferred 5, authored 2, authored 3].foldlM (merge { name := "width" })
        (inferred (7 : Int)) =
      { value := authored 2, notices := [.conflict "width" "" "2" "3"] } := by
  rfl

end merge

/-! ## The candidates that count -/

/-- **The candidates that count**: the authored ones, or all where none is authored. They stay in
order. -/
def leaders (items : List (Explicit α)) : List (Explicit α) :=
  if items.any isExplicit then items.filter isExplicit else items

/-- The candidates that count are the same, rearranged, once all candidates are. -/
theorem leaders_perm {items items' : List (Explicit α)} (h : items.Perm items') :
    (leaders items).Perm (leaders items') := by
  unfold leaders
  rw [h.any_eq]
  split
  · exact h.filter isExplicit
  · exact h

end Explicit

/-! ## Combining values -/

section combination

variable (op : α → α → α)

/-- One more value combined with those so far; the first one stands by itself. -/
def combineNext (sofar : Option α) (a : α) : Option α := some (sofar.elim a fun b => op b a)

/-- **The values of a list combined in order**; none where there are no values. -/
def combination? (values : List α) : Option α := values.foldl (combineNext op) none

/-- From a first value on, combining is folding with the operation. -/
theorem foldl_combineNext_some (a : α) (rest : List α) :
    rest.foldl (combineNext op) (some a) = some (rest.foldl op a) := by
  induction rest generalizing a with
  | nil => rfl
  | cons b rest ih => exact ih (op a b)

/-- The combination of a list that is not empty, as a fold from its first value. -/
theorem combination?_cons (a : α) (rest : List α) :
    combination? op (a :: rest) = some (rest.foldl op a) :=
  foldl_combineNext_some op a rest

variable [Std.Commutative op] [Std.Associative op]

/-- Two further values may be combined in either order. -/
instance combineNext_rightCommutative : RightCommutative (combineNext op) where
  right_comm sofar a b := by
    cases sofar with
    | none => exact congrArg some (Std.Commutative.comm a b)
    | some c =>
      have hassoc : ∀ x y, op (op c x) y = op c (op x y) := Std.Associative.assoc c
      have hcomm : op a b = op b a := Std.Commutative.comm a b
      have hswap : op (op c a) b = op (op c b) a := by rw [hassoc, hassoc, hcomm]
      exact congrArg some hswap

/-- **The order of the values does not matter** to an operation that is commutative and
associative. -/
theorem combination?_eq_of_perm {values values' : List α} (h : values.Perm values') :
    combination? op values = combination? op values' :=
  h.foldl_eq none

end combination

/-! ## Merging by combination -/

/-- **The tie breaker that combines both values.** The result is authored if both are, and a tie
breaker is only asked where both are or none is. Nothing is reported. -/
def TieBreaker.combine (op : α → α → α) : TieBreaker α := fun _ v₁ v₂ =>
  pure { value := op v₁.value v₂.value, isExplicit := v₁.isExplicit && v₂.isExplicit }

namespace Explicit

section combine

variable (op : α → α → α)

/-- **What two candidates come to**: their values combined if they rank alike, else the authored
one. -/
def join (v₁ v₂ : Explicit α) : Explicit α :=
  if v₁.isExplicit = v₂.isExplicit then ⟨op v₁.value v₂.value, v₁.isExplicit⟩
  else if v₁.isExplicit then v₁ else v₂

/-- What two candidates come to is authored if one of them is. -/
@[simp] theorem isExplicit_join (v₁ v₂ : Explicit α) :
    (join op v₁ v₂).isExplicit = (v₁.isExplicit || v₂.isExplicit) := by
  unfold join
  cases h₁ : v₁.isExplicit <;> cases h₂ : v₂.isExplicit <;> simp [h₁, h₂]

/-- The candidates that count come to the same once the first two are joined. The four cases are
those of which of the two is authored. -/
theorem combination?_leaders_cons_cons (v₁ v₂ : Explicit α) (rest : List (Explicit α)) :
    combination? op ((leaders (v₁ :: v₂ :: rest)).map value) =
      combination? op ((leaders (join op v₁ v₂ :: rest)).map value) := by
  unfold leaders
  by_cases h₁ : v₁.isExplicit = true <;> by_cases h₂ : v₂.isExplicit = true
  · simp [h₁, h₂, combination?_cons, join]
  · simp [h₁, h₂, combination?_cons, join]
  · simp [h₁, h₂, combination?_cons, join]
  · -- Where both are inferred, it depends on the others whether the two count at all.
    simp only [Bool.not_eq_true] at h₁ h₂
    by_cases hrest : rest.any isExplicit = true
    · simp [h₁, h₂, hrest]
    · simp [h₁, h₂, hrest, combination?_cons, join]

/-- **What candidates come to when they are joined in order**: the values of those that count are
combined, and the result is authored if one of them is. The induction is on the candidates behind
the first, which changes from step to step. -/
theorem foldl_join (first : Explicit α) (rest : List (Explicit α)) :
    combination? op ((leaders (first :: rest)).map value) =
        some (rest.foldl (join op) first).value ∧
      (rest.foldl (join op) first).isExplicit = (first :: rest).any isExplicit := by
  induction rest generalizing first with
  | nil =>
    have hleaders : leaders [first] = [first] := by
      by_cases h : first.isExplicit = true <;> simp [leaders, h]
    simp [hleaders, combination?_cons]
  | cons e rest ih =>
    obtain ⟨hvalue, hexplicit⟩ := ih (join op first e)
    rw [List.foldl_cons]
    constructor
    · rw [combination?_leaders_cons_cons, hvalue]
    · rw [hexplicit]
      simp [Bool.or_assoc]

variable [BEq α] [LawfulBEq α] [Std.IdempotentOp op]

/-- Merging two candidates joins them. Equal values are kept without asking the tie breaker, and are
their own combination, which is where the operation has to be idempotent. -/
theorem mergeBy_combine (property : Property) (v₁ v₂ : Explicit α) :
    mergeBy (.combine op) property v₁ v₂ = pure (join op v₁ v₂) := by
  obtain ⟨a, ea⟩ := v₁
  obtain ⟨b, eb⟩ := v₂
  by_cases hab : a = b
  · subst hab
    cases ea <;> cases eb <;> simp [mergeBy, join, Std.IdempotentOp.idempotent]
  · cases ea <;> cases eb <;> simp [mergeBy, join, hab, TieBreaker.combine]

/-- Merging a list of candidates joins them in order. -/
theorem foldlM_mergeBy_eq_join (property : Property) (first : Explicit α)
    (rest : List (Explicit α)) :
    rest.foldlM (mergeBy (.combine op) property) first = pure (rest.foldl (join op) first) := by
  have hstep : mergeBy (.combine op) property = fun v₁ v₂ => pure (join op v₁ v₂) := by
    funext v₁ v₂
    exact mergeBy_combine op property v₁ v₂
  rw [hstep, List.foldlM_pure]

variable [Std.Commutative op] [Std.Associative op]

/-- **Merging by combination does not depend on the order.** However the candidates are rearranged,
and whatever the property is, the result is authored if one of them is, and its value combines those
of the authored ones, or those of all where none is authored.

The laws that are asked of the operation are those of taking the larger or the smaller of two, or of
joining sets. -/
theorem foldlM_mergeBy_combine (first : Explicit α) (rest : List (Explicit α)) :
    let items := first :: rest
    ∃ combined, combination? op ((leaders items).map value) = some combined ∧
      ∀ (property : Property) (first' : Explicit α) (rest' : List (Explicit α)),
        (first' :: rest').Perm items →
          rest'.foldlM (mergeBy (.combine op) property) first' =
            pure { value := combined, isExplicit := items.any isExplicit } := by
  intro items
  obtain ⟨hvalue, -⟩ := foldl_join op first rest
  refine ⟨_, hvalue, ?_⟩
  intro property first' rest' hperm
  obtain ⟨hvalue', hexplicit'⟩ := foldl_join op first' rest'
  have hsame : (rest'.foldl (join op) first').value = (rest.foldl (join op) first).value := by
    rw [combination?_eq_of_perm op ((leaders_perm hperm).map value), hvalue] at hvalue'
    exact (Option.some.inj hvalue').symm
  rw [hperm.any_eq] at hexplicit'
  rw [foldlM_mergeBy_eq_join, ← hsame, ← hexplicit']

/-- The largest authored number stays, wherever it stands, and beside a larger inferred one. -/
theorem merged_largest_of_three :
    [authored 5, authored 3].foldlM (mergeBy (.combine max) { name := "width" })
        (inferred (9 : Nat)) = pure (authored 5) ∧
      [inferred 9, authored 5].foldlM (mergeBy (.combine max) { name := "height" })
        (authored (3 : Nat)) = pure (authored 5) := by
  obtain ⟨combined, hcombined, hmerged⟩ :=
    foldlM_mergeBy_combine max (inferred 9) [authored 5, authored (3 : Nat)]
  obtain rfl : 5 = combined := Option.some.inj hcombined
  exact ⟨hmerged _ _ _ (List.Perm.refl _), hmerged _ _ _ (by decide)⟩

end combine

end Explicit

end ChartCompiler
