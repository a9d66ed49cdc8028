import ChartCompiler.Proofs.Reference.Guard

/-!
# Offsets and placement

An offset is added wherever a mid point is made. It has no say in where the mid point is.

* `Placement.bare` — a placement without its offset; `Placement.shift` puts the offset on a
  reference.
* `Placement.midPoint_eq_shift` — **mid points commute with offsets**: what each rule gives is what
  it gives without an offset, shifted afterwards. Only the signal of a channel is not shifted.
* `ChannelRef.mapFallback`, `ChannelRef.tested` — the reference of a channel with its fallback
  changed, and what stands before the fallback.
* `Placement.offset_orthogonal` — **an offset changes the offset of the mid point and nothing
  else**, and of a guarded mid point the fallback only.

The rules pass the offset on until a reference is made, and none of them branches on it. So there is
one lemma of the same form for each rule, that the offset may as well be added at the end, and the
mid point has one more for all of them. The notices of a computation are part of these equations.
-/

namespace ChartCompiler

/-! ## References -/

/-- A field or a datum may be shifted after it is read: this gives what is read with the offset. -/
theorem Source.ref_eq_withOffset (source : Source) (scale : Option String) (form : OutputForm)
    (offset : Option Offset) (band : Option Float) :
    source.ref scale form offset band = (source.ref scale form none band).withOffset offset := by
  rw [Source.ref_eq, Source.ref_eq, ValueRef.withOffset_eq]
  simp

/-- A place in an interval may be shifted after it is found. -/
theorem interpolate_eq_withOffset (scale : Option String) (source : Source)
    (rangeEnd : Option Source) (startSuffix : String) (offset : Option Offset)
    (band : Option Float) :
    interpolate scale source rangeEnd startSuffix offset band =
      (interpolate scale source rangeEnd startSuffix none band).withOffset offset := rfl

/-- A zero of either sign shifts nothing, and an offset that is set already stays. -/
theorem ValueRef.withOffset_of_zero (r : ValueRef) {amount : Float} (h : (amount == 0) = true) :
    r.withOffset (some (.value amount)) = r := by
  simp [ValueRef.withOffset, Offset.isSet, bne, h]

namespace ChannelRef

/-- **The reference with its fallback changed**; what stands before the fallback stays. -/
def mapFallback (change : ValueRef → ValueRef) : ChannelRef → ChannelRef
  | single ref => single (change ref)
  | conditional refs => conditional (refs.dropLast ++ (refs.getLast?.map change).toList)

/-- **What stands before the fallback**: the references that hold where their test passes. -/
def tested : ChannelRef → List ValueRef
  | single _ => []
  | conditional refs => refs.dropLast

variable (change : ValueRef → ValueRef) (r : ChannelRef)

/-- Changing the fallback neither adds a test nor takes one away. -/
@[simp] theorem isConditional_mapFallback : (r.mapFallback change).isConditional = r.isConditional := by
  cases r <;> rfl

/-- What stands before the fallback stays when the fallback is changed. -/
@[simp] theorem tested_mapFallback : (r.mapFallback change).tested = r.tested := by
  cases r with
  | single ref => rfl
  | conditional refs =>
    obtain rfl | ⟨front, last, rfl⟩ := List.eq_nil_or_concat refs
    · rfl
    · simp [mapFallback, tested]

/-- The fallback is changed as asked for, if there is one. -/
@[simp] theorem fallback?_mapFallback : (r.mapFallback change).fallback? = r.fallback?.map change := by
  cases r with
  | single ref => rfl
  | conditional refs =>
    obtain rfl | ⟨front, last, rfl⟩ := List.eq_nil_or_concat refs
    · rfl
    · simp [mapFallback, fallback?]

end ChannelRef

/-! ## The rules of placement -/

namespace Placement

/-- **The placement without its offset.** -/
abbrev bare (p : Placement) : Placement := { p with offset := none }

/-- **A reference with the offset of the placement.** The signal of a channel takes no offset. -/
def shift (p : Placement) (ref : ValueRef) : ValueRef :=
  match p.definition with
  | some (.signal _) => ref
  | _ => ref.withOffset p.offset

section rules

variable (p : Placement)

/-- The rule of scales commutes with the offset. -/
theorem scaleRef_eq_withOffset (source : Source) :
    p.scaleRef source = (p.bare.scaleRef source).withOffset p.offset := by
  have hscale : p.bare.discreteScale? = p.discreteScale? := rfl
  unfold scaleRef
  rw [hscale]
  cases p.discreteScale? with
  | none => exact source.ref_eq_withOffset ..
  | some s => exact source.ref_eq_withOffset ..

/-- The rule of intervals commutes with the offset. -/
theorem intervalRef_eq_withOffset (d : FieldDef) (band : Option Float) :
    p.intervalRef d band = (p.bare.intervalRef d band).withOffset p.offset := by
  unfold intervalRef
  dsimp only
  by_cases hxy : (p.channel.isXY && d.type.any Measurement.isContinuous) = true
  · rw [if_pos hxy, if_pos hxy]
    by_cases himpute : p.stack.any Stack.impute = true
    · rw [if_pos himpute, if_pos himpute]
      exact Source.ref_eq_withOffset ..
    · rw [if_neg himpute, if_neg himpute]
      exact interpolate_eq_withOffset ..
  · rw [if_neg hxy, if_neg hxy]
    exact Source.ref_eq_withOffset ..

/-- The rule of bins and time units commutes with the offset, and reports the same with and without
it. -/
theorem binnedRef_eq_withOffset (d : FieldDef) :
    p.binnedRef d = Option.map (·.withOffset p.offset) <$> p.bare.binnedRef d := by
  unfold binnedRef
  dsimp only
  split
  · rfl
  · split
    · rw [intervalRef_eq_withOffset]
      rfl
    · split
      · split <;> rfl
      · rfl

/-- A field is shifted by whichever rule it is placed, with the same notices. -/
theorem fieldRef_eq_withOffset (d : FieldDef) :
    p.fieldRef d = (·.withOffset p.offset) <$> p.bare.fieldRef d := by
  unfold fieldRef
  rw [binnedRef_eq_withOffset, scaleRef_eq_withOffset]
  simp only [map_eq_pure_bind, bind_assoc, pure_bind]
  congr 1
  funext placed
  cases placed <;> rfl

/-- **The mid point commutes with the offset.** A placement with an offset has the mid point, and
the notices, of the one without it, shifted afterwards. -/
theorem midPoint_eq_shift : p.midPoint = Option.map p.shift <$> p.bare.midPoint := by
  have hbare : p.bare.definition = p.definition := rfl
  have hshift : p.shift = fun ref =>
      match p.definition with
      | some (.signal _) => ref
      | _ => ref.withOffset p.offset := rfl
  unfold midPoint
  rw [hbare, hshift]
  cases p.definition with
  | none => simp
  | some definition =>
    cases definition with
    | field d =>
      dsimp only
      rw [fieldRef_eq_withOffset]
      simp
    | datum d =>
      dsimp only
      rw [scaleRef_eq_withOffset]
      rfl
    | value literal => rfl
    | signal s => rfl

/-! ## Guarded mid points -/

/-- A reference is guarded in the same way whatever it is, so it may be changed before or
afterwards. -/
theorem mapFallback_guard (change : ValueRef → ValueRef) (ref : ValueRef) :
    (p.guard ref).mapFallback change = p.guard (change ref) := by
  unfold guard
  cases p.guardedField? with
  | none => rfl
  | some d =>
    dsimp only
    unfold FieldDef.guardInvalid
    split
    · rfl
    · split <;> rfl

/-- **The guarded mid point is shifted in its fallback**, and the test in front of it stays where it
is. -/
theorem guardedMidPoint_eq_shift :
    p.guardedMidPoint = Option.map (ChannelRef.mapFallback p.shift) <$> p.bare.guardedMidPoint := by
  have hguarded : ∀ q : Placement, q.guardedMidPoint = Option.map q.guard <$> q.midPoint :=
    fun _ => rfl
  have hguard : p.bare.guard = p.guard := rfl
  have hcomp : p.guard ∘ p.shift = ChannelRef.mapFallback p.shift ∘ p.guard := by
    funext ref
    exact (p.mapFallback_guard p.shift ref).symm
  rw [hguarded, hguarded, hguard, midPoint_eq_shift]
  simp only [Functor.map_map, Option.map_map, hcomp]

end rules

/-! ## What an offset changes -/

section shift

variable {p : Placement}

/-- The signal of a channel is not shifted. -/
theorem shift_of_signal {s : SignalRef} (h : p.definition = some (.signal s)) : p.shift = id := by
  unfold shift
  rw [h]
  rfl

/-- Whatever is not the signal of a channel is shifted. -/
theorem shift_of_ne_signal (h : ∀ s, p.definition ≠ some (.signal s)) :
    p.shift = (·.withOffset p.offset) := by
  funext ref
  unfold shift
  split
  · rename_i s hs
    exact absurd hs (h s)
  · rfl

/-- A zero shifts nothing. -/
theorem shift_of_zero {amount : Float} (hoffset : p.offset = some (.value amount))
    (hzero : (amount == 0) = true) : p.shift = id := by
  funext ref
  unfold shift
  rw [hoffset]
  split
  · rfl
  · exact ref.withOffset_of_zero hzero

/-- Shifting changes the offset of a reference only. -/
theorem exists_shift_eq (p : Placement) (ref : ValueRef) :
    ∃ offset, p.shift ref = { ref with offset := offset } := by
  unfold shift
  split
  · exact ⟨ref.offset, rfl⟩
  · exact ⟨_, ref.withOffset_eq p.offset⟩

/-- Where nothing is shifted, both mid points are those without an offset. -/
theorem eq_bare_of_shift (h : p.shift = id) :
    p.midPoint = p.bare.midPoint ∧ p.guardedMidPoint = p.bare.guardedMidPoint := by
  have hmid : p.midPoint = p.bare.midPoint := by
    rw [midPoint_eq_shift, h, Option.map_id, id_map]
  refine ⟨hmid, ?_⟩
  unfold guardedMidPoint
  rw [hmid]
  rfl

end shift

/-- **An offset changes the offset of the mid point and nothing else.** The signal of a channel
stays as it is; any other mid point is the one without an offset, shifted. A zero of either sign
changes nothing, so that a default keeps its own offset. Of the guarded mid point only the fallback
is shifted: whether there is a test, and what holds where it passes, are the same. -/
theorem offset_orthogonal (p : Placement) :
    (∀ s, p.definition = some (.signal s) →
      p.midPoint = p.bare.midPoint ∧ p.guardedMidPoint = p.bare.guardedMidPoint) ∧
    ((∀ s, p.definition ≠ some (.signal s)) →
      p.midPoint = Option.map (·.withOffset p.offset) <$> p.bare.midPoint ∧
        p.guardedMidPoint =
          Option.map (·.mapFallback (·.withOffset p.offset)) <$> p.bare.guardedMidPoint) ∧
    (∀ ref, p.bare.midPoint.value = some ref →
      ∃ offset, p.midPoint.value = some { ref with offset := offset }) ∧
    (∀ amount, p.offset = some (.value amount) → (amount == 0) = true →
      p.midPoint = p.bare.midPoint ∧ p.guardedMidPoint = p.bare.guardedMidPoint ∧
        (p.definition = none → p.midPoint.value = p.default.resolve?)) ∧
    (p.guardedMidPoint.value.map ChannelRef.isConditional =
        p.bare.guardedMidPoint.value.map ChannelRef.isConditional ∧
      p.guardedMidPoint.value.map ChannelRef.tested =
        p.bare.guardedMidPoint.value.map ChannelRef.tested) := by
  refine ⟨?signal, ?shifted, ?component, ?zero, ?guarded⟩
  case signal =>
    intro s hs
    exact eq_bare_of_shift (shift_of_signal hs)
  case shifted =>
    intro hno
    rw [midPoint_eq_shift, guardedMidPoint_eq_shift, shift_of_ne_signal hno]
    exact ⟨rfl, rfl⟩
  case component =>
    intro ref href
    obtain ⟨offset, hoffset⟩ := p.exists_shift_eq ref
    refine ⟨offset, ?_⟩
    rw [← hoffset, midPoint_eq_shift]
    -- The value of what is mapped is the mapped value, whatever was reported.
    change p.bare.midPoint.value.map p.shift = _
    rw [href]
    rfl
  case zero =>
    intro amount hoffset hzero
    obtain ⟨hmid, hguarded⟩ := eq_bare_of_shift (shift_of_zero hoffset hzero)
    refine ⟨hmid, hguarded, ?_⟩
    intro hnone
    rw [hmid]
    unfold midPoint
    simp [hnone]
  case guarded =>
    rw [guardedMidPoint_eq_shift]
    constructor
    · change (p.bare.guardedMidPoint.value.map _).map _ = _
      simp [Function.comp_def]
    · change (p.bare.guardedMidPoint.value.map _).map _ = _
      simp [Function.comp_def]

/-- Points on `y` are pushed by five pixels: their mid point has the offset 5, and of the two references of
the guarded one the fallback only. A signal is not pushed, and a default keeps its own offset where none
is added. -/
theorem offset_pointOnY :
    let pushed : Placement := { pointOnY with offset := some (.value 5) }
    let signal : Placement := { pushed with definition := some (.signal ⟨"cursor"⟩) }
    let kept : ValueRef := { value := some (.ofInt 0), offset := some (.value 2) }
    let still : Placement :=
      { pointOnY with definition := none, default := .value kept, offset := some (.value 0) }
    pushed.midPoint.value =
        some { scale := some "y", field := some (.row "a"), offset := some (.value 5) } ∧
      pushed.guardedMidPoint.value =
        some (.conditional
          [{ test := some "!isValid(datum[\"a\"]) || !isFinite(+datum[\"a\"])",
             field := some (.group "height") },
           { scale := some "y", field := some (.row "a"), offset := some (.value 5) }]) ∧
      signal.midPoint = signal.bare.midPoint ∧
      still.midPoint.value = some kept := by
  intro pushed signal kept still
  obtain ⟨-, hshifted, -, -, -⟩ := pushed.offset_orthogonal
  obtain ⟨hsignal, -, -, -, -⟩ := signal.offset_orthogonal
  obtain ⟨-, -, -, hzero, -⟩ := still.offset_orthogonal
  obtain ⟨hmid, hguarded⟩ := hshifted nofun
  refine ⟨?_, ?_, (hsignal _ rfl).1, (hzero 0 rfl (by decide +kernel)).2.2 rfl⟩
  · rw [hmid]
    with_unfolding_all rfl
  · rw [hguarded]
    with_unfolding_all rfl

end Placement

end ChartCompiler
