import ChartCompiler.Proofs.Json.Reading
import ChartCompiler.Proofs.Schema.Records
import ChartCompiler.Schema.Config
import Mathlib.Data.Option.Basic

/-!
# Configurations are read back

Missing, null and empty mean different things in a configuration. What is written keeps them apart.

* `SizeSpec.IsFinite`, `MarkConfig.IsFinite`, `ViewConfig.IsFinite`, `Config.IsFinite` — every
  number is finite, as it is in whatever was read.
* `Config.IsFinite.readsBack` — **a configuration with finite numbers reads back from its form**.
* `Config.fits_shape` — what is written of a configuration is read as a whole.
* `Config.ofText_text` — **a configuration that was read from a text is read from the text it is
  written as**, whatever order members stand in, if its own numbers are read back from theirs.

A configuration is built of records and a table of records, and the same four facts are shown of
every part: what was read has finite numbers (`isFinite_of_decode?`), what has finite numbers is
read back from its form (`readsBack`), its form has finite numbers and no others (`onlyFinite`), and
its form is read as a whole (`fits`). The last two lead from values to texts: a text is taken apart
by a shape, which passes over what it does not ask for, and numbers in a text are digits.
-/

namespace ChartCompiler

open Json (MemberOrder rearrange)

variable {order : MemberOrder}

/-!
## What is written of a record

The properties of a record stand in an object. What holds of each of them that is set holds of the
object.
-/

namespace Json

/-- **Every number is a finite float.** Configurations write no other numbers, not even for whole
ones. -/
def OnlyFinite (j : Json) : Prop := ∀ n ∈ j.numbers, ∃ x : Float, n = .float x ∧ x.isFinite = true

/-- A record is written as an object with the properties that are set. -/
theorem ofFields_eq (fields : List (String × Option Json)) :
    ofFields fields = .object (Record.setFields fields) := by
  unfold ofFields record Record.setFields
  rw [List.filterMap_map]
  rfl

/-- The numbers of a record are those of its properties. -/
theorem onlyFinite_ofFields {fields : List (String × Option Json)}
    (h : ∀ f ∈ fields, ∀ j ∈ f.2, OnlyFinite j) : (ofFields fields).OnlyFinite := by
  intro n hn
  rw [ofFields_eq, mem_numbers_object] at hn
  obtain ⟨⟨name, j⟩, hm, hn⟩ := hn
  exact h _ (Record.mem_setFields_iff.mp hm) j rfl n hn

/-- A shape that reads all of each property that is set reads all of the record. -/
theorem fits_ofFields {shape : Shape} {fields : List (String × Option Json)}
    (h : ∀ name j, (name, some j) ∈ fields →
      ∃ inner, shape.member? name = some inner ∧ Fits inner (rearrange order j)) :
    Fits shape (rearrange order (ofFields fields)) := by
  rw [ofFields_eq, rearrange]
  refine fits_object fun m hm => ?_
  rw [(order.perm _).mem_iff, rearrangeMembers_eq_map] at hm
  obtain ⟨⟨name, j⟩, hmem, rfl⟩ := List.mem_map.mp hm
  exact h name j (Record.mem_setFields_iff.mp hmem)

/-- The properties of a record that are listed are read as a whole. -/
theorem fits_flat_ofFields {names : List String} {fields : List (String × Option Json)}
    (h : ∀ f ∈ fields, f.1 ∈ names) : Fits (.flat names) (rearrange order (ofFields fields)) :=
  fits_ofFields fun _ j hmem => ⟨.whole, member?_flat (h _ hmem), fits_whole (rearrange order j)⟩

end Json

open Json (OnlyFinite)

/-- A finite float is written as one number, itself. -/
theorem onlyFinite_float {x : Float} (h : x.isFinite = true) : (encode x).OnlyFinite := by
  intro n hn
  obtain rfl : n = .float x := List.mem_singleton.mp hn
  exact ⟨x, rfl, h⟩

/-- A number with a finite default is finite, whether it was read or not. -/
theorem isFinite_of_withDefault {r : Record} {name : String} {x default : Float}
    (hdefault : default.isFinite = true) (h : r.withDefault name default = some x) :
    x.isFinite = true :=
  Record.of_withDefault (P := (Float.isFinite · = true)) hdefault isFinite_of_decode? h

/-! ## Sizes -/

namespace SizeSpec

/-- **The number of a size is finite.** -/
def IsFinite (s : SizeSpec) : Prop := s.amount.isFinite = true

/-- A step as a record with one property. -/
def stepFields (x : Float) : List (String × Option Json) := [("step", some (encode x))]

/-- A size that was read has a finite number, as pixels or as a step. -/
theorem isFinite_of_decode? {j : Json} {s : SizeSpec} (h : decode? j = some s) : s.IsFinite := by
  change ((decode? j).map pixels <|> _) = some s at h
  cases hpixels : (decode? j : Option Float) with
  | some x =>
    rw [hpixels] at h
    obtain rfl : pixels x = s := Option.some.inj h
    exact ChartCompiler.isFinite_of_decode? hpixels
  | none =>
    rw [hpixels] at h
    obtain ⟨r, -, h⟩ := Option.bind_eq_some_iff.mp h
    obtain ⟨x, hx, rfl⟩ := Option.map_eq_some_iff.mp h
    obtain ⟨j, -, hx⟩ := Option.bind_eq_some_iff.mp hx
    exact ChartCompiler.isFinite_of_decode? hx

/-- Sizes are written as numbers or objects. -/
instance : NeverNull SizeSpec where
  encode_ne_null s := by cases s <;> exact nofun

/-- **A size is read back**: pixels as a number, a step as a record. -/
theorem IsFinite.readsBack {s : SizeSpec} (h : s.IsFinite) : ReadsBack order s := by
  cases s with
  | pixels x =>
    have hx : decode? (rearrange order (encode x)) = some x := readsBack_of_isFinite h
    show ((decode? (rearrange order (encode x))).map pixels <|> _) = some (pixels x)
    rw [hx]
    rfl
  | step x =>
    obtain ⟨r, hr, hget, -⟩ := Record.exists_ofJson?_ofFields order
      (stepFields x) (by simp [stepFields]) ["step"] 1
    have hstep := Record.required_eq (a := x) (hget "step" _ (by simp [stepFields]))
      (readsBack_of_isFinite h)
    show (Record.ofJson? ["step"] 1 (rearrange order (.ofFields (stepFields x)))).bind
      (fun r => (r.required "step").map step) = some (step x)
    rw [hr, Option.bind_some, hstep]
    rfl

/-- The form of a size holds its number only. -/
theorem IsFinite.onlyFinite {s : SizeSpec} (h : s.IsFinite) : (encode s).OnlyFinite := by
  cases s with
  | pixels x => exact onlyFinite_float h
  | step x =>
    show (Json.ofFields (stepFields x)).OnlyFinite
    refine Json.onlyFinite_ofFields (List.forall_mem_singleton.mpr ?_)
    rintro _ ⟨⟩
    exact onlyFinite_float h

end SizeSpec

/-! ## Mark properties -/

namespace InvalidMode

/-- **The handling of invalid data is read as it was written**: unset when it is missing. It is the
property in which null has a meaning of its own, so it is read by a function of its own. -/
theorem property?_eq {r : Record} {v : Option InvalidMode}
    (hget : r.get? "invalid" = (v.map encode).map (rearrange order)) : property? r = some v := by
  unfold property?
  rw [hget]
  cases v with
  | none => rfl
  | some m => cases m <;> rfl

end InvalidMode

namespace MarkConfig

/-- **The numbers of configured mark properties are finite.** -/
structure IsFinite (c : MarkConfig) : Prop where
  /-- The part of a time unit that a mark fills is finite, if it is set. -/
  timeUnitBand : ∀ x ∈ c.timeUnitBand, x.isFinite = true
  /-- The place of a mark in a time unit is finite, if it is set. -/
  timeUnitBandPosition : ∀ x ∈ c.timeUnitBandPosition, x.isFinite = true

/-- The properties in the order they are written. -/
def fields (c : MarkConfig) : List (String × Option Json) :=
  [("invalid", c.invalid.map encode), ("timeUnitBand", c.timeUnitBand.map encode),
    ("timeUnitBandPosition", c.timeUnitBandPosition.map encode)]

/-- Mark properties are written as a record of them. -/
theorem encode_eq (c : MarkConfig) : encode c = .ofFields c.fields := by
  show Json.record _ = Json.record _
  simp [fields, member, Function.comp_def]

/-- Mark properties that were read have finite numbers. -/
theorem isFinite_of_decode? {j : Json} {c : MarkConfig} (h : decode? j = some c) : c.IsFinite := by
  change ofJson? j = some c at h
  obtain ⟨r, -, h⟩ := Option.bind_eq_some_iff.mp h
  obtain ⟨invalid, -, h⟩ := Option.bind_eq_some_iff.mp h
  obtain ⟨timeUnitBand, hband, h⟩ := Option.bind_eq_some_iff.mp h
  obtain ⟨timeUnitBandPosition, hposition, h⟩ := Option.bind_eq_some_iff.mp h
  obtain rfl := Option.some.inj h
  exact ⟨Record.forall_of_optional ChartCompiler.isFinite_of_decode? hband,
    Record.forall_of_optional ChartCompiler.isFinite_of_decode? hposition⟩

/-- **Configured mark properties are read back**, set or unset as they were. -/
theorem IsFinite.readsBack {c : MarkConfig} (h : c.IsFinite) : ReadsBack order c := by
  obtain ⟨r, hr, hget, -⟩ := Record.exists_ofJson?_ofFields order c.fields
    (by simp [fields]) properties 0
  have invalid := InvalidMode.property?_eq (v := c.invalid) (hget "invalid" _ (by simp [fields]))
  have timeUnitBand := Record.optional_eq (hget "timeUnitBand" _ (by simp [fields]))
    fun x hx => readsBack_of_isFinite (h.timeUnitBand x hx)
  have timeUnitBandPosition := Record.optional_eq (hget "timeUnitBandPosition" _ (by simp [fields]))
    fun x hx => readsBack_of_isFinite (h.timeUnitBandPosition x hx)
  show ofJson? (rearrange order (encode c)) = some c
  rw [encode_eq, ofJson?, hr]
  simp [invalid, timeUnitBand, timeUnitBandPosition]

/-- The form of mark properties holds their numbers only. -/
theorem IsFinite.onlyFinite {c : MarkConfig} (h : c.IsFinite) : (encode c).OnlyFinite := by
  rw [encode_eq]
  refine Json.onlyFinite_ofFields ?_
  simp only [fields, List.forall_mem_cons, Option.forall_mem_map]
  refine ⟨fun m _ => nofun, ?_, ?_, nofun⟩
  · exact fun x hx => onlyFinite_float (h.timeUnitBand x hx)
  · exact fun x hx => onlyFinite_float (h.timeUnitBandPosition x hx)

/-- The form of mark properties is read as a whole, since all of them are asked for. -/
theorem fits (c : MarkConfig) : Json.Fits (.flat properties) (rearrange order (encode c)) := by
  rw [encode_eq]
  exact Json.fits_flat_ofFields (by simp [fields, properties])

end MarkConfig

/-! ## View sizes -/

namespace ViewConfig

/-- **The numbers of default view sizes are finite.** -/
structure IsFinite (c : ViewConfig) : Prop where
  /-- The width of views with a continuous scale is finite. -/
  continuousWidth : c.continuousWidth.isFinite = true
  /-- The height of views with a continuous scale is finite. -/
  continuousHeight : c.continuousHeight.isFinite = true
  /-- The width of views with a discrete scale is finite, if it is set. -/
  discreteWidth : ∀ s ∈ c.discreteWidth, s.IsFinite
  /-- The height of views with a discrete scale is finite, if it is set. -/
  discreteHeight : ∀ s ∈ c.discreteHeight, s.IsFinite
  /-- The default step is finite. -/
  step : c.step.isFinite = true

/-- The properties in the order they are written. -/
def fields (c : ViewConfig) : List (String × Option Json) :=
  [("continuousHeight", some (encode c.continuousHeight)),
    ("continuousWidth", some (encode c.continuousWidth)),
    ("discreteHeight", c.discreteHeight.map encode),
    ("discreteWidth", c.discreteWidth.map encode), ("step", some (encode c.step))]

/-- Default view sizes are written as a record of them. -/
theorem encode_eq (c : ViewConfig) : encode c = .ofFields c.fields := by
  show Json.record _ = Json.record _
  simp [fields, member, Function.comp_def]

/-- The default view sizes are finite. -/
theorem isFinite_default : IsFinite {} :=
  ⟨by decide, by decide, nofun, nofun, by decide⟩

/-- View sizes that were read are finite; where they were missing, the defaults are. -/
theorem isFinite_of_decode? {j : Json} {c : ViewConfig} (h : decode? j = some c) :
    c.IsFinite := by
  change ofJson? j = some c at h
  obtain ⟨r, -, h⟩ := Option.bind_eq_some_iff.mp h
  obtain ⟨continuousWidth, hcontinuousWidth, h⟩ := Option.bind_eq_some_iff.mp h
  obtain ⟨continuousHeight, hcontinuousHeight, h⟩ := Option.bind_eq_some_iff.mp h
  obtain ⟨discreteWidth, hdiscreteWidth, h⟩ := Option.bind_eq_some_iff.mp h
  obtain ⟨discreteHeight, hdiscreteHeight, h⟩ := Option.bind_eq_some_iff.mp h
  obtain ⟨step, hstep, h⟩ := Option.bind_eq_some_iff.mp h
  obtain rfl := Option.some.inj h
  exact ⟨isFinite_of_withDefault isFinite_default.continuousWidth hcontinuousWidth,
    isFinite_of_withDefault isFinite_default.continuousHeight hcontinuousHeight,
    Record.forall_of_optional SizeSpec.isFinite_of_decode? hdiscreteWidth,
    Record.forall_of_optional SizeSpec.isFinite_of_decode? hdiscreteHeight,
    isFinite_of_withDefault isFinite_default.step hstep⟩

/-- **Default view sizes are read back.** Those with a default are always written, so that it does
not come in between. -/
theorem IsFinite.readsBack {c : ViewConfig} (h : c.IsFinite) : ReadsBack order c := by
  obtain ⟨r, hr, hget, -⟩ := Record.exists_ofJson?_ofFields order c.fields
    (by simp [fields]) properties 0
  have continuousWidth := fun default => Record.withDefault_eq default
    (hget "continuousWidth" _ (by simp [fields])) (readsBack_of_isFinite h.continuousWidth)
  have continuousHeight := fun default => Record.withDefault_eq default
    (hget "continuousHeight" _ (by simp [fields])) (readsBack_of_isFinite h.continuousHeight)
  have discreteWidth := Record.optional_eq (hget "discreteWidth" _ (by simp [fields]))
    fun s hs => (h.discreteWidth s hs).readsBack
  have discreteHeight := Record.optional_eq (hget "discreteHeight" _ (by simp [fields]))
    fun s hs => (h.discreteHeight s hs).readsBack
  have step := fun default => Record.withDefault_eq default
    (hget "step" _ (by simp [fields])) (readsBack_of_isFinite h.step)
  show ofJson? (rearrange order (encode c)) = some c
  rw [encode_eq, ofJson?, hr]
  simp [continuousWidth, continuousHeight, discreteWidth, discreteHeight, step]

/-- The form of view sizes holds their numbers only. -/
theorem IsFinite.onlyFinite {c : ViewConfig} (h : c.IsFinite) : (encode c).OnlyFinite := by
  rw [encode_eq]
  refine Json.onlyFinite_ofFields ?_
  simp only [fields, List.forall_mem_cons, Option.forall_mem_map, Option.mem_some_iff, forall_eq']
  exact ⟨onlyFinite_float h.continuousHeight, onlyFinite_float h.continuousWidth,
    fun s hs => (h.discreteHeight s hs).onlyFinite, fun s hs => (h.discreteWidth s hs).onlyFinite,
    onlyFinite_float h.step, nofun⟩

/-- The form of view sizes is read as a whole. -/
theorem fits (c : ViewConfig) : Json.Fits (.flat properties) (rearrange order (encode c)) := by
  rw [encode_eq]
  exact Json.fits_flat_ofFields (by simp [fields, properties])

end ViewConfig

/-! ## Tables -/

namespace Table

variable {κ α : Type} [Keyword κ] [DecidableEq κ] [Schema α]

/-- Reads one member as an entry: its name as the key and its value as the value. -/
def insertMember? (t : Table κ α) (m : String × Json) : Option (Table κ α) := do
  let key ← Keyword.ofName? m.1
  let value ← decode? m.2
  some (t.insert key value)

/-- **Members that are entries of a table are read as these entries**, beside those there were. A
key that stands twice has the same value both times, so it does not matter which of them comes
last. -/
theorem foldlM_insertMember? {t : Table κ α} {members : List (String × Json)}
    (h : ∀ m ∈ members, ∃ k v, m.1 = Keyword.name k ∧ decode? m.2 = some v ∧ t.get? k = some v)
    (start : Table κ α) :
    ∃ t', members.foldlM insertMember? start = some t' ∧ ∀ k,
      ((∃ m ∈ members, m.1 = Keyword.name k) → t'.get? k = t.get? k) ∧
      ((∀ m ∈ members, m.1 ≠ Keyword.name k) → t'.get? k = start.get? k) := by
  induction members generalizing start with
  | nil => exact ⟨start, rfl, fun k => ⟨nofun, fun _ => rfl⟩⟩
  | cons m rest ih =>
    obtain ⟨key, value, hkey, hvalue, hentry⟩ := h m List.mem_cons_self
    obtain ⟨t', ht', hget⟩ :=
      ih (fun m hm => h m (List.mem_cons_of_mem _ hm)) (start.insert key value)
    refine ⟨t', ?_, fun k => ⟨?_, ?_⟩⟩
    · have hstep : insertMember? start m = some (start.insert key value) := by
        simp [insertMember?, hkey, hvalue]
      rw [List.foldlM_cons, hstep]
      exact ht'
    · rintro ⟨m', hm', hname⟩
      -- A later member of the same name takes the place of this one.
      by_cases hlater : ∃ m ∈ rest, m.1 = Keyword.name k
      · exact (hget k).1 hlater
      · have hm : m' = m := by
          rcases List.mem_cons.mp hm' with heq | hrest
          · exact heq
          · exact absurd ⟨m', hrest, hname⟩ hlater
        obtain rfl : key = k := Keyword.name_injective (by rw [← hkey, ← hm, hname])
        rw [(hget key).2 fun m hm h => hlater ⟨m, hm, h⟩, get?_insert_self, hentry]
    · intro hnone
      have hne : k ≠ key := by
        rintro rfl
        exact hnone m List.mem_cons_self hkey
      rw [(hget k).2 fun m hm => hnone m (List.mem_cons_of_mem _ hm),
        get?_insert_of_ne _ hne]

/-- **A table whose entries read back reads back**, in whatever order they stand. -/
theorem readsBack {t : Table κ α} (h : ∀ k v, t.get? k = some v → ReadsBack order v) :
    ReadsBack order t := by
  have hmem : ∀ m, m ∈ order.apply (Json.rearrangeMembers order
      (t.toList.map fun e => (Keyword.name e.1, encode e.2))) ↔
        ∃ k v, t.get? k = some v ∧ (Keyword.name k, rearrange order (encode v)) = m := by
    intro m
    rw [(order.perm _).mem_iff, Json.rearrangeMembers_eq_map, List.map_map, List.mem_map]
    simp only [Prod.exists, mem_toList, Function.comp_apply]
  have hentries : ∀ m ∈ order.apply (Json.rearrangeMembers order
      (t.toList.map fun e => (Keyword.name e.1, encode e.2))),
      ∃ k v, m.1 = Keyword.name k ∧ decode? m.2 = some v ∧ t.get? k = some v := by
    intro m hm
    obtain ⟨k, v, hv, rfl⟩ := (hmem m).mp hm
    exact ⟨k, v, rfl, h k v hv, hv⟩
  obtain ⟨t', ht', hget⟩ := foldlM_insertMember? hentries ∅
  obtain rfl : t' = t := by
    refine Table.ext (funext fun k => ?_)
    cases hk : t.get? k with
    | some v =>
      rw [(hget k).1 ⟨_, (hmem _).mpr ⟨k, v, hk, rfl⟩, rfl⟩, hk]
    | none =>
      refine (hget k).2 fun m hm hname => ?_
      obtain ⟨k', v, hv, rfl⟩ := (hmem m).mp hm
      rw [Keyword.name_injective hname, hk] at hv
      cases hv
  exact ht'

/-- Entries that a run over members adds were read. -/
theorem exists_decode?_of_foldlM {members : List (String × Json)} {start t : Table κ α}
    (h : members.foldlM insertMember? start = some t)
    (hstart : ∀ k v, start.get? k = some v → ∃ j, decode? j = some v) :
    ∀ k v, t.get? k = some v → ∃ j, decode? j = some v := by
  induction members generalizing start with
  | nil =>
    obtain rfl := Option.some.inj h
    exact hstart
  | cons m rest ih =>
    rw [List.foldlM_cons] at h
    obtain ⟨next, hnext, h⟩ := Option.bind_eq_some_iff.mp h
    obtain ⟨key, -, hnext⟩ := Option.bind_eq_some_iff.mp hnext
    obtain ⟨value, hvalue, hnext⟩ := Option.bind_eq_some_iff.mp hnext
    obtain rfl := Option.some.inj hnext
    refine ih h fun k v hv => ?_
    by_cases hk : k = key
    · subst hk
      rw [get?_insert_self] at hv
      exact ⟨m.2, Option.some.inj hv ▸ hvalue⟩
    · rw [get?_insert_of_ne _ hk] at hv
      exact hstart k v hv

/-- **Every entry of a table that was read** was read from the form of an entry. -/
theorem exists_decode?_of_decode? {j : Json} {t : Table κ α} (h : decode? j = some t) {k : κ}
    {v : α} (hv : t.get? k = some v) : ∃ j, decode? j = some v := by
  cases j with
  | object members => exact exists_decode?_of_foldlM h (fun k v => nofun) k v hv
  | _ => cases h

/-- The numbers of a table are those of its entries. -/
theorem onlyFinite {t : Table κ α} (h : ∀ k v, t.get? k = some v → (encode v).OnlyFinite) :
    (encode t).OnlyFinite := by
  intro n hn
  obtain ⟨m, hm, hn⟩ := Json.mem_numbers_object.mp hn
  obtain ⟨⟨k, v⟩, hmem, rfl⟩ := List.mem_map.mp hm
  exact h k v ((t.mem_toList k v).mp hmem) n hn

/-- A table is read as a whole if each entry is. -/
theorem fits {t : Table κ α} {entry : Json.Shape}
    (h : ∀ v : α, Json.Fits entry (rearrange order (encode v))) :
    Json.Fits (.table entry) (rearrange order (encode t)) := by
  show Json.Fits (.table entry) (.object (order.apply (Json.rearrangeMembers order _)))
  refine Json.fits_object fun m hm => ⟨entry, rfl, ?_⟩
  rw [(order.perm _).mem_iff, Json.rearrangeMembers_eq_map, List.map_map] at hm
  obtain ⟨⟨k, v⟩, -, rfl⟩ := List.mem_map.mp hm
  exact h v

end Table

/-! ## Configurations -/

namespace Config

/-- **The numbers of a configuration are finite.** -/
structure IsFinite (c : Config) : Prop where
  /-- The default view sizes are finite. -/
  view : c.view.IsFinite
  /-- The numbers for marks of every type are finite. -/
  mark : c.mark.IsFinite
  /-- The numbers for marks of each type are finite. -/
  marks : ∀ type m, c.marks.get? type = some m → m.IsFinite

/-- The properties in the order they are written. -/
def fields (c : Config) : List (String × Option Json) :=
  [("mark", some (encode c.mark)), ("marks", some (encode c.marks)),
    ("view", some (encode c.view))]

/-- A configuration is written as a record of its three parts. -/
theorem encode_eq (c : Config) : encode c = .ofFields c.fields := rfl

/-- The numbers of the default configuration are finite. -/
theorem isFinite_default : IsFinite {} where
  view := ViewConfig.isFinite_default
  mark := ⟨fun x hx => Option.some.inj hx ▸ by decide, nofun⟩
  marks := fun _ _ => nofun

/-- A configuration that was read has finite numbers. -/
theorem isFinite_of_decode? {j : Json} {c : Config} (h : decode? j = some c) : c.IsFinite := by
  change ofJson? j = some c at h
  obtain ⟨r, -, h⟩ := Option.bind_eq_some_iff.mp h
  obtain ⟨view, hview, h⟩ := Option.bind_eq_some_iff.mp h
  obtain ⟨mark, hmark, h⟩ := Option.bind_eq_some_iff.mp h
  obtain ⟨marks, hmarks, h⟩ := Option.bind_eq_some_iff.mp h
  obtain rfl := Option.some.inj h
  have hentries : ∀ {j : Json} {t : Table Mark MarkConfig}, decode? j = some t →
      ∀ type m, t.get? type = some m → m.IsFinite := by
    intro j t ht type m hm
    obtain ⟨j', hj'⟩ := Table.exists_decode?_of_decode? ht hm
    exact MarkConfig.isFinite_of_decode? hj'
  exact ⟨Record.of_withDefault isFinite_default.view ViewConfig.isFinite_of_decode? hview,
    Record.of_withDefault isFinite_default.mark MarkConfig.isFinite_of_decode? hmark,
    Record.of_withDefault isFinite_default.marks hentries hmarks⟩

/-- **A configuration is read back**: what is unset stays unset, since every part that has a default
is written. -/
theorem IsFinite.readsBack {c : Config} (h : c.IsFinite) : ReadsBack order c := by
  obtain ⟨r, hr, hget, -⟩ := Record.exists_ofJson?_ofFields order c.fields
    (by simp [fields]) properties 0
  have view := fun default => Record.withDefault_eq default
    (hget "view" _ (by simp [fields])) h.view.readsBack
  have mark := fun default => Record.withDefault_eq default
    (hget "mark" _ (by simp [fields])) h.mark.readsBack
  have marks := fun default => Record.withDefault_eq default
    (hget "marks" _ (by simp [fields])) (Table.readsBack fun type m hm => (h.marks type m hm).readsBack)
  show ofJson? (rearrange order (encode c)) = some c
  rw [encode_eq, ofJson?, hr]
  simp [view, mark, marks]

/-- The form of a configuration holds its numbers only. -/
theorem IsFinite.onlyFinite {c : Config} (h : c.IsFinite) : (encode c).OnlyFinite := by
  rw [encode_eq]
  refine Json.onlyFinite_ofFields ?_
  simp only [fields, List.forall_mem_cons, Option.mem_some_iff, forall_eq']
  exact ⟨h.mark.onlyFinite, Table.onlyFinite fun type m hm => (h.marks type m hm).onlyFinite,
    h.view.onlyFinite, nofun⟩

/-- **What is written of a configuration is read as a whole.** The shape of configurations asks for
all properties of its parts and for every type of mark. -/
theorem fits_shape (c : Config) : Json.Fits shape (rearrange order (encode c)) := by
  rw [encode_eq]
  refine Json.fits_ofFields fun name j hmem => ?_
  simp only [fields, List.mem_cons, Prod.mk.injEq, Option.some.injEq, List.not_mem_nil,
    or_false] at hmem
  rcases hmem with ⟨rfl, rfl⟩ | ⟨rfl, rfl⟩ | ⟨rfl, rfl⟩
  · exact ⟨_, rfl, c.mark.fits⟩
  · exact ⟨_, rfl, Table.fits fun m => m.fits⟩
  · exact ⟨_, rfl, c.view.fits⟩

/-- A configuration is read from a text exactly if the text, taken apart by the shape of
configurations, is the form of one. -/
theorem ofText_eq_ok_iff {text : String} {c : Config} :
    ofText text = .ok c ↔ ∃ j, Json.parsePart? shape text = some j ∧ decode? j = some c := by
  rw [← Option.bind_eq_some_iff]
  show ofText text = .ok c ↔ (Json.parsePart? shape text).bind ofJson? = some c
  unfold ofText
  cases (Json.parsePart? shape text).bind ofJson? with
  | some c' => simp
  | none => simp

/-- **A configuration that was read from a text is read from the text it is written as**, and from
every text that has the members of objects in another order, if each of its numbers is read back
from its own text.

The hypothesis is about the finite floats that the configuration writes, and about no other numbers.
That the first text may have been written by hand, with members that mean nothing, is why it does
not appear in the conclusion. -/
theorem ofText_text {text : String} {c : Config} (h : ofText text = .ok c)
    (hfloats : ∀ x : Float, .float x ∈ (encode c).numbers → x.isFinite = true →
      (Number.float x).ReadsBack) :
    ofText c.text = .ok c ∧
      ∀ order : MemberOrder, ofText (rearrange order (encode c)).compact = .ok c := by
  obtain ⟨j, -, hj⟩ := ofText_eq_ok_iff.mp h
  have hfinite := isFinite_of_decode? hj
  have hread : ∀ order : MemberOrder, ofText (rearrange order (encode c)).compact = .ok c := by
    intro order
    have hnumbers : ∀ n ∈ (rearrange order (encode c)).numbers, n.ReadsBack := by
      intro n hn
      rw [Json.mem_numbers_rearrange] at hn
      obtain ⟨x, rfl, hx⟩ := hfinite.onlyFinite n hn
      exact hfloats x hn hx
    exact ofText_eq_ok_iff.mpr ⟨_, Json.parsePart?_compact hnumbers c.fits_shape,
      hfinite.readsBack⟩
  refine ⟨?_, hread⟩
  have := hread .asWritten
  rwa [Json.rearrange_asWritten] at this

/-- An empty `mark`, a null property of bars, a width in steps and a height in pixels. -/
def barsAndStep : Json :=
  .object [("mark", .object []), ("marks", .object [("bar", .object [("invalid", .null)])]),
    ("view", .object [("discreteWidth", .object [("step", .ofInt 3)]),
      ("discreteHeight", .ofInt 12)])]

/-- Marks of no kind have a property but bars, which keep invalid data. The numbers are written as
floats, and the sizes of views with continuous scales are written too. -/
theorem ofText_text_barsAndStep :
    ∃ c : Config, ofText barsAndStep.compact = .ok c ∧ c.mark.invalid = none ∧
      (c.marks.get? .bar).bind MarkConfig.invalid = some .disabled ∧
      (encode c).numbers = [.float 200, .float 200, .float 12, .float 3, .float 20] ∧
      ofText c.text = .ok c := by
  obtain ⟨c, hc⟩ : ∃ c : Config, decode? barsAndStep = some c := ⟨_, rfl⟩
  have hintegers : ∀ n ∈ barsAndStep.numbers, n.ReadsBack := by
    show ∀ n ∈ [Number.integer 3, Number.integer 12], n.ReadsBack
    simp only [List.forall_mem_cons]
    exact ⟨rfl, rfl, nofun⟩
  have h : ofText barsAndStep.compact = .ok c :=
    ofText_eq_ok_iff.mpr ⟨_, Json.parsePart?_compact hintegers rfl, hc⟩
  obtain rfl := Option.some.inj hc
  refine ⟨_, h, rfl, rfl, rfl, (ofText_text h fun x hx _ => ?_).1⟩
  have hx : Number.float x ∈ [.float 200, .float 200, .float 12, .float 3, .float 20] := hx
  simp only [List.mem_cons, Number.float.injEq, List.not_mem_nil, or_false] at hx
  rcases hx with rfl | rfl | rfl | rfl | rfl <;> rfl

end Config

end ChartCompiler
