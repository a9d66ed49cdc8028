import ChartCompiler.Proofs.Json.Order

/-!
# Reading back what was written

* `ReadsBack` — **a value is read back from its written form**, in whatever order the members of
  objects stand.
* `Stable` — a type whose values all read back once they have been read. Floats are stable because
  only finite ones are read.
* `Json.ofFields` — a record as its properties, set or not; `Record.exists_ofJson?_ofFields` — **the
  properties that are set are found under their names**.
* `Record.optional_eq`, `Record.required_eq`, `Record.withDefault_eq` — what a property is read as.

A record is read back in the same way whatever it is a record of. It is written as the list of those
of its properties that are set; read as a record, this list gives every property under its name; and
then each property is read as it was written, because its own type reads back. What remains for each
kind of record is to list its properties.

A property that is null counts as missing. So a type must never write null for a value, or the value
would be lost in an optional property; this is `NeverNull`.
-/

namespace ChartCompiler

open Json (MemberOrder rearrange)

/-! ## Values that are read back -/

section readsBack

variable {α : Type} [Schema α]

/-- **A value is read back** from its written form, its members in any order. -/
def ReadsBack (order : MemberOrder) (a : α) : Prop := decode? (rearrange order (encode a)) = some a

/-- A type that never writes null, which stands for a missing property. -/
class NeverNull (α : Type) [Schema α] : Prop where
  /-- No value is written as null. -/
  encode_ne_null (a : α) : encode a ≠ .null

/-- **What was read once reads back.** There may be other values of the type that do not. -/
class Stable (order : MemberOrder) (α : Type) [Schema α] : Prop where
  /-- A value that was read from anything is read back from what it is written as. -/
  readsBack {j : Json} {a : α} (h : decode? j = some a) : ReadsBack order a

end readsBack

variable {order : MemberOrder}

/-- A finite float reads back. -/
theorem readsBack_of_isFinite {x : Float} (h : x.isFinite = true) : ReadsBack order x := by
  show (if x.isFinite then some x else none) = some x
  rw [if_pos h]

/-- Only finite floats are read. -/
theorem isFinite_of_decode? {j : Json} {x : Float} (h : decode? j = some x) :
    x.isFinite = true := by
  cases j with
  | number n =>
    change (if n.toFloat.isFinite then some n.toFloat else none) = some x at h
    obtain ⟨hfinite, hx⟩ := Option.ite_none_right_eq_some.mp h
    exact Option.some.inj hx ▸ hfinite
  | _ => cases h

/-- Floats are written as numbers. -/
instance : NeverNull Float := ⟨fun _ => nofun⟩

/-- Floats that were read are finite. -/
instance : Stable order Float := ⟨fun h => readsBack_of_isFinite (isFinite_of_decode? h)⟩

/-- Truth values are written as words of their own. -/
instance : NeverNull Bool := ⟨fun _ => nofun⟩

/-- Both truth values read back. -/
instance : Stable order Bool := ⟨fun _ => rfl⟩

/-- Texts are written as texts. -/
instance : NeverNull String := ⟨fun _ => nofun⟩

/-- Every text reads back. -/
instance : Stable order String := ⟨fun _ => rfl⟩

/-- Counts are written as numbers. -/
instance : NeverNull UInt32 := ⟨fun _ => nofun⟩

/-- A count always reads back, as it is within the range of counts. -/
theorem readsBack_count (n : UInt32) : ReadsBack order n := by
  have hlt : (n.toNat : Int) < UInt32.size := by exact_mod_cast n.toNat_lt
  show (if 0 ≤ (n.toNat : Int) ∧ (n.toNat : Int) < UInt32.size then
    some (UInt32.ofNat (n.toNat : Int).toNat) else none) = some n
  rw [if_pos ⟨Int.natCast_nonneg _, hlt⟩, Int.toNat_natCast, UInt32.ofNat_toNat]

/-- Every count reads back. -/
instance : Stable order UInt32 := ⟨fun _ => readsBack_count _⟩

/-- Ranges are written as arrays. -/
instance : NeverNull (Float × Float) := ⟨fun _ => nofun⟩

/-- A range reads back, its ends being finite. An array has no members, so its order stays. -/
instance : Stable order (Float × Float) where
  readsBack {j a} h := by
    cases j with
    | array items =>
      match items with
      | [lo, hi] =>
        obtain ⟨x, hx, h⟩ := Option.bind_eq_some_iff.mp h
        obtain ⟨y, hy, h⟩ := Option.bind_eq_some_iff.mp h
        obtain rfl := Option.some.inj h
        have hlo : ReadsBack order x := Stable.readsBack hx
        have hhi : ReadsBack order y := Stable.readsBack hy
        show ((decode? (rearrange order (encode x))).bind fun lo =>
          (decode? (rearrange order (encode y))).bind fun hi => some (lo, hi)) = some (x, y)
        rw [hlo, Option.bind_some, hhi, Option.bind_some]
    | _ => cases h

/-- Keywords are written as words. -/
instance {κ : Type} [Keyword κ] : NeverNull κ := ⟨fun _ => nofun⟩

/-- Every keyword reads back, since no two of one kind are written alike. -/
instance {κ : Type} [Keyword κ] : Stable order κ := ⟨fun _ => Keyword.ofName?_name _⟩

/-! ## Records -/

/-- **A record as its properties**, each with its form if it is set. Those that are not set are left
out. -/
def Json.ofFields (fields : List (String × Option Json)) : Json :=
  .record (fields.map fun f => f.2.map (f.1, ·))

namespace Record

/-- The properties that are set, under their names. -/
def setFields (fields : List (String × Option Json)) : List (String × Json) :=
  fields.filterMap fun f => f.2.map (f.1, ·)

/-- A property is set to a form if it is listed with it. -/
theorem mem_setFields_iff {fields : List (String × Option Json)} {name : String} {j : Json} :
    (name, j) ∈ setFields fields ↔ (name, some j) ∈ fields := by
  unfold setFields
  rw [List.mem_filterMap]
  constructor
  · rintro ⟨⟨n, v⟩, hmem, h⟩
    obtain ⟨j', hj, h⟩ := Option.map_eq_some_iff.mp h
    obtain ⟨rfl, rfl⟩ := Prod.mk.inj h
    exact hj ▸ hmem
  · intro hmem
    exact ⟨_, hmem, rfl⟩

/-- Properties with distinct names keep them apart when only some are set. -/
theorem nodup_setFields {fields : List (String × Option Json)}
    (hnodup : (fields.map Prod.fst).Nodup) : ((setFields fields).map Prod.fst).Nodup := by
  induction fields with
  | nil => exact List.nodup_nil
  | cons f rest ih =>
    obtain ⟨name, value⟩ := f
    rw [List.map_cons, List.nodup_cons] at hnodup
    cases value with
    | none => exact ih hnodup.2
    | some j =>
      refine List.nodup_cons.mpr ⟨fun hmem => hnodup.1 ?_, ih hnodup.2⟩
      obtain ⟨m, hm, rfl⟩ := List.mem_map.mp hmem
      exact List.mem_map.mpr ⟨_, mem_setFields_iff.mp hm, rfl⟩

/-- A property is found if it is set. -/
theorem lookup_setFields {fields : List (String × Option Json)}
    (hnodup : (fields.map Prod.fst).Nodup) (name : String) :
    (setFields fields).lookup name = (fields.lookup name).join := by
  refine Option.ext fun j => ?_
  rw [lookup_eq_some_iff_mem (nodup_setFields hnodup), mem_setFields_iff,
    Option.join_eq_some_iff, lookup_eq_some_iff_mem hnodup]

/-- A look-up among changed values finds the changed value. -/
theorem lookup_map_snd (f : Json → Json) (members : List (String × Json)) (name : String) :
    (members.map fun m => (m.1, f m.2)).lookup name = (members.lookup name).map f := by
  induction members with
  | nil => rfl
  | cons m rest ih =>
    obtain ⟨n, j⟩ := m
    rw [List.map_cons, List.lookup_cons, List.lookup_cons, ih]
    cases name == n <;> rfl

/-- Members with distinct names repeat none. -/
theorem repeats_eq_false {members : List (String × Json)} (hnodup : (members.map Prod.fst).Nodup)
    (name : String) : repeats members name = false := by
  unfold repeats
  have hlength : (members.filter fun m => m.1 == name).length =
      (members.map Prod.fst).count name := by
    rw [List.count_eq_length_filter, List.filter_map, List.length_map]
    rfl
  rw [hlength]
  have := List.nodup_iff_count_le_one.mp hnodup name
  simpa using this

/-- **The properties that are set are found under their names**, in whatever order they stand, and
no others are found. -/
theorem exists_ofJson?_ofFields (order : MemberOrder) (fields : List (String × Option Json))
    (hnodup : (fields.map Prod.fst).Nodup) (names : List String) (least : Nat) :
    ∃ r, ofJson? names least (rearrange order (.ofFields fields)) = some r ∧
      (∀ name value, (name, value) ∈ fields → r.get? name = value.map (rearrange order)) ∧
      ∀ name ∉ fields.map Prod.fst, r.get? name = none := by
  have hset : Json.ofFields fields = .object (setFields fields) := by
    unfold Json.ofFields Json.record setFields
    rw [List.filterMap_map]
    rfl
  -- Neither rearranging the values nor the new order of the members repeats a name.
  have hnames : ((Json.rearrangeMembers order (setFields fields)).map Prod.fst).Nodup := by
    rw [Json.rearrangeMembers_eq_map, List.map_map]
    exact nodup_setFields hnodup
  have hperm := order.perm (Json.rearrangeMembers order (setFields fields))
  have hnames' := (hperm.map Prod.fst).nodup_iff.mpr hnames
  have hget : ∀ name, (order.apply (Json.rearrangeMembers order (setFields fields))).lookup name =
      (fields.lookup name).join.map (rearrange order) := fun name => by
    rw [lookup_eq_of_perm hperm hnames', Json.rearrangeMembers_eq_map, lookup_map_snd,
      lookup_setFields hnodup]
  refine ⟨⟨order.apply (Json.rearrangeMembers order (setFields fields))⟩, ?_,
    fun name value hmem => ?_, fun name hname => ?_⟩
  · have hfine : isWellFormed names least
        (.object (order.apply (Json.rearrangeMembers order (setFields fields)))) = true := by
      simp [isWellFormed, repeats_eq_false hnames']
    rw [hset, rearrange, ofJson?, if_pos hfine]
    rfl
  · show (order.apply _).lookup name = _
    rw [hget, (lookup_eq_some_iff_mem hnodup).mpr hmem, Option.join_some]
  · have hnone : fields.lookup name = none := by
      refine Option.eq_none_iff_forall_not_mem.mpr fun value hvalue => hname ?_
      exact List.mem_map_of_mem ((lookup_eq_some_iff_mem hnodup).mp hvalue)
    show (order.apply _).lookup name = _
    rw [hget, hnone]
    rfl

/-! ## Properties -/

section properties

variable {α : Type} [Schema α] {r : Record} {name : String}

/-- **An optional property is read as it was written**, unset or with its value. -/
theorem optional_eq [NeverNull α] {v : Option α}
    (hget : r.get? name = (v.map encode).map (rearrange order))
    (hv : ∀ a ∈ v, ReadsBack order a) : r.optional name = some v := by
  unfold optional optionalBy
  rw [hget]
  cases v with
  | none => rfl
  | some a =>
    have hne : rearrange order (encode a) ≠ .null :=
      Json.rearrange_ne_null order (NeverNull.encode_ne_null a)
    rw [Option.map_some]
    split
    · rename_i h
      cases h
    · rename_i h
      exact absurd (Option.some.inj h) hne
    · rename_i j _ h
      obtain rfl := Option.some.inj h
      rw [hv a rfl]
      rfl

/-- A required property is read as it was written. -/
theorem required_eq {a : α} (hget : r.get? name = (some (encode a)).map (rearrange order))
    (ha : ReadsBack order a) : r.required name = some a := by
  rw [required, hget, Option.map_some, Option.bind_some, ha]

/-- A required property that is missing is refused. -/
theorem required_eq_none (hget : r.get? name = none) : r.required (α := α) name = none := by
  rw [required, hget, Option.bind_none]

/-- A property with a default is read as it was written: the default is not asked for, since such a
property is always set. -/
theorem withDefault_eq {a : α} (default : α)
    (hget : r.get? name = (some (encode a)).map (rearrange order)) (ha : ReadsBack order a) :
    r.withDefault name default = some a := by
  rw [withDefault, hget]
  exact ha

/-- What holds of all that is read holds of what an optional property was read as. -/
theorem forall_of_optional {P : α → Prop} (hread : ∀ {j a}, decode? j = some a → P a)
    {v : Option α} (h : r.optional name = some v) : ∀ a ∈ v, P a := by
  rintro a rfl
  unfold optional optionalBy at h
  split at h
  · cases h
  · cases h
  · obtain ⟨a', ha', h⟩ := Option.map_eq_some_iff.mp h
    obtain rfl := Option.some.inj h
    exact hread ha'

/-- What holds of all that is read, and of the default, holds of what a property with this default
was read as. -/
theorem of_withDefault {P : α → Prop} {a default : α} (hdefault : P default)
    (hread : ∀ {j a}, decode? j = some a → P a) (h : r.withDefault name default = some a) :
    P a := by
  unfold withDefault at h
  split at h
  · exact Option.some.inj h ▸ hdefault
  · exact hread h

/-- What an optional property was read as reads back. -/
theorem readsBack_of_optional [Stable order α] {v : Option α} (h : r.optional name = some v) :
    ∀ a ∈ v, ReadsBack order a :=
  forall_of_optional Stable.readsBack h

/-- What a required property was read as reads back. -/
theorem readsBack_of_required [Stable order α] {a : α} (h : r.required name = some a) :
    ReadsBack order a := by
  obtain ⟨j, -, hj⟩ := Option.bind_eq_some_iff.mp h
  exact Stable.readsBack hj

end properties

end Record

end ChartCompiler
