import ChartCompiler.Proofs.Schema.Definitions

/-!
# Which form an object has

A channel definition is tried as a datum, a value, a signal and a field, and what fails as one of
them may still be read as a later one.

* `Record.Gives`, `Record.Has` — a record gives a property once, with a value of some form. In an
  object with distinct names, these are the properties that it names at all.
* `Record.Accepts` — what a record says of a property is acceptable, which it is if the record says
  nothing of it.
* `DatumDef.Fits`, `FieldDef.Fits` — **the properties of a datum or a field are well formed**.
* `ChannelDef.decode?_object` — **which form an object is read as**, and when it is refused. An
  object that has a datum is never read as a field: the properties that spoil it as a datum are
  properties of a field, too.

A property that stands twice is refused wherever it is read, so it counts neither as given nor as
acceptable. This is decided by the names alone, before any value is looked at; the conditions say
both, that a property is not repeated and what its one value is.

Each form is characterized on its own first, by the properties it reads. That the forms are tried in
turn comes last, in `ofJson?_eq_iff`, and is a matter of logic.
-/

namespace ChartCompiler

namespace Record

/-! ## Properties of a record -/

variable {r : Record} {name : String}

/-- **A record gives a property** once, in a certain form. -/
def Gives (r : Record) (name : String) (j : Json) : Prop :=
  (r.members.filter fun m => m.1 == name) = [(name, j)]

/-- A record has a property: it gives it once, in whatever form. -/
def Has (r : Record) (name : String) : Prop := ∃ j, r.Gives name j

/-- **What a record says of a property is acceptable**: it does not give it twice, and not in a form
that is unacceptable. It need not give it at all. -/
def Accepts (r : Record) (name : String) (ok : Json → Prop) : Prop :=
  repeats r.members name = false ∧ ∀ j, (name, j) ∈ r.members → ok j

/-- The members of a name, by what a search for it finds. -/
theorem head?_filter_members (members : List (String × Json)) (name : String) :
    (members.filter fun m => m.1 == name).head? = (members.lookup name).map (Prod.mk name) := by
  induction members with
  | nil => rfl
  | cons m rest ih =>
    obtain ⟨n, j⟩ := m
    rw [List.filter_cons, List.lookup_cons]
    by_cases h : n = name
    · subst h
      simp
    · have hne : (name == n) = false := by simpa using Ne.symm h
      simpa [h, hne] using ih

/-- A property is given once if it is found and not repeated. -/
theorem gives_iff {j : Json} :
    r.Gives name j ↔ repeats r.members name = false ∧ r.get? name = some j := by
  have hhead := head?_filter_members r.members name
  unfold Gives repeats get?
  cases hmembers : r.members.filter fun m => m.1 == name with
  | nil =>
    rw [hmembers] at hhead
    cases hlookup : r.members.lookup name with
    | none => simp
    | some _ => rw [hlookup] at hhead; cases hhead
  | cons m rest =>
    rw [hmembers] at hhead
    cases hlookup : r.members.lookup name with
    | none => rw [hlookup] at hhead; cases hhead
    | some found =>
      rw [hlookup, List.head?_cons, Option.map_some, Option.some.injEq] at hhead
      subst hhead
      cases rest <;> simp

/-- A property that is not repeated is found exactly if it is a member. -/
theorem mem_iff_get? {j : Json} (h : repeats r.members name = false) :
    (name, j) ∈ r.members ↔ r.get? name = some j := by
  have hmem : (name, j) ∈ r.members ↔ (name, j) ∈ r.members.filter fun m => m.1 == name := by simp
  constructor
  · intro hj
    rw [hmem] at hj
    -- There is at most one member of that name, so the one that is there is found.
    have hone : (r.members.filter fun m => m.1 == name).length ≤ 1 := by simpa [repeats] using h
    have hhead := head?_filter_members r.members name
    obtain ⟨m, hm⟩ := List.length_eq_one_iff.mp
      (Nat.le_antisymm hone (List.length_pos_of_mem hj))
    rw [hm, List.mem_singleton] at hj
    rw [hm, ← hj, List.head?_cons] at hhead
    obtain ⟨found, hfound, heq⟩ := Option.map_eq_some_iff.mp hhead.symm
    rw [get?, hfound, (Prod.mk.inj heq).2]
  · intro hj
    exact hmem.mpr (gives_iff.mpr ⟨h, hj⟩ ▸ List.mem_singleton_self _)

/-- **In an object with distinct names** a record has the properties that are named. -/
theorem has_iff_mem (h : (r.members.map Prod.fst).Nodup) :
    r.Has name ↔ name ∈ r.members.map Prod.fst := by
  have hsingle := repeats_eq_false h name
  simp [Has, gives_iff, hsingle, ← mem_iff_get? hsingle]

/-- What is acceptable depends on what is found of a property that is not repeated. -/
theorem accepts_iff {ok : Json → Prop} :
    r.Accepts name ok ↔ repeats r.members name = false ∧ ∀ j, r.get? name = some j → ok j :=
  and_congr_right fun h => forall_congr' fun _ => by rw [mem_iff_get? h]

/-! ## Reading properties -/

/-- The forms of a value that may be null, which are those of the value and null itself. -/
def IsNullOr (α : Type) [Schema α] (j : Json) : Prop := j = .null ∨ ∃ a : α, decode? j = some a

/-- A property that may be missing or null is read if its form is acceptable. -/
theorem exists_optional_iff {α : Type} [Schema α] :
    (∃ v : Option α, r.optional name = some v) ↔ ∀ j, r.get? name = some j → IsNullOr α j := by
  unfold optional optionalBy IsNullOr
  cases r.get? name with
  | none => simp
  | some j =>
    cases j with
    | null => simp
    | _ =>
      simp only [Option.map_eq_some_iff, Option.some.injEq, reduceCtorEq, false_or, forall_eq']
      exact ⟨fun ⟨_, a, ha, _⟩ => ⟨a, ha⟩, fun ⟨a, ha⟩ => ⟨_, a, ha, rfl⟩⟩

/-- A property that must be given is read if it is given in its form. Null is a form only where the
type of the property reads it. -/
theorem exists_required_iff {α : Type} [Schema α] :
    (∃ a : α, r.required name = some a) ↔ ∃ j, r.get? name = some j ∧ ∃ a : α, decode? j = some a := by
  unfold required
  constructor
  · rintro ⟨a, ha⟩
    obtain ⟨j, hj, ha⟩ := Option.bind_eq_some_iff.mp ha
    exact ⟨j, hj, a, ha⟩
  · rintro ⟨j, hj, a, ha⟩
    exact ⟨a, Option.bind_eq_some_iff.mpr ⟨j, hj, ha⟩⟩

/-- An object is a record if none of its properties is repeated. Members of other names may be. -/
theorem ofJson?_object_eq_some_iff {names : List String} {least : Nat}
    {members : List (String × Json)} :
    ofJson? names least (.object members) = some r ↔
      (∀ n ∈ names, repeats members n = false) ∧ r = ⟨members⟩ := by
  change (if (!names.any (repeats members)) = true then some (Record.mk members) else none) = _ ↔ _
  rw [Option.ite_none_right_eq_some, Bool.not_eq_true', List.any_eq_false, Option.some.injEq]
  simp only [Bool.not_eq_true, eq_comm (a := r)]

section congr

variable {members members' : List (String × Json)}

/-- What is found of a property depends on the members of its name. -/
theorem get?_congr (h : (members.filter fun m => m.1 == name) = members'.filter fun m => m.1 == name) :
    get? ⟨members⟩ name = get? ⟨members'⟩ name := by
  have hhead := head?_filter_members members name
  rw [h, head?_filter_members] at hhead
  exact (Option.map_injective (fun _ _ heq => (Prod.mk.inj heq).2) hhead).symm

/-- **What is read of an object depends on the members of the names that are read.** A record is refused
for both objects or for neither. -/
theorem ofJson?_bind_congr {α : Type} {names : List String} {least : Nat} {read : Record → Option α}
    (h : ∀ n ∈ names, (members.filter fun m => m.1 == n) = members'.filter fun m => m.1 == n)
    (hread : read ⟨members⟩ = read ⟨members'⟩) :
    (ofJson? names least (.object members)).bind read =
      (ofJson? names least (.object members')).bind read := by
  have hany : names.any (repeats members) = names.any (repeats members') := by
    rw [Bool.eq_iff_iff, List.any_eq_true, List.any_eq_true]
    exact exists_congr fun n => and_congr_right fun hn => by rw [repeats, h n hn, repeats]
  have hform : isWellFormed names least (.object members) =
      isWellFormed names least (.object members') := congrArg not hany
  rw [ofJson?, ofJson?, hform]
  split
  · exact hread
  · rfl

end congr

end Record

/-! ## Well-formed properties -/

/-- **The forms of a field's binning**: what says that there is none, plain binning, the word of
binning that arrives with the data, or parameters. -/
def Binning.IsSetting (j : Json) : Prop :=
  j = .null ∨ (∃ b, j = .bool b) ∨ j = .string givenWord ∨ ∃ p, BinParams.ofJson? j = some p

/-- What is neither a flag nor a word nor null is read as parameters. -/
theorem Binning.exists_toOption_map_iff (params : Option BinParams) :
    (∃ b, ((match params with
      | some p => .ok (made p.normalize)
      | none => .error DecodeError.malformed : Except DecodeError Binning).map some).toOption = some b) ↔
      ∃ p, params = some p := by
  cases params <;> simp [Except.map, Except.toOption]

/-- **The binning of a field is read** exactly if it has one of these forms. -/
theorem Binning.exists_ofProperty?_iff {j : Json} : (∃ b, ofProperty? j = some b) ↔ IsSetting j := by
  unfold IsSetting
  cases j with
  | null => exact iff_of_true ⟨none, rfl⟩ (.inl rfl)
  | bool b => cases b <;> exact iff_of_true ⟨_, rfl⟩ (.inr (.inl ⟨_, rfl⟩))
  | string word =>
    by_cases hword : word = givenWord
    · subst hword
      exact iff_of_true ⟨some given, rfl⟩ (.inr (.inr (.inl rfl)))
    · have hnone : ofProperty? (.string word) = none := by
        simp [ofProperty?, decodeProperty, decode, hword, Except.map, Except.toOption]
      have hparams : BinParams.ofJson? (.string word) = none := rfl
      simp [hnone, hparams, hword]
  | number n => exact (exists_toOption_map_iff (BinParams.ofJson? (.number n))).trans (by simp)
  | array items => exact (exists_toOption_map_iff (BinParams.ofJson? (.array items))).trans (by simp)
  | object members => exact (exists_toOption_map_iff (BinParams.ofJson? (.object members))).trans (by simp)

/-- The binning of a field may be missing. -/
theorem FieldDef.exists_binOf?_iff {r : Record} :
    (∃ b, binOf? r = some b) ↔ ∀ j, r.get? "bin" = some j → Binning.IsSetting j := by
  unfold binOf?
  cases r.get? "bin" with
  | none => simp
  | some j => simpa using Binning.exists_ofProperty?_iff

/-- **The properties beside a datum are well formed.** Each of them may be missing. -/
structure DatumDef.Fits (r : Record) : Prop where
  /-- The type is null or one of those that there are. -/
  type : r.Accepts "type" (Record.IsNullOr Measurement)
  /-- The band is null or a number. -/
  band : r.Accepts "band" (Record.IsNullOr Float)

/-- **The properties of a field are well formed.** Each of them may be missing, the name of the
field included. -/
structure FieldDef.Fits (r : Record) : Prop where
  /-- The name of the field is null or a text. -/
  field : r.Accepts "field" (Record.IsNullOr String)
  /-- The type is null or one of those that there are. -/
  type : r.Accepts "type" (Record.IsNullOr Measurement)
  /-- The binning has one of its forms. -/
  bin : r.Accepts "bin" Binning.IsSetting
  /-- The time unit is null or a text. -/
  timeUnit : r.Accepts "timeUnit" (Record.IsNullOr String)
  /-- The aggregate is null or one of those that there are. -/
  aggregate : r.Accepts "aggregate" (Record.IsNullOr Aggregate)
  /-- The band is null or a number. -/
  band : r.Accepts "band" (Record.IsNullOr Float)

/-! ## The four forms -/

variable {members : List (String × Json)}

/-- **An object is read as a datum** if it has one and the properties beside it are well formed. -/
theorem DatumDef.exists_ofJson?_iff :
    (∃ d, DatumDef.ofJson? (.object members) = some d) ↔
      Record.Has ⟨members⟩ "datum" ∧ DatumDef.Fits ⟨members⟩ := by
  have hread : (∃ d, DatumDef.ofJson? (.object members) = some d) ↔
      (∀ n ∈ properties, Record.repeats members n = false) ∧
        (∃ v : Json, Record.required ⟨members⟩ "datum" = some v) ∧
        (∃ v : Option Measurement, Record.optional ⟨members⟩ "type" = some v) ∧
        ∃ v : Option Float, Record.optional ⟨members⟩ "band" = some v := by
    simp only [DatumDef.ofJson?, Option.bind_eq_bind, Option.bind_eq_some_iff,
      Record.ofJson?_object_eq_some_iff]
    constructor
    · rintro ⟨d, r, ⟨hrepeats, rfl⟩, datum, hdatum, type, htype, band, hband, -⟩
      exact ⟨hrepeats, ⟨datum, hdatum⟩, ⟨type, htype⟩, ⟨band, hband⟩⟩
    · rintro ⟨hrepeats, ⟨datum, hdatum⟩, ⟨type, htype⟩, ⟨band, hband⟩⟩
      exact ⟨_, _, ⟨hrepeats, rfl⟩, datum, hdatum, type, htype, band, hband, rfl⟩
  rw [hread, Record.exists_required_iff, Record.exists_optional_iff, Record.exists_optional_iff]
  constructor
  · rintro ⟨hrepeats, ⟨j, hj, -⟩, htype, hband⟩
    exact ⟨⟨j, Record.gives_iff.mpr ⟨hrepeats _ (by decide), hj⟩⟩,
      ⟨Record.accepts_iff.mpr ⟨hrepeats _ (by decide), htype⟩,
        Record.accepts_iff.mpr ⟨hrepeats _ (by decide), hband⟩⟩⟩
  · rintro ⟨⟨j, hj⟩, hfits⟩
    obtain ⟨hdatum, hget⟩ := Record.gives_iff.mp hj
    obtain ⟨htype, htype'⟩ := Record.accepts_iff.mp hfits.type
    obtain ⟨hband, hband'⟩ := Record.accepts_iff.mp hfits.band
    exact ⟨by simp [properties, hdatum, htype, hband], ⟨j, hget, j, rfl⟩, htype', hband'⟩

/-- An object is no datum if it has none, or has malformed properties beside it. -/
theorem DatumDef.ofJson?_object_eq_none_iff :
    DatumDef.ofJson? (.object members) = none ↔
      ¬ (Record.Has ⟨members⟩ "datum" ∧ DatumDef.Fits ⟨members⟩) := by
  rw [← exists_ofJson?_iff, Option.eq_none_iff_forall_ne_some, not_exists]

/-- **An object is read as a value** if it has one, whatever it is. -/
theorem Literal.exists_ofDefinition?_iff :
    (∃ l, Literal.ofDefinition? (.object members) = some l) ↔ Record.Has ⟨members⟩ "value" := by
  simp only [Literal.ofDefinition?, Option.bind_eq_bind, Option.bind_eq_some_iff,
    Record.ofJson?_object_eq_some_iff]
  constructor
  · rintro ⟨l, r, ⟨hrepeats, rfl⟩, hl⟩
    obtain ⟨j, hj, -⟩ := Record.exists_required_iff.mp ⟨l, hl⟩
    exact ⟨j, Record.gives_iff.mpr ⟨hrepeats _ (by decide), hj⟩⟩
  · rintro ⟨j, hj⟩
    obtain ⟨hvalue, hget⟩ := Record.gives_iff.mp hj
    obtain ⟨l, hl⟩ := Record.exists_required_iff.mpr
      ⟨j, hget, (⟨Literal.ofJson j, rfl⟩ : ∃ l : Literal, decode? j = some l)⟩
    exact ⟨l, _, ⟨by simp [hvalue], rfl⟩, hl⟩

/-- An object is no value if it has none. -/
theorem Literal.ofDefinition?_object_eq_none_iff :
    Literal.ofDefinition? (.object members) = none ↔ ¬ Record.Has ⟨members⟩ "value" := by
  rw [← exists_ofDefinition?_iff, Option.eq_none_iff_forall_ne_some, not_exists]

/-- **An object is read as a signal** if it has one that is a text. -/
theorem SignalRef.ofJson?_object_eq_some_iff {s : SignalRef} :
    SignalRef.ofJson? (.object members) = some s ↔
      Record.Gives ⟨members⟩ "signal" (.string s.signal) := by
  have htext : ∀ {j : Json} {text : String}, decode? j = some text ↔ j = .string text := by
    intro j text
    cases j with
    | string word =>
      show some word = some text ↔ _
      simp
    | _ => exact iff_of_false nofun nofun
  simp only [SignalRef.ofJson?, Option.bind_eq_bind, Option.bind_eq_some_iff,
    Record.ofJson?_object_eq_some_iff, Record.required, htext, Record.gives_iff]
  constructor
  · rintro ⟨r, ⟨hrepeats, rfl⟩, text, ⟨j, hj, rfl⟩, hs⟩
    exact ⟨hrepeats _ (by decide), Option.some.inj hs ▸ hj⟩
  · rintro ⟨hsignal, hget⟩
    exact ⟨_, ⟨by simp [hsignal], rfl⟩, s.signal, ⟨_, hget, rfl⟩, rfl⟩

/-- An object is no signal if it names none by a text. -/
theorem SignalRef.ofJson?_object_eq_none_iff :
    SignalRef.ofJson? (.object members) = none ↔
      ∀ text, ¬ Record.Gives ⟨members⟩ "signal" (.string text) := by
  rw [Option.eq_none_iff_forall_ne_some]
  exact ⟨fun h text hgives => h ⟨text⟩ (ofJson?_object_eq_some_iff.mpr hgives),
    fun h s hs => h s.signal (ofJson?_object_eq_some_iff.mp hs)⟩

/-- **An object is read as a field** if the properties of a field are well formed in it. -/
theorem FieldDef.exists_ofJson?_iff :
    (∃ d, FieldDef.ofJson? (.object members) = some d) ↔ FieldDef.Fits ⟨members⟩ := by
  have hread : (∃ d, FieldDef.ofJson? (.object members) = some d) ↔
      (∀ n ∈ properties, Record.repeats members n = false) ∧
        (∃ v : Option String, Record.optional ⟨members⟩ "field" = some v) ∧
        (∃ v : Option Measurement, Record.optional ⟨members⟩ "type" = some v) ∧
        (∃ v, binOf? ⟨members⟩ = some v) ∧
        (∃ v : Option String, Record.optional ⟨members⟩ "timeUnit" = some v) ∧
        (∃ v : Option Aggregate, Record.optional ⟨members⟩ "aggregate" = some v) ∧
        ∃ v : Option Float, Record.optional ⟨members⟩ "band" = some v := by
    simp only [FieldDef.ofJson?, ofRecord?, Option.bind_eq_bind, Option.bind_eq_some_iff,
      Record.ofJson?_object_eq_some_iff]
    constructor
    · rintro ⟨d, r, ⟨hrepeats, rfl⟩, field, hfield, type, htype, bin, hbin, timeUnit, htimeUnit,
        aggregate, haggregate, band, hband, -⟩
      exact ⟨hrepeats, ⟨field, hfield⟩, ⟨type, htype⟩, ⟨bin, hbin⟩, ⟨timeUnit, htimeUnit⟩,
        ⟨aggregate, haggregate⟩, ⟨band, hband⟩⟩
    · rintro ⟨hrepeats, ⟨field, hfield⟩, ⟨type, htype⟩, ⟨bin, hbin⟩, ⟨timeUnit, htimeUnit⟩,
        ⟨aggregate, haggregate⟩, ⟨band, hband⟩⟩
      exact ⟨_, _, ⟨hrepeats, rfl⟩, field, hfield, type, htype, bin, hbin, timeUnit, htimeUnit,
        aggregate, haggregate, band, hband, rfl⟩
  rw [hread]
  simp only [Record.exists_optional_iff, exists_binOf?_iff]
  constructor
  · rintro ⟨hrepeats, hfield, htype, hbin, htimeUnit, haggregate, hband⟩
    have haccepts : ∀ {name : String} {ok : Json → Prop}, name ∈ properties →
        (∀ j, Record.get? ⟨members⟩ name = some j → ok j) → Record.Accepts ⟨members⟩ name ok :=
      fun hmem hok => Record.accepts_iff.mpr ⟨hrepeats _ hmem, hok⟩
    exact ⟨haccepts (by decide) hfield, haccepts (by decide) htype, haccepts (by decide) hbin,
      haccepts (by decide) htimeUnit, haccepts (by decide) haggregate, haccepts (by decide) hband⟩
  · rintro ⟨hfield, htype, hbin, htimeUnit, haggregate, hband⟩
    have hget : ∀ {name : String} {ok : Json → Prop}, Record.Accepts ⟨members⟩ name ok →
        ∀ j, Record.get? ⟨members⟩ name = some j → ok j := fun h => (Record.accepts_iff.mp h).2
    exact ⟨by simp [properties, hfield.1, htype.1, hbin.1, htimeUnit.1, haggregate.1, hband.1],
      hget hfield, hget htype, hget hbin, hget htimeUnit, hget haggregate, hget hband⟩

/-- An object is no field if one of the properties of a field is malformed in it. -/
theorem FieldDef.ofJson?_object_eq_none_iff :
    FieldDef.ofJson? (.object members) = none ↔ ¬ FieldDef.Fits ⟨members⟩ := by
  rw [← exists_ofJson?_iff, Option.eq_none_iff_forall_ne_some, not_exists]

/-- The properties of a field include those beside a datum, so what is well formed as the former is
so as the latter. -/
theorem FieldDef.Fits.datum {r : Record} (h : FieldDef.Fits r) : DatumDef.Fits r := ⟨h.type, h.band⟩

/-! ## The form that is taken -/

namespace ChannelDef

/-- The names that mean something in a channel definition, of whatever form. -/
def names : List String := ["datum", "value", "signal"] ++ FieldDef.properties

/-- **Only the members of these names count**: objects that agree in them are read alike. -/
theorem ofJson?_congr {members members' : List (String × Json)}
    (h : ∀ n ∈ names, (members.filter fun m => m.1 == n) = members'.filter fun m => m.1 == n) :
    ofJson? (.object members) = ofJson? (.object members') := by
  have hget : ∀ n ∈ names, Record.get? ⟨members⟩ n = Record.get? ⟨members'⟩ n :=
    fun n hn => Record.get?_congr (h n hn)
  have hrecord : ∀ {α : Type} {ns : List String} {least : Nat} {read : Record → Option α},
      (∀ n ∈ ns, n ∈ names) → read ⟨members⟩ = read ⟨members'⟩ →
      (Record.ofJson? ns least (.object members)).bind read =
        (Record.ofJson? ns least (.object members')).bind read :=
    fun hns hread => Record.ofJson?_bind_congr (fun n hn => h n (hns n hn)) hread
  have hdatum : DatumDef.ofJson? (.object members) = DatumDef.ofJson? (.object members') :=
    hrecord (by decide) (by
      simp only [Record.required, Record.optional, Record.optionalBy, hget _ (by decide : "datum" ∈ names),
        hget _ (by decide : "type" ∈ names), hget _ (by decide : "band" ∈ names)])
  have hvalue : Literal.ofDefinition? (.object members) = Literal.ofDefinition? (.object members') :=
    hrecord (by decide) (by simp only [Record.required, hget _ (by decide : "value" ∈ names)])
  have hsignal : SignalRef.ofJson? (.object members) = SignalRef.ofJson? (.object members') :=
    hrecord (by decide) (by simp only [Record.required, hget _ (by decide : "signal" ∈ names)])
  have hfield : FieldDef.ofJson? (.object members) = FieldDef.ofJson? (.object members') :=
    hrecord (by decide) (by
      simp only [FieldDef.ofRecord?, FieldDef.binOf?, Record.optional, Record.optionalBy,
        hget _ (by decide : "field" ∈ names), hget _ (by decide : "type" ∈ names),
        hget _ (by decide : "bin" ∈ names), hget _ (by decide : "timeUnit" ∈ names),
        hget _ (by decide : "aggregate" ∈ names), hget _ (by decide : "band" ∈ names)])
  rw [ofJson?, hdatum, hvalue, hsignal, hfield, ofJson?]

/-- Each form is taken exactly if it is the first that can be read. -/
theorem ofJson?_eq_iff {j : Json} :
    (∀ d, ofJson? j = some (datum d) ↔ DatumDef.ofJson? j = some d) ∧
    (∀ l, ofJson? j = some (value l) ↔
      DatumDef.ofJson? j = none ∧ Literal.ofDefinition? j = some l) ∧
    (∀ s, ofJson? j = some (signal s) ↔
      DatumDef.ofJson? j = none ∧ Literal.ofDefinition? j = none ∧ SignalRef.ofJson? j = some s) ∧
    (∀ d, ofJson? j = some (field d) ↔
      DatumDef.ofJson? j = none ∧ Literal.ofDefinition? j = none ∧ SignalRef.ofJson? j = none ∧
        FieldDef.ofJson? j = some d) ∧
    (ofJson? j = none ↔
      DatumDef.ofJson? j = none ∧ Literal.ofDefinition? j = none ∧ SignalRef.ofJson? j = none ∧
        FieldDef.ofJson? j = none) := by
  unfold ofJson?
  cases DatumDef.ofJson? j with
  | some d => simp
  | none =>
    cases Literal.ofDefinition? j with
    | some l => simp
    | none =>
      cases SignalRef.ofJson? j with
      | some s => simp
      | none => cases FieldDef.ofJson? j <;> simp

/-- **Which form an object is read as.** It is a datum if it has one and the properties beside it are well
formed, else a value if it has one, else the signal if it names one; it is a field only if it has no datum
at all, well formed or not, none of the other two, and the properties of a field are well formed. All other
objects are refused. Members of other names do not matter, and an object with distinct names has what it
names. -/
theorem decode?_object (o : Record) :
    ((∃ d, decode? (.object o.members) = some (ChannelDef.datum d)) ↔
      o.Has "datum" ∧ DatumDef.Fits o) ∧
    ((∃ l, decode? (.object o.members) = some (ChannelDef.value l)) ↔
      ¬ (o.Has "datum" ∧ DatumDef.Fits o) ∧ o.Has "value") ∧
    (∀ s, decode? (.object o.members) = some (ChannelDef.signal s) ↔
      ¬ (o.Has "datum" ∧ DatumDef.Fits o) ∧ ¬ o.Has "value" ∧
        o.Gives "signal" (.string s.signal)) ∧
    ((∃ d, decode? (.object o.members) = some (ChannelDef.field d)) ↔
      ¬ o.Has "datum" ∧ ¬ o.Has "value" ∧
        (∀ text, ¬ o.Gives "signal" (.string text)) ∧ FieldDef.Fits o) ∧
    ((decode? (.object o.members) : Option ChannelDef) = none ↔
      (o.Has "datum" → ¬ DatumDef.Fits o) ∧ (¬ o.Has "datum" → ¬ FieldDef.Fits o) ∧
        ¬ o.Has "value" ∧ ∀ text, ¬ o.Gives "signal" (.string text)) ∧
    (decode? (.object (o.members.filter fun m => names.contains m.1)) : Option ChannelDef) =
      decode? (.object o.members) ∧
    ((o.members.map Prod.fst).Nodup → ∀ name, o.Has name ↔ name ∈ o.members.map Prod.fst) := by
  have hdatum := @DatumDef.ofJson?_object_eq_none_iff o.members
  have hvalue := @Literal.ofDefinition?_object_eq_none_iff o.members
  have hsignal := @SignalRef.ofJson?_object_eq_none_iff o.members
  have hfield := @FieldDef.ofJson?_object_eq_none_iff o.members
  obtain ⟨isDatum, isValue, isSignal, isField, isNone⟩ := ofJson?_eq_iff (j := .object o.members)
  refine ⟨?datum, ?value, ?signal, ?field, ?none, ?others, ?distinct⟩
  case datum =>
    rw [← DatumDef.exists_ofJson?_iff]
    exact exists_congr isDatum
  case value =>
    rw [← hdatum, ← Literal.exists_ofDefinition?_iff, ← exists_and_left]
    exact exists_congr isValue
  case signal =>
    intro s
    rw [← hdatum, ← hvalue, ← SignalRef.ofJson?_object_eq_some_iff]
    exact isSignal s
  case field =>
    -- A malformed datum keeps an object from being a field, so only its absence is left to say.
    have hread : (∃ d, decode? (.object o.members) = some (ChannelDef.field d)) ↔
        ¬ (o.Has "datum" ∧ DatumDef.Fits o) ∧ ¬ o.Has "value" ∧
          (∀ text, ¬ o.Gives "signal" (.string text)) ∧ FieldDef.Fits o := by
      rw [← hdatum, ← hvalue, ← hsignal, ← FieldDef.exists_ofJson?_iff, ← exists_and_left,
        ← exists_and_left, ← exists_and_left]
      exact exists_congr isField
    rw [hread]
    constructor
    · rintro ⟨hnotDatum, hnotValue, hnotSignal, hfits⟩
      exact ⟨fun hhas => hnotDatum ⟨hhas, hfits.datum⟩, hnotValue, hnotSignal, hfits⟩
    · rintro ⟨hnotDatum, rest⟩
      exact ⟨fun h => hnotDatum h.1, rest⟩
  case none =>
    refine isNone.trans ?_
    rw [hdatum, hvalue, hsignal, hfield]
    constructor
    · rintro ⟨hnotDatum, hnotValue, hnotSignal, hnotFits⟩
      exact ⟨fun hhas hfits => hnotDatum ⟨hhas, hfits⟩, fun _ => hnotFits, hnotValue, hnotSignal⟩
    · rintro ⟨hspoiled, hnotFits, hnotValue, hnotSignal⟩
      refine ⟨fun h => hspoiled h.1 h.2, hnotValue, hnotSignal, fun hfits => ?_⟩
      -- What spoils an object as a datum spoils it as a field.
      by_cases hhas : o.Has "datum"
      · exact hspoiled hhas hfits.datum
      · exact hnotFits hhas hfits
  case others =>
    refine ofJson?_congr fun n hn => ?_
    rw [List.filter_filter]
    refine List.filter_congr fun m _ => ?_
    by_cases hm : m.1 = n
    · subst hm
      simpa using hn
    · simp [hm]
  case distinct => exact fun h name => Record.has_iff_mem h

/-- An object whose datum has a malformed type is no field, although a field may lack everything. With
a signal beside it, it is that. -/
theorem decode?_object_spoiledDatum :
    ([("datum", .ofInt 1), ("type", .string "bad")].map (Prod.fst (β := Json))).Nodup ∧
    Record.Has ⟨[("datum", .ofInt 1), ("type", .string "bad")]⟩ "datum" ∧
    (∀ d, decode? (.object [("datum", .ofInt 1), ("type", .string "bad")]) ≠
      some (ChannelDef.field d)) ∧
    decode? (.object [("datum", .ofInt 1), ("type", .string "bad"), ("signal", .string "s")]) =
      some (ChannelDef.signal ⟨"s"⟩) := by
  have hdistinct : ([("datum", .ofInt 1), ("type", .string "bad")].map
      (Prod.fst (β := Json))).Nodup := by decide
  have hspoiled := decode?_object ⟨[("datum", .ofInt 1), ("type", .string "bad")]⟩
  have hhas := (hspoiled.2.2.2.2.2.2 hdistinct "datum").mpr (by decide)
  refine ⟨hdistinct, hhas, fun d hd => (hspoiled.2.2.2.1.mp ⟨d, hd⟩).1 hhas, ?_⟩
  refine ((decode?_object ⟨[("datum", .ofInt 1), ("type", .string "bad"),
    ("signal", .string "s")]⟩).2.2.1 ⟨"s"⟩).mpr ⟨fun h => ?_, ?_, rfl⟩
  · rcases h.2.type.2 (.string "bad") (by simp) with hnull | ⟨type, htype⟩
    · cases hnull
    · cases htype
  · rintro ⟨j, hj⟩
    cases hj

end ChannelDef

end ChartCompiler
