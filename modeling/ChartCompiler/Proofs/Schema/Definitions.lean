import ChartCompiler.Proofs.Schema.Records
import ChartCompiler.Schema.Definition

/-!
# Channel definitions are read back

The four forms of a channel definition are tried in turn, and a value may have several of them. What
is written has the form it was read as, and none of the forms before.

* `BinParams.PartsReadBack` — the parameters of a binning that read back; normalizing keeps them.
* `DatumDef.readsBack_of_ofJson?`, `Literal.readsBack_of_ofDefinition?`, `SignalRef.ofJson?_encode`,
  `FieldDef.readsBack_of_ofJson?` — each form is read back.
* `ChannelDef.decode?_encode` — **a channel definition that was read is written as an object from
  which the very same definition is read**.

A definition that was read has no more than what reading leaves of it: numbers are finite, and a
binning has a number of bins or a width. Other definitions would not be read back, so each form is
shown to be stable rather than to read back in general. What keeps the forms apart is that each of
the first three requires a property which the others do not write.

Data and literals may be any JSON, and it is kept as it stands. So the order of members is left as
it is written, while it may change for configurations.
-/

namespace ChartCompiler

open Json (MemberOrder rearrange)

variable {order : MemberOrder}

/-! ## Binnings -/

namespace BinParams

/-- **The parameters of a binning read back.** Those that are no floats always do. -/
structure PartsReadBack (order : MemberOrder) (p : BinParams) : Prop where
  /-- The value that the bins are anchored at, if it is given. -/
  anchor : ∀ x ∈ p.anchor, ReadsBack order x
  /-- The base of the step sizes, if it is given. -/
  base : ∀ x ∈ p.base, ReadsBack order x
  /-- The range of the bins, if it is given. -/
  extent : ∀ e ∈ p.extent, ReadsBack order e
  /-- The least step, if it is given. -/
  minstep : ∀ x ∈ p.minstep, ReadsBack order x
  /-- The step, if it is given. -/
  step : ∀ x ∈ p.step, ReadsBack order x

/-- The properties in the order they are written. -/
def fields (p : BinParams) : List (String × Option Json) :=
  [("anchor", p.anchor.map encode), ("base", p.base.map encode), ("extent", p.extent.map encode),
    ("maxbins", p.maxbins.map encode), ("minstep", p.minstep.map encode),
    ("nice", p.nice.map encode), ("step", p.step.map encode)]

/-- The parameters of a binning are written as a record of them. -/
theorem encode_eq (p : BinParams) : encode p = .ofFields p.fields := by
  show Json.record _ = Json.record _
  simp [fields, member, Function.comp_def]

/-- Parameters that were read are read back, as their types are stable. -/
theorem partsReadBack_of_ofJson? {j : Json} {p : BinParams} (h : ofJson? j = some p) :
    p.PartsReadBack order := by
  obtain ⟨r, -, h⟩ := Option.bind_eq_some_iff.mp h
  obtain ⟨anchor, hanchor, h⟩ := Option.bind_eq_some_iff.mp h
  obtain ⟨base, hbase, h⟩ := Option.bind_eq_some_iff.mp h
  obtain ⟨extent, hextent, h⟩ := Option.bind_eq_some_iff.mp h
  obtain ⟨maxbins, -, h⟩ := Option.bind_eq_some_iff.mp h
  obtain ⟨minstep, hminstep, h⟩ := Option.bind_eq_some_iff.mp h
  obtain ⟨nice, -, h⟩ := Option.bind_eq_some_iff.mp h
  obtain ⟨step, hstep, h⟩ := Option.bind_eq_some_iff.mp h
  obtain rfl := Option.some.inj h
  exact ⟨Record.readsBack_of_optional hanchor, Record.readsBack_of_optional hbase,
    Record.readsBack_of_optional hextent, Record.readsBack_of_optional hminstep,
    Record.readsBack_of_optional hstep⟩

/-- The default number of bins changes nothing about the other parameters. -/
theorem PartsReadBack.normalize {p : BinParams} (h : p.PartsReadBack order) :
    p.normalize.PartsReadBack order := by
  unfold BinParams.normalize
  split
  · exact ⟨h.anchor, h.base, h.extent, h.minstep, h.step⟩
  · exact h

/-- Parameters that are normalized stay as they are. -/
theorem normalize_normalize (p : BinParams) : p.normalize.normalize = p.normalize := by
  unfold normalize
  by_cases h : (p.maxbins.isNone && p.step.isNone) = true
  · rw [if_pos h]
    rfl
  · rw [if_neg h, if_neg h]

/-- **Parameters are read back**, given or missing as they were. -/
theorem PartsReadBack.ofJson?_eq {p : BinParams} (h : p.PartsReadBack order) :
    ofJson? (rearrange order (encode p)) = some p := by
  obtain ⟨r, hr, hget, -⟩ := Record.exists_ofJson?_ofFields order p.fields
    (by simp [fields]) properties 7
  have anchor : r.optional "anchor" = some p.anchor :=
    Record.optional_eq (hget _ _ (by simp [fields])) h.anchor
  have base : r.optional "base" = some p.base :=
    Record.optional_eq (hget _ _ (by simp [fields])) h.base
  have extent : r.optional "extent" = some p.extent :=
    Record.optional_eq (hget _ _ (by simp [fields])) h.extent
  have maxbins : r.optional "maxbins" = some p.maxbins :=
    Record.optional_eq (hget _ _ (by simp [fields])) fun n _ => readsBack_count n
  have minstep : r.optional "minstep" = some p.minstep :=
    Record.optional_eq (hget _ _ (by simp [fields])) h.minstep
  have nice : r.optional "nice" = some p.nice :=
    Record.optional_eq (hget _ _ (by simp [fields])) fun _ _ => rfl
  have step : r.optional "step" = some p.step :=
    Record.optional_eq (hget _ _ (by simp [fields])) h.step
  rw [encode_eq, ofJson?, hr]
  simp [anchor, base, extent, maxbins, minstep, nice, step]

end BinParams

namespace Binning

/-- **What reading leaves of a binning**: parameters that read back, with a number or a width. A
binning that arrives with the data has none. -/
def IsRead (order : MemberOrder) : Binning → Prop
  | made p => p.PartsReadBack order ∧ p.normalize = p
  | given => True

/-- A binning that was read on its own is of this kind. Plain binning has no parameters but a number
of bins, and parameters are normalized. -/
theorem isRead_of_decode {j : Json} {b : Binning} (h : decode j = .ok b) : b.IsRead order := by
  unfold decode at h
  split at h
  · obtain rfl := Except.ok.inj h
    exact ⟨⟨nofun, nofun, nofun, nofun, nofun⟩, rfl⟩
  · cases h
  · split at h
    · obtain rfl := Except.ok.inj h
      trivial
    · cases h
  · split at h
    · rename_i p hp
      obtain rfl := Except.ok.inj h
      exact ⟨(BinParams.partsReadBack_of_ofJson? hp).normalize, p.normalize_normalize⟩
    · cases h

/-- A binning that was read as a property is of this kind, if there is one. -/
theorem isRead_of_decodeProperty {j : Json} {v : Option Binning} (h : decodeProperty j = .ok v) :
    ∀ b ∈ v, b.IsRead order := by
  rintro b rfl
  unfold decodeProperty at h
  split at h
  · cases h
  · cases h
  · cases hdecode : decode j with
    | error e => rw [hdecode] at h; cases h
    | ok b' =>
      rw [hdecode] at h
      obtain rfl : b' = b := Option.some.inj (Except.ok.inj h)
      exact isRead_of_decode hdecode

/-- **A binning is read back** as the property of a field. -/
theorem IsRead.decodeProperty_eq {b : Binning} (h : b.IsRead order) :
    decodeProperty (rearrange order (encode b)) = .ok (some b) := by
  cases b with
  | given => rfl
  | made p =>
    obtain ⟨hparts, hnormal⟩ := h
    have hread := hparts.ofJson?_eq
    obtain ⟨members, hmembers⟩ : ∃ members, rearrange order (encode p) = .object members := ⟨_, rfl⟩
    rw [hmembers] at hread
    have hdecode : decode (.object members) = .ok (made p.normalize) := by
      unfold decode
      dsimp only
      rw [hread]
    show decodeProperty (rearrange order (encode p)) = _
    rw [hmembers]
    show (decode (.object members)).map some = _
    rw [hdecode, hnormal]
    rfl

end Binning

/-! ## Fields -/

namespace FieldDef

/-- The properties in the order they are written. -/
def fields (d : FieldDef) : List (String × Option Json) :=
  [("aggregate", d.aggregate.map encode), ("band", d.band.map encode), ("bin", d.bin.map encode),
    ("field", d.field.map encode), ("timeUnit", d.timeUnit.map encode),
    ("type", d.type.map encode)]

/-- A field definition is written as a record of its properties. -/
theorem encode_eq (d : FieldDef) : encode d = .ofFields d.fields := by
  show Json.record _ = Json.record _
  simp [fields, member, Function.comp_def]

/-- The binning that a field was read with is one that reading leaves. -/
theorem isRead_of_binOf? {r : Record} {v : Option Binning} (h : binOf? r = some v) :
    ∀ b ∈ v, b.IsRead order := by
  unfold binOf? at h
  split at h
  · obtain rfl := Option.some.inj h
    exact nofun
  · rename_i j _
    unfold Binning.ofProperty? at h
    cases hdecode : Binning.decodeProperty j with
    | error e => rw [hdecode] at h; cases h
    | ok v' =>
      rw [hdecode] at h
      obtain rfl : v' = v := Option.some.inj h
      exact Binning.isRead_of_decodeProperty hdecode

/-- The binning of a field is read as it was written, or stays missing. -/
theorem binOf?_eq {r : Record} {v : Option Binning}
    (hget : r.get? "bin" = (v.map encode).map (rearrange order)) (hv : ∀ b ∈ v, b.IsRead order) :
    binOf? r = some v := by
  unfold binOf? Binning.ofProperty?
  rw [hget]
  cases v with
  | none => rfl
  | some b =>
    rw [Option.map_some, Option.map_some]
    dsimp only
    rw [(hv b rfl).decodeProperty_eq]
    rfl

/-- **A field definition that was read is read back**, property by property. -/
theorem readsBack_of_ofJson? {j : Json} {d : FieldDef} (h : ofJson? j = some d) :
    ofJson? (rearrange order (encode d)) = some d := by
  obtain ⟨r, -, h⟩ := Option.bind_eq_some_iff.mp h
  obtain ⟨field, hfield, h⟩ := Option.bind_eq_some_iff.mp h
  obtain ⟨type, htype, h⟩ := Option.bind_eq_some_iff.mp h
  obtain ⟨bin, hbin, h⟩ := Option.bind_eq_some_iff.mp h
  obtain ⟨timeUnit, htimeUnit, h⟩ := Option.bind_eq_some_iff.mp h
  obtain ⟨aggregate, haggregate, h⟩ := Option.bind_eq_some_iff.mp h
  obtain ⟨band, hband, h⟩ := Option.bind_eq_some_iff.mp h
  obtain rfl := Option.some.inj h
  rw [encode_eq]
  obtain ⟨r', hr', hget, -⟩ := Record.exists_ofJson?_ofFields order
    (fields { field, type, bin, timeUnit, aggregate, band }) (by simp [fields])
    properties 0
  have field' := Record.optional_eq (hget "field" _ (by simp [fields]))
    (Record.readsBack_of_optional hfield)
  have type' := Record.optional_eq (hget "type" _ (by simp [fields]))
    (Record.readsBack_of_optional htype)
  have bin' := binOf?_eq (hget "bin" _ (by simp [fields])) (isRead_of_binOf? hbin)
  have timeUnit' := Record.optional_eq (hget "timeUnit" _ (by simp [fields]))
    (Record.readsBack_of_optional htimeUnit)
  have aggregate' := Record.optional_eq (hget "aggregate" _ (by simp [fields]))
    (Record.readsBack_of_optional haggregate)
  have band' := Record.optional_eq (hget "band" _ (by simp [fields]))
    (Record.readsBack_of_optional hband)
  rw [ofJson?, hr', Option.bind_some, ofRecord?]
  simp [field', type', bin', timeUnit', aggregate', band']

end FieldDef

/-! ## Data, signals and literals -/

/-- Any JSON reads back as it stands. -/
instance : Stable .asWritten Json := ⟨fun _ => congrArg some (Json.rearrange_asWritten _)⟩

namespace DatumDef

/-- The properties in the order they are written. -/
def fields (d : DatumDef) : List (String × Option Json) :=
  [("band", d.band.map encode), ("datum", some (encode d.datum)), ("type", d.type.map encode)]

/-- A datum definition is written as a record of its properties. -/
theorem encode_eq (d : DatumDef) : encode d = .ofFields d.fields := by
  show Json.record _ = Json.record _
  simp [fields, member, Function.comp_def]

/-- **A datum definition that was read is read back.** -/
theorem readsBack_of_ofJson? {j : Json} {d : DatumDef} (h : ofJson? j = some d) :
    ofJson? (rearrange .asWritten (encode d)) = some d := by
  obtain ⟨r, -, h⟩ := Option.bind_eq_some_iff.mp h
  obtain ⟨datum, hdatum, h⟩ := Option.bind_eq_some_iff.mp h
  obtain ⟨type, htype, h⟩ := Option.bind_eq_some_iff.mp h
  obtain ⟨band, hband, h⟩ := Option.bind_eq_some_iff.mp h
  obtain rfl := Option.some.inj h
  rw [encode_eq]
  obtain ⟨r', hr', hget, -⟩ := Record.exists_ofJson?_ofFields .asWritten
    (fields { datum, type, band }) (by simp [fields]) properties 1
  have datum' := Record.required_eq (hget "datum" _ (by simp [fields]))
    (Record.readsBack_of_required hdatum)
  have type' := Record.optional_eq (hget "type" _ (by simp [fields]))
    (Record.readsBack_of_optional htype)
  have band' := Record.optional_eq (hget "band" _ (by simp [fields]))
    (Record.readsBack_of_optional hband)
  rw [ofJson?, hr']
  simp [datum', type', band']

/-- A record without a datum is no datum definition. -/
theorem ofJson?_eq_none (fields : List (String × Option Json))
    (hnodup : (fields.map Prod.fst).Nodup) (h : "datum" ∉ fields.map Prod.fst) :
    ofJson? (rearrange order (.ofFields fields)) = none := by
  obtain ⟨r, hr, -, hget⟩ := Record.exists_ofJson?_ofFields order fields hnodup properties 1
  rw [ofJson?, hr, Option.bind_eq_bind, Option.bind_some, Record.required_eq_none (hget _ h)]
  rfl

end DatumDef

namespace SignalRef

/-- **A signal is read back.** -/
theorem ofJson?_encode (s : SignalRef) : ofJson? (rearrange order (encode s)) = some s := by
  obtain ⟨r, hr, hget, -⟩ := Record.exists_ofJson?_ofFields order
    [("signal", some (encode s.signal))] (by simp) ["signal"] 1
  have signal := Record.required_eq (a := s.signal) (hget "signal" _ (by simp)) rfl
  change ofJson? (rearrange order (.ofFields [("signal", some (encode s.signal))])) = _
  rw [ofJson?, hr]
  simp [signal]

/-- A record without a signal is none. -/
theorem ofJson?_eq_none (fields : List (String × Option Json))
    (hnodup : (fields.map Prod.fst).Nodup) (h : "signal" ∉ fields.map Prod.fst) :
    ofJson? (rearrange order (.ofFields fields)) = none := by
  obtain ⟨r, hr, -, hget⟩ := Record.exists_ofJson?_ofFields order fields hnodup ["signal"] 1
  rw [ofJson?, hr, Option.bind_eq_bind, Option.bind_some, Record.required_eq_none (hget _ h)]
  rfl

end SignalRef

namespace Literal

/-- A literal that was read is read back: what is not read as a signal is written as it stands. -/
instance : Stable .asWritten Literal where
  readsBack {j l} h := by
    obtain rfl : ofJson j = l := Option.some.inj h
    show some (ofJson (rearrange .asWritten (encode (ofJson j)))) = _
    cases hsignal : SignalRef.ofJson? j with
    | some s =>
      have hj : ofJson j = signal s := by rw [ofJson, hsignal]
      have hread : SignalRef.ofJson? (rearrange .asWritten (encode (signal s))) = some s :=
        s.ofJson?_encode
      rw [hj, ofJson, hread]
    | none =>
      have hj : ofJson j = value j := by rw [ofJson, hsignal]
      rw [hj]
      show some (ofJson (rearrange .asWritten j)) = _
      rw [Json.rearrange_asWritten, hj]

/-- **A value definition that was read is read back.** -/
theorem readsBack_of_ofDefinition? {j : Json} {l : Literal} (h : ofDefinition? j = some l) :
    ofDefinition? (rearrange .asWritten l.toDefinition) = some l := by
  obtain ⟨r, -, h⟩ := Option.bind_eq_some_iff.mp h
  obtain ⟨r', hr', hget, -⟩ := Record.exists_ofJson?_ofFields .asWritten
    [("value", some (encode l))] (by simp) ["value"] 1
  have value := Record.required_eq (hget "value" _ (by simp)) (Record.readsBack_of_required h)
  change ofDefinition? (rearrange .asWritten (.ofFields [("value", some (encode l))])) = _
  rw [ofDefinition?, hr']
  exact value

/-- A record without a value is no value definition. -/
theorem ofDefinition?_eq_none (fields : List (String × Option Json))
    (hnodup : (fields.map Prod.fst).Nodup) (h : "value" ∉ fields.map Prod.fst) :
    ofDefinition? (rearrange order (.ofFields fields)) = none := by
  obtain ⟨r, hr, -, hget⟩ := Record.exists_ofJson?_ofFields order fields hnodup ["value"] 1
  rw [ofDefinition?, hr]
  exact Record.required_eq_none (hget _ h)

end Literal

/-! ## Channels -/

namespace ChannelDef

/-- **Which form a channel definition was read as.** -/
theorem ofJson?_cases {j : Json} {d : ChannelDef} (h : ofJson? j = some d) :
    (∃ x, DatumDef.ofJson? j = some x ∧ d = datum x) ∨
      (∃ x, Literal.ofDefinition? j = some x ∧ d = value x) ∨
      (∃ x, SignalRef.ofJson? j = some x ∧ d = signal x) ∨
      ∃ x, FieldDef.ofJson? j = some x ∧ d = field x := by
  unfold ofJson? at h
  cases hdatum : DatumDef.ofJson? j with
  | some x =>
    rw [hdatum] at h
    exact .inl ⟨x, rfl, (Option.some.inj h).symm⟩
  | none =>
    rw [hdatum] at h
    cases hvalue : Literal.ofDefinition? j with
    | some x =>
      rw [hvalue] at h
      exact .inr (.inl ⟨x, rfl, (Option.some.inj h).symm⟩)
    | none =>
      rw [hvalue] at h
      cases hsignal : SignalRef.ofJson? j with
      | some x =>
        rw [hsignal] at h
        exact .inr (.inr (.inl ⟨x, rfl, (Option.some.inj h).symm⟩))
      | none =>
        rw [hsignal] at h
        obtain ⟨x, hx, hd⟩ := Option.map_eq_some_iff.mp h
        exact .inr (.inr (.inr ⟨x, hx, hd.symm⟩))

/-- **What is written has none of the forms before its own**, and its own reads it back. -/
theorem readsBack_of_ofJson? {j : Json} {d : ChannelDef} (h : ofJson? j = some d) :
    ofJson? (rearrange .asWritten (encode d)) = some d := by
  rcases ofJson?_cases h with ⟨x, hx, rfl⟩ | ⟨l, hl, rfl⟩ | ⟨s, hs, rfl⟩ | ⟨x, hx, rfl⟩
  · show ofJson? (rearrange .asWritten (encode x)) = _
    rw [ofJson?, DatumDef.readsBack_of_ofJson? hx]
    rfl
  · -- A value is written under its own name only, so it has no datum.
    show ofJson? (rearrange .asWritten l.toDefinition) = _
    have hdatum : DatumDef.ofJson? (rearrange .asWritten l.toDefinition) = none :=
      DatumDef.ofJson?_eq_none [("value", some (encode l))] (by simp) (by simp)
    rw [ofJson?, hdatum, Literal.readsBack_of_ofDefinition? hl]
    rfl
  · show ofJson? (rearrange .asWritten (encode s)) = _
    have hdatum : DatumDef.ofJson? (rearrange .asWritten (encode s)) = none :=
      DatumDef.ofJson?_eq_none [("signal", some (encode s.signal))] (by simp) (by simp)
    have hvalue : Literal.ofDefinition? (rearrange .asWritten (encode s)) = none :=
      Literal.ofDefinition?_eq_none [("signal", some (encode s.signal))] (by simp)
        (by simp)
    rw [ofJson?, hdatum, hvalue, SignalRef.ofJson?_encode]
    rfl
  · show ofJson? (rearrange .asWritten (encode x)) = _
    have hread : FieldDef.ofJson? (rearrange .asWritten (encode x)) = some x :=
      FieldDef.readsBack_of_ofJson? hx
    have hnodup : (x.fields.map Prod.fst).Nodup := by simp [FieldDef.fields]
    rw [FieldDef.encode_eq] at hread ⊢
    rw [ofJson?, DatumDef.ofJson?_eq_none _ hnodup (by simp [FieldDef.fields]),
      Literal.ofDefinition?_eq_none _ hnodup (by simp [FieldDef.fields]),
      SignalRef.ofJson?_eq_none _ hnodup (by simp [FieldDef.fields]), hread]
    rfl

/-- **A channel definition that was read is written as an object from which the very same definition
is read**, so writing what was read a second time changes nothing. It may have been read from an
array. -/
theorem decode?_encode {j : Json} {d : ChannelDef} (h : decode? j = some d) :
    (∃ members, encode d = .object members) ∧ decode? (encode d) = some d ∧
      (decode? (encode d) : Option ChannelDef).map encode = some (encode d) := by
  have hread : decode? (encode d) = some d := by
    have := readsBack_of_ofJson? h
    rwa [Json.rearrange_asWritten] at this
  refine ⟨?_, hread, by rw [hread, Option.map_some]⟩
  cases d <;> exact ⟨_, rfl⟩

/-- The array form of a binned field, without its last properties: it becomes an object, and plain
binning becomes its parameters. -/
theorem decode?_encode_binnedRow :
    ∃ d : ChannelDef,
      decode? (.array [.string "price", .string "quantitative", .bool true, .null]) = some d ∧
      decode? (encode d) = some d ∧
      encode d = .object [("bin", .object [("maxbins", .ofInt 10)]), ("field", .string "price"),
        ("type", .string "quantitative")] := by
  have h : decode? (.array [.string "price", .string "quantitative", .bool true, .null]) =
      some (field { field := "price", type := some .quantitative, bin := some (.made .normalized) }) :=
    by rfl
  exact ⟨_, h, (decode?_encode h).2.1, by rfl⟩

end ChannelDef

end ChartCompiler
