import ChartCompiler.Definition.Output
import ChartCompiler.Proofs.Json.Spelling

/-!
# The two renderings of a name

An output field is referred to by a path with its dots escaped, or in an expression by a quoted name
between brackets. Either one gives the name back, and so they agree.

* `Expression.access_injective` — two names are accessed differently in the same row.
* `unescapePath` — a path with every escaped dot turned back; `unescapePath_escapePath` says that
  this gives the name back.
* `FieldDef.renderings_agree` — **both renderings of a field definition stand for its output name**,
  and neither confuses two names.

Only dots are escaped in a path, not the backslashes of the name itself. The path can be read all
the same: in an escaped path no dot stands without a backslash in front of it, so an escape is
always the backslash right before a dot, however many come before that.
-/

namespace ChartCompiler

/-! ## Access expressions -/

/-- Two names are accessed differently in the same row: what stands between the brackets is the
quoted name, and quoted texts are different for different names. -/
theorem Expression.access_injective (row : String) : Function.Injective (access row) := by
  intro name name' h
  apply Json.quoted_injective
  apply String.toList_inj.mp
  have hchars := congrArg String.toList h
  simpa [access] using hchars

/-! ## Escaped paths -/

/-- A path with every escaped dot turned back, as characters. A backslash that no dot follows
stays. -/
def unescapeDots : List Char → List Char
  | [] => []
  | '\\' :: '.' :: rest => '.' :: unescapeDots rest
  | c :: rest => c :: unescapeDots rest

/-- **A path with every escaped dot turned back.** -/
def unescapePath (path : String) : String := String.ofList (unescapeDots path.toList)

/-- No escaped path begins with a dot. -/
theorem head?_escapeDots_ne (cs : List Char) : (escapeDots cs).head? ≠ some '.' := by
  cases cs with
  | nil => simp [escapeDots]
  | cons c rest =>
    rw [escapeDots]
    split
    · simp
    · next hc => simpa using hc

/-- A character that no dot follows is turned back to itself. -/
theorem unescapeDots_cons {c : Char} {rest : List Char} (h : rest.head? ≠ some '.') :
    unescapeDots (c :: rest) = c :: unescapeDots rest := by
  cases rest with
  | nil => simp [unescapeDots]
  | cons d rest =>
    have hd : d ≠ '.' := by simpa using h
    simp [unescapeDots, hd]

/-- **Escaped dots turn back into dots**, also behind a backslash of the name itself. -/
theorem unescapeDots_escapeDots (cs : List Char) : unescapeDots (escapeDots cs) = cs := by
  induction cs with
  | nil => rfl
  | cons c rest ih =>
    rw [escapeDots]
    split
    · next hc =>
      rw [unescapeDots, ih, hc]
    · rw [unescapeDots_cons (head?_escapeDots_ne rest), ih]

/-- **A path gives its name back.** -/
theorem unescapePath_escapePath (name : String) : unescapePath (escapePath name) = name := by
  simp [unescapePath, escapePath, unescapeDots_escapeDots]

/-- Two names have different paths, since each path gives its name back. -/
theorem escapePath_injective : Function.Injective escapePath :=
  Function.LeftInverse.injective unescapePath_escapePath

/-! ## Both renderings -/

namespace FieldDef

/-- **Both renderings of a field definition stand for its output name.** What an expression quotes spells
the name, without any control character, ends at its closing quote whatever follows, and is read back as
the name; the path is the name with its dots escaped. So two definitions have the same path exactly if
they have the same access expression, and exactly if they have the same name. -/
theorem renderings_agree (d : FieldDef) (form : OutputForm) :
    (∃ body : String,
      (∀ row, d.output { form with row := some row } = row ++ "[\"" ++ body ++ "\"]") ∧
      Json.Quoted.Spells body.toList (d.outputName form).toList ∧
      (∀ c ∈ body.toList, 0x20 ≤ c.toNat) ∧
      (∀ rest, Json.Quoted.read (body.toList ++ '"' :: rest) =
        some (some (d.outputName form).toList, rest)) ∧
      Json.parse? ("\"" ++ body ++ "\"") = some (.string (d.outputName form))) ∧
    unescapePath (d.output { form with row := none }) = d.outputName form ∧
    ∀ (d' : FieldDef) (form' : OutputForm),
      (d.output { form with row := none } = d'.output { form' with row := none } ↔
        d.outputName form = d'.outputName form') ∧
      ∀ row, d.output { form with row := some row } = d'.output { form' with row := some row } ↔
        d.output { form with row := none } = d'.output { form' with row := none } := by
  -- The name does not depend on the row that it is read from.
  have haccess : ∀ (d : FieldDef) (form : OutputForm) (row : String),
      d.output { form with row := some row } = Expression.access row (d.outputName form) :=
    fun _ _ _ => rfl
  have hpath : ∀ (d : FieldDef) (form : OutputForm),
      d.output { form with row := none } = escapePath (d.outputName form) := fun _ _ => rfl
  have hspells := Json.Quoted.spells_escapeAll (d.outputName form).toList
  refine ⟨⟨String.ofList (Json.Quoted.escapeAll (d.outputName form).toList), ?_, ?_, ?_, ?_, ?_⟩,
    ?_, ?_⟩
  · intro row
    rw [haccess, Expression.access, Json.quoted_eq]
    simp only [String.append_assoc]
    rfl
  · rw [String.toList_ofList]
    exact hspells
  · rw [String.toList_ofList]
    exact hspells.high
  · rw [String.toList_ofList]
    exact hspells.read_eq
  · rw [← Json.quoted_eq]
    exact Json.parse?_quoted _
  · rw [hpath]
    exact unescapePath_escapePath _
  · intro d' form'
    refine ⟨?_, fun row => ?_⟩
    · rw [hpath, hpath]
      exact escapePath_injective.eq_iff
    · rw [haccess, haccess, hpath, hpath]
      exact (Expression.access_injective row).eq_iff.trans escapePath_injective.eq_iff.symm

/-- A name with a backslash before a dot, and with a quote. -/
example :
    let d : FieldDef := { field := some "a\\.b\"" }
    d.output {} = "a\\\\.b\"" ∧ d.output { row := some "datum" } = "datum[\"a\\\\.b\\\"\"]" := by
  decide

end FieldDef

end ChartCompiler
