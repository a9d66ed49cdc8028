import ChartCompiler.Channel

/-!
# Notices

Compile decisions do not fail. What is worth telling the author is reported beside the result.

* `Notice` — what can be reported, with its `Notice.level` and the text `Notice.message`.
* `Reported α` — **a result with the notices of its computation**, in the order they arose. It is a
  monad: `Reported.bind` appends the notices of the second step to those of the first.
-/

namespace ChartCompiler

/-- How much a notice matters. -/
inductive Notice.Level
  /-- Something the author should look at. -/
  | warn
  /-- Something that explains a decision. -/
  | debug
deriving DecidableEq, Repr

/-- **Something worth reporting.** -/
inductive Notice
  /-- Two authored values of one property disagree; the first is kept. The owner may be unnamed. -/
  | conflict (property owner first second : String)
  /-- A field with bins of its own lacks the channel that ends its range. -/
  | missingRangeEnd (channel : Channel)
  /-- Children with independent scales do not share a size. -/
  | independentSizes (size view : String)
  /-- A size counted in steps has no scale to count them with. -/
  | missingScale (channel : Channel) (size view : String)
deriving DecidableEq, Repr

namespace Notice

/-- The level of a notice. -/
def level : Notice → Level
  | conflict .. => .warn
  | missingRangeEnd _ => .warn
  | independentSizes .. => .debug
  | missingScale .. => .debug

/-- **The text of a notice.** -/
def message : Notice → String
  | conflict property owner first second =>
    "Conflicting " ++ property ++ (if owner.isEmpty then "" else " of " ++ owner) ++ " (" ++ first
      ++ " and " ++ second ++ "). Using the first value (" ++ first ++ ")."
  | missingRangeEnd channel => "Channel " ++ channel.word ++ " is required for \"binned\" bin."
  | independentSizes size view =>
    "Cannot merge " ++ size ++ " of '" ++ view
      ++ "' across children with independent scales; leaving it unresolved."
  | missingScale channel size view =>
    "No " ++ channel.word ++ " scale for step-sized " ++ size ++ " of view '" ++ view ++ "'"

end Notice

/-! ## Results with notices -/

  /-- What was computed. -/
@[ext] structure Reported (α : Type) where
  value : α
  /-- What was reported, the earliest first. -/
  notices : List Notice := []

namespace Reported

variable {α β : Type}

/-- The second step on the result of the first, with the notices of both. -/
def bind (r : Reported α) (f : α → Reported β) : Reported β :=
  ⟨(f r.value).value, r.notices ++ (f r.value).notices⟩

/-- A value without notices, and one step after the other. -/
instance : Monad Reported where
  pure a := ⟨a, []⟩
  bind := bind

/-- Reports a notice. -/
def report (n : Notice) : Reported Unit := ⟨(), [n]⟩

/-- A value on its own is that value. -/
@[simp] theorem value_pure (a : α) : (pure a : Reported α).value = a := rfl

/-- A value on its own comes without notices. -/
@[simp] theorem notices_pure (a : α) : (pure a : Reported α).notices = [] := rfl

/-- The second step works on the value of the first. -/
@[simp] theorem value_bind (r : Reported α) (f : α → Reported β) :
    (r >>= f).value = (f r.value).value := rfl

/-- The notices of the second step come after those of the first. -/
@[simp] theorem notices_bind (r : Reported α) (f : α → Reported β) :
    (r >>= f).notices = r.notices ++ (f r.value).notices := rfl

/-- Reporting has no value of its own. -/
@[simp] theorem value_report (n : Notice) : (report n).value = () := rfl

/-- Reporting gives the one notice. -/
@[simp] theorem notices_report (n : Notice) : (report n).notices = [n] := rfl

/-- The order in which steps are grouped does not matter, as notices are appended. -/
instance : LawfulMonad Reported :=
  LawfulMonad.mk' Reported
    (fun _ => Reported.ext rfl (List.append_nil _))
    (fun _ _ => Reported.ext rfl (List.nil_append _))
    (fun _ _ _ => Reported.ext rfl (List.append_assoc ..))

end Reported

end ChartCompiler
