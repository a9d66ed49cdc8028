import ChartCompiler.Schema.Record
import Mathlib.Data.List.Nodup

/-!
# The order of members

What an object says does not depend on the order of its members, as long as no name stands twice.

* `Json.MemberOrder` — a way to order the members of an object; `Json.MemberOrder.asWritten` leaves
  them as they stand.
* `Json.rearrange` — **the value with the members of every object in another order**.
* `lookup_eq_of_perm` — a look-up among distinct names does not depend on the order.

An order may be any function that permutes the members it is given, so it can differ from object to
object. Rearranging works from the inside outwards: an object is ordered once its values are.
-/

namespace ChartCompiler

/-- Among distinct names a look-up finds whatever stands under the name. -/
theorem lookup_eq_some_iff_mem {β : Type} {entries : List (String × β)}
    (hnodup : (entries.map Prod.fst).Nodup) {name : String} {b : β} :
    entries.lookup name = some b ↔ (name, b) ∈ entries := by
  induction entries with
  | nil => simp
  | cons e rest ih =>
    obtain ⟨n, b'⟩ := e
    rw [List.map_cons, List.nodup_cons] at hnodup
    rw [List.lookup_cons, List.mem_cons, Prod.mk.injEq]
    by_cases h : name = n
    · subst h
      have hrest : (name, b) ∉ rest := fun hmem =>
        hnodup.1 (List.mem_map.mpr ⟨_, hmem, rfl⟩)
      simp [hrest, eq_comm]
    · have hne : (name == n) = false := by simpa using h
      simp [hne, h, ih hnodup.2]

/-- Among distinct names a look-up does not depend on the order, since it finds exactly what is
there. -/
theorem lookup_eq_of_perm {β : Type} {entries entries' : List (String × β)}
    (h : entries.Perm entries') (hnodup : (entries.map Prod.fst).Nodup) (name : String) :
    entries.lookup name = entries'.lookup name := by
  refine Option.ext fun b => ?_
  rw [lookup_eq_some_iff_mem hnodup, lookup_eq_some_iff_mem ((h.map Prod.fst).nodup_iff.mp hnodup),
    h.mem_iff]

namespace Json

/-- **A way to order the members of an object.** -/
structure MemberOrder where
  /-- The members in their new order. -/
  apply : List (String × Json) → List (String × Json)
  /-- Members are neither lost nor added. -/
  perm : ∀ members, (apply members).Perm members

/-- The members as they stand. -/
def MemberOrder.asWritten : MemberOrder := ⟨id, fun members => .refl members⟩

variable (order : MemberOrder)

mutual

/-- **The value with the members of every object in another order.** -/
def rearrange : Json → Json
  | .array items => .array (rearrangeItems items)
  | .object members => .object (order.apply (rearrangeMembers members))
  | .null => .null
  | .bool b => .bool b
  | .number n => .number n
  | .string s => .string s

/-- `rearrange` on the items of an array. -/
def rearrangeItems : List Json → List Json
  | [] => []
  | item :: rest => rearrange item :: rearrangeItems rest

/-- `rearrange` on the values of an object. -/
def rearrangeMembers : List (String × Json) → List (String × Json)
  | [] => []
  | (name, value) :: rest => (name, rearrange value) :: rearrangeMembers rest

end

/-- The items of an array are rearranged one by one. -/
theorem rearrangeItems_eq_map (items : List Json) :
    rearrangeItems order items = items.map (rearrange order) := by
  induction items with
  | nil => rfl
  | cons item rest ih => rw [rearrangeItems, ih, List.map_cons]

/-- The values of an object are rearranged one by one, and keep their names. -/
theorem rearrangeMembers_eq_map (members : List (String × Json)) :
    rearrangeMembers order members = members.map fun m => (m.1, rearrange order m.2) := by
  induction members with
  | nil => rfl
  | cons m rest ih => rw [rearrangeMembers, ih, List.map_cons]

mutual

/-- Members that stay as they stand leave the value as it is. -/
theorem rearrange_asWritten : (j : Json) → rearrange .asWritten j = j
  | .array items => congrArg Json.array (rearrangeItems_asWritten items)
  | .object members => congrArg Json.object (rearrangeMembers_asWritten members)
  | .null => rfl
  | .bool _ => rfl
  | .number _ => rfl
  | .string _ => rfl

/-- Items whose members stay as they stand are left as they are. -/
theorem rearrangeItems_asWritten : (items : List Json) → rearrangeItems .asWritten items = items
  | [] => rfl
  | item :: rest => by rw [rearrangeItems, rearrange_asWritten item, rearrangeItems_asWritten rest]

/-- Members whose values stay as they stand are left as they are. -/
theorem rearrangeMembers_asWritten :
    (members : List (String × Json)) → rearrangeMembers .asWritten members = members
  | [] => rfl
  | (name, value) :: rest => by
    rw [rearrangeMembers, rearrange_asWritten value, rearrangeMembers_asWritten rest]

end

/-- Only null is rearranged to null, so a missing property does not come about by rearranging. -/
theorem rearrange_ne_null {j : Json} (h : j ≠ .null) : rearrange order j ≠ .null := by
  cases j with
  | null => exact absurd rfl h
  | _ => exact nofun

end Json

end ChartCompiler
