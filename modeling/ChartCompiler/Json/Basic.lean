/-!
# JSON values

* `Number` — an integer or a floating-point number; the two stay apart, so `1` and `1.0` are written
  back as they were read.
* `Json` — a JSON value. The members of an object are kept in the order they are written, repeated
  names included; `Json.sorted` is the form with sorted distinct names, in which the last of several
  members with one name stays.
-/

namespace ChartCompiler

/-- **A JSON number.** -/
inductive Number
  | integer (value : Int)
  | float (value : Float)
deriving Inhabited

/-- **A JSON value.** -/
inductive Json
  | null
  | bool (value : Bool)
  | number (value : Number)
  | string (value : String)
  | array (items : List Json)
  | object (members : List (String × Json))
deriving Inhabited

namespace Json

/-- An integer. -/
abbrev ofInt (i : Int) : Json := .number (.integer i)

/-- A floating-point number. -/
abbrev ofFloat (x : Float) : Json := .number (.float x)

/-- Adds a member to members sorted by name, in place of one with the same name. -/
def insertMember (name : String) (value : Json) : List (String × Json) → List (String × Json)
  | [] => [(name, value)]
  | (n, v) :: rest =>
    if name < n then (name, value) :: (n, v) :: rest
    else if name = n then (name, value) :: rest
    else (n, v) :: insertMember name value rest

/-- Members sorted by name, the last of each name. -/
def sortMembers (members : List (String × Json)) : List (String × Json) :=
  members.foldl (fun sorted m => insertMember m.1 m.2 sorted) []

mutual

/-- **The value with the members of every object sorted by name**, the last of each name. -/
def sorted : Json → Json
  | .array items => .array (sortedItems items)
  | .object members => .object (sortMembers (sortedMembers members))
  | .null => .null
  | .bool b => .bool b
  | .number n => .number n
  | .string s => .string s

/-- `sorted` on the items of an array. -/
def sortedItems : List Json → List Json
  | [] => []
  | item :: rest => item.sorted :: sortedItems rest

/-- `sorted` on the values of an object. -/
def sortedMembers : List (String × Json) → List (String × Json)
  | [] => []
  | (name, value) :: rest => (name, value.sorted) :: sortedMembers rest

end

end Json

end ChartCompiler
