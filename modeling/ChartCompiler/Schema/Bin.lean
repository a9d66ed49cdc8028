import ChartCompiler.Bin
import ChartCompiler.Schema.Record

/-!
# JSON forms of bins

* `DecodeError` — why a definition is refused. Two causes have a text of their own: an unknown word
  for a binning, and a binning that is turned off where it should be left out.
* `Binning.decode` — a binning is `true`, the word `binned`, or a record of parameters, which get the
  default number of bins where neither number nor width is given.
* `Binning.ofProperty?` — as the property of a field, `false` and `null` say that it is not binned.
* The written form of a binning is its parameters, or the word `binned`.
-/

namespace ChartCompiler

/-- **Why a definition is refused.** -/
inductive DecodeError
  /-- What was read has none of the forms there are. -/
  | malformed
  /-- The binning is a word other than the one that is known. -/
  | unknownBinKeyword (word : String)
  /-- The binning is turned off. -/
  | disabledBin
deriving DecidableEq, Repr

namespace DecodeError

/-- The text of an error, for the causes that have one. -/
def message? : DecodeError → Option String
  | malformed => none
  | unknownBinKeyword word => some ("Unknown bin keyword '" ++ word ++ "'")
  | disabledBin => some "bin: false should be omitted instead"

end DecodeError

namespace BinParams

/-- The properties in their fixed order. -/
def properties : List String :=
  ["anchor", "base", "extent", "maxbins", "minstep", "nice", "step"]

/-- Reads parameters; an array must list all of them. -/
def ofJson? (j : Json) : Option BinParams := do
  let r ← Record.ofJson? properties 7 j
  let anchor ← r.optional "anchor"
  let base ← r.optional "base"
  let extent ← r.optional "extent"
  let maxbins ← r.optional "maxbins"
  let minstep ← r.optional "minstep"
  let nice ← r.optional "nice"
  let step ← r.optional "step"
  some { anchor, base, extent, maxbins, minstep, nice, step }

/-- Parameters are written as an object, in the order of their names. -/
instance : Schema BinParams where
  decode? := ofJson?
  encode p := .record [member "anchor" p.anchor, member "base" p.base,
    member "extent" p.extent, member "maxbins" p.maxbins, member "minstep" p.minstep,
    member "nice" p.nice, member "step" p.step]

end BinParams

namespace Binning

/-- The word of a binning that arrives with the data. -/
def givenWord : String := "binned"

/-- **Reads a binning**, or tells why it is refused. -/
def decode : Json → Except DecodeError Binning
  | .bool true => .ok (made .normalized)
  | .bool false => .error .disabledBin
  | .string word => if word = givenWord then .ok given else .error (.unknownBinKeyword word)
  | j =>
    match BinParams.ofJson? j with
    | some params => .ok (made params.normalize)
    | none => .error .malformed

/-- **Reads the binning of a field**, for which `false` and `null` say that there is none. -/
def decodeProperty : Json → Except DecodeError (Option Binning)
  | .null | .bool false => .ok none
  | j => (decode j).map some

/-- The binning of a field, where it is well formed. -/
def ofProperty? (j : Json) : Option (Option Binning) := (decodeProperty j).toOption

/-- A binning is read and written on its own; what it is refused for is left out. -/
instance : Schema Binning where
  decode? j := (decode j).toOption
  encode
    | made params => encode params
    | given => .string givenWord

end Binning

end ChartCompiler
