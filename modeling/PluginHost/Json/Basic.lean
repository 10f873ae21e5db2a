import PluginHost.Decimal.Shortest

/-!
# JSON documents

A document as it is written: members of an object in their order, repeated keys
included. A number is a whole number that fits 64 bits, with or without a sign,
or a binary64 value given by its bits.
-/

namespace PluginHost.Json

/-- A number: a whole number below 2^64, the negative of one that is at most
2^63 and not zero, or a finite binary64 value. -/
inductive Number
  | whole (n : Nat)
  | negative (n : Nat)
  | real (bits : UInt64)
  deriving DecidableEq, Repr, Inhabited

/-- A document. -/
inductive Value
  | null
  | bool (b : Bool)
  | number (n : Number)
  | string (s : String)
  | array (items : List Value)
  | object (members : List (String × Value))
  deriving Repr, Inhabited

/-- Reals are positional from 1e-5 up to below 1e16, keep `.0`, and have a
signed exponent outside. -/
def layout : Decimal.Layout :=
  { fewest := -5, most := 16, exponentMark := "e", plus := "+", zero := "0.0" }

def Number.text : Number → String
  | .whole n => toString n
  | .negative n => "-" ++ toString n
  | .real bits => layout.render bits

/-- The value of a member, if the object has it; the last of several counts. -/
def member? (key : String) : List (String × Value) → Option Value
  | [] => none
  | (k, v) :: rest =>
    match member? key rest with
    | some w => some w
    | none => if k = key then some v else none

end PluginHost.Json
