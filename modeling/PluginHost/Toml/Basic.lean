import PluginHost.Decimal.Shortest

/-!
# TOML values

A value as it is meant: how its number or string was written is forgotten, and
the members of a table stand in the order of their keys, each key once.

* `put` adds a member in its place.
-/

namespace PluginHost.Toml

/-- A value. A number with a fraction or an exponent is a binary64 value, given by
its bits, and a point in time is kept as it was written. -/
inductive Value
  | boolean (b : Bool)
  | integer (n : Int)
  | float (bits : UInt64)
  | string (s : String)
  | time (text : String)
  | array (items : List Value)
  | table (members : List (String × Value))
  deriving Repr, Inhabited

/-- A member put among others in the order of the keys, in the place of the one
that had its key. -/
def put {α : Type} (key : String) (a : α) : List (String × α) → List (String × α)
  | [] => [(key, a)]
  | (k, b) :: rest =>
    if key < k then (key, a) :: (k, b) :: rest
    else if key = k then (key, a) :: rest
    else (k, b) :: put key a rest

def inOrder {α : Type} (ms : List (String × α)) : List (String × α) :=
  ms.foldr (fun m done => put m.1 m.2 done) []

/-- What kind of value it is. -/
def Value.kind : Value → String
  | .boolean _ => "boolean"
  | .integer _ => "integer"
  | .float _ => "float"
  | .string _ => "string"
  | .time _ => "datetime"
  | .array _ => "array"
  | .table _ => "table"

/-- The least and the first too large integer that can be written. -/
def integerRange : Int × Int := (-(Nat.pow 2 127 : Nat), (Nat.pow 2 128 : Nat))

/-- The binary64 value is neither infinite nor no number at all. -/
def isFinite (bits : UInt64) : Bool :=
  bits.toNat / Nat.pow 2 52 % Nat.pow 2 11 ≠ 2047

/-- A float in diagnostics is always positional. -/
def floatLayout : Decimal.Layout :=
  { fewest := -400, most := 400, exponentMark := "", plus := "", zero := "0.0" }

def floatText (bits : UInt64) : String :=
  if isFinite bits then floatLayout.render bits
  else if bits.toNat % Nat.pow 2 52 ≠ 0 then "NaN"
  else if Decimal.isNegative bits then "-inf" else "inf"

end PluginHost.Toml
