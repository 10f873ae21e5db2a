/-!
# Shortest decimals

A finite binary64 value is `m * 2^q` for whole `m` and `q`. A decimal reads back
as that value when it lies in the interval of the reals that round to it. The
value is written with the fewest digits that some decimal in the interval has,
and among those decimals as the one nearest to the value.

For each number of digits only two decimals have to be tried, the value's two
neighbours on the grid of decimals with that many digits: if the grid has a
point in the interval, one of the two is such a point.

* `Binary64.ofBits` takes a value apart.
* `shortest` gives the digits and the place of the last one.
* `Layout` says how digits are laid out as text.
-/

namespace PluginHost.Decimal

/-- A finite value without its sign: `mantissa * 2^exponent`. `narrow` says that
the next smaller value is only half as far away as the next larger. -/
structure Binary64 where
  mantissa : Nat
  exponent : Int
  narrow : Bool
  deriving DecidableEq, Repr

/-- The parts of a finite value. -/
def Binary64.ofBits (bits : UInt64) : Binary64 :=
  let fraction : Nat := bits.toNat % Nat.pow 2 52
  let biased : Nat := bits.toNat / Nat.pow 2 52 % Nat.pow 2 11
  if biased = 0 then ⟨fraction, -1074, false⟩
  else ⟨Nat.pow 2 52 + fraction, (biased : Int) - 1075, fraction == 0 && decide (1 < biased)⟩

/-- The value is negative, or the negative zero. -/
def isNegative (bits : UInt64) : Bool :=
  Nat.pow 2 63 ≤ bits.toNat

/-- A positive ratio of whole numbers. -/
structure Ratio where
  num : Nat
  den : Nat
  deriving DecidableEq, Repr

/-- `n * base^e` as a ratio. -/
def Ratio.scaled (n base : Nat) (e : Int) : Ratio :=
  match e with
  | .ofNat k => ⟨n * base.pow k, 1⟩
  | .negSucc k => ⟨n, base.pow (k + 1)⟩

/-- `a ≤ b`. -/
def Ratio.le (a b : Ratio) : Bool :=
  a.num * b.den ≤ b.num * a.den

/-- `a < b`. -/
def Ratio.lt (a b : Ratio) : Bool :=
  a.num * b.den < b.num * a.den

/-- The decimal `d * 10^k`. -/
def point (d : Nat) (k : Int) : Ratio :=
  Ratio.scaled d 10 k

/-- The value of `b`, in quarters of its last binary place moved by `quarters`. -/
def Binary64.near (b : Binary64) (quarters : Int) : Ratio :=
  Ratio.scaled (4 * b.mantissa + quarters).toNat 2 (b.exponent - 2)

/-- The decimal lies among the reals that round to `b`; the ends count when the
mantissa is even. -/
def Binary64.admits (b : Binary64) (r : Ratio) : Bool :=
  let low := b.near (if b.narrow then -1 else -2)
  let high := b.near 2
  if b.mantissa % 2 = 0 then low.le r && r.le high else low.lt r && r.lt high

/-- The number of decimal digits of `n`. -/
def digitCount (n : Nat) : Nat :=
  (Nat.toDigits 10 n).length

/-- The place of the first digit of a positive ratio: the largest `e` with
`10^e ≤ r`. -/
def leadingPlace (r : Ratio) : Int :=
  let e : Int := (digitCount r.num : Int) - digitCount r.den
  if (point 1 e).le r then e else e - 1

/-- The whole part of `r / 10^k`. -/
def Ratio.floorAt (r : Ratio) (k : Int) : Nat :=
  match k with
  | .ofNat n => r.num / (r.den * Nat.pow 10 n)
  | .negSucc n => r.num * Nat.pow 10 (n + 1) / r.den

/-- The neighbour at or below is strictly nearer than the one above. -/
def belowNearer (r : Ratio) (d : Nat) (k : Int) : Bool :=
  r.lt (Ratio.scaled (2 * d + 1) 10 k |> fun x => ⟨x.num, x.den * 2⟩)

/-- The neighbours tie. -/
def tied (r : Ratio) (d : Nat) (k : Int) : Bool :=
  let mid : Ratio := Ratio.scaled (2 * d + 1) 10 k |> fun x => ⟨x.num, x.den * 2⟩
  r.le mid && mid.le r

/-- The best decimal with the last digit at place `k`, if the grid has one. -/
def onGrid? (b : Binary64) (k : Int) : Option Nat :=
  let r := b.near 0
  let d := r.floorAt k
  match b.admits (point d k), b.admits (point (d + 1) k) with
  | true, true =>
    if tied r d k then some (if d % 2 = 0 then d else d + 1)
    else if belowNearer r d k then some d else some (d + 1)
  | true, false => some d
  | false, true => some (d + 1)
  | false, false => none

/-- Takes trailing zeros off the digits; `fuel` bounds their number. -/
def stripZeros : (fuel : Nat) → Nat → Int → Nat × Int
  | 0, d, k => (d, k)
  | fuel + 1, d, k =>
    if d ≠ 0 ∧ d % 10 = 0 then stripZeros fuel (d / 10) (k + 1) else (d, k)

/-- Tries grids from `k` downwards. Seventeen digits always suffice. -/
def search (b : Binary64) : (fuel : Nat) → Int → Nat × Int
  | 0, k => ((b.near 0).floorAt k, k)
  | fuel + 1, k =>
    match onGrid? b k with
    | some d => stripZeros 20 d k
    | none => search b fuel (k - 1)

/-- The digits of a value other than zero and the place of the last one. -/
def shortest (b : Binary64) : Nat × Int :=
  search b 17 (leadingPlace (b.near 0))

/-- How digits become text. A number is positional when its first digit stands
right of the `fewest`-th place after the point and its last not left of the
`most`-th before it; otherwise it is written with an exponent. -/
structure Layout where
  fewest : Int
  most : Int
  exponentMark : String
  plus : String
  zero : String
  deriving Repr

/-- `n` zeros. -/
def zeros (n : Nat) : String :=
  String.ofList (List.replicate n '0')

/-- Positive digits with their last place, as text. -/
def Layout.positive (l : Layout) (digits : Nat) (last : Int) : String :=
  let ds := Nat.toDigits 10 digits
  let text := String.ofList ds
  let first : Int := ds.length + last
  if 0 ≤ last ∧ first ≤ l.most then text ++ zeros last.toNat ++ ".0"
  else if 0 < first ∧ first ≤ l.most then
    String.ofList (ds.take first.toNat) ++ "." ++ String.ofList (ds.drop first.toNat)
  else if l.fewest < first ∧ first ≤ 0 then "0." ++ zeros (-first).toNat ++ text
  else
    let e := first - 1
    let exponent := if 0 ≤ e then l.plus ++ toString e.toNat else "-" ++ toString (-e).toNat
    let mantissa :=
      if ds.length = 1 then text
      else String.ofList (ds.take 1) ++ "." ++ String.ofList (ds.drop 1)
    mantissa ++ l.exponentMark ++ exponent

/-- A finite value as text. -/
def Layout.render (l : Layout) (bits : UInt64) : String :=
  let b := Binary64.ofBits bits
  let sign := if isNegative bits then "-" else ""
  if b.mantissa = 0 then sign ++ l.zero
  else sign ++ l.positive (shortest b).1 (shortest b).2

end PluginHost.Decimal
