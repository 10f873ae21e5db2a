import PluginHost.Time.Instant

/-!
# Writing times

A time is written in UTC with as many digits of the fraction as it needs: none,
three, six or nine. A year outside 0 to 9999 has a sign and at least four digits.
-/

namespace PluginHost

namespace Time

/-- A number with at least `width` digits. -/
def padded (width n : Nat) : String :=
  let ds := Nat.toDigits 10 n
  String.ofList (List.replicate (width - ds.length) '0' ++ ds)

def yearText (y : Int) : String :=
  if 0 ≤ y ∧ y ≤ 9999 then padded 4 y.toNat
  else (if y < 0 then "-" else "+") ++ padded 4 y.natAbs

/-- A fraction of a second. -/
def fractionText (nano : Nat) : String :=
  if nano = 0 then ""
  else if nano % 1000000 = 0 then "." ++ padded 3 (nano / 1000000)
  else if nano % 1000 = 0 then "." ++ padded 6 (nano / 1000)
  else "." ++ padded 9 nano

end Time

namespace Instant

/-- The text of an instant, with a sign for UTC at its end. -/
def textWith (zone : String) (i : Instant) : String :=
  let leap := nanosInSecond ≤ i.nano
  let second := i.second % 60 + (if leap then 1 else 0)
  let nano := if leap then i.nano - nanosInSecond else i.nano
  Time.yearText i.date.year ++ "-" ++ Time.padded 2 i.date.month ++ "-"
    ++ Time.padded 2 i.date.day ++ "T" ++ Time.padded 2 (i.second / 3600) ++ ":"
    ++ Time.padded 2 (i.second / 60 % 60) ++ ":" ++ Time.padded 2 second
    ++ Time.fractionText nano ++ zone

/-- The text of an instant that ends in `Z`. -/
def text (i : Instant) : String :=
  i.textWith "Z"

/-- The text of an instant that ends in an offset of zero. -/
def offsetText (i : Instant) : String :=
  i.textWith "+00:00"

end Instant

end PluginHost
