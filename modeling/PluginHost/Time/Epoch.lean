import PluginHost.Time.Instant

/-!
# Seconds since 1970

Clocks count seconds from the start of 1970, leap seconds left out. Days are
counted in periods of 400 years, after which the calendar repeats, and within a
period from the first of March, so that the leap day is the last of its year.

* `Instant.ofEpoch` is the instant that a clock shows.
-/

namespace PluginHost

/-- How many days 400 years have. -/
def periodDays : Nat := 146097

/-- How many days lie between the first of March of year 0 and the start of 1970. -/
def epochDay : Int := 719468

/-- The day that is `n` days after the first of March of year 0. -/
def Date.ofMarchDay (n : Int) : Date :=
  let period := n / periodDays
  let day := (n % periodDays).toNat
  let year := (day - day / 1460 + day / 36524 - day / 146096) / 365
  let rest := day - (365 * year + year / 4 - year / 100)
  let month := (5 * rest + 2) / 153
  let dayOfMonth := rest - (153 * month + 2) / 5 + 1
  let january : Int := if 10 ≤ month then 1 else 0
  ⟨period * 400 + year + january, if month < 10 then month + 3 else month - 9, dayOfMonth⟩

/-- The instant at a number of seconds after the start of 1970. -/
def Instant.ofEpoch (seconds : Int) (nano : Nat) : Instant :=
  ⟨Date.ofMarchDay (seconds / daySeconds + epochDay), (seconds % daySeconds).toNat, nano⟩

example : Instant.ofEpoch 0 0 = ⟨⟨1970, 1, 1⟩, 0, 0⟩ := by decide

example : Instant.ofEpoch 951782400 7 = ⟨⟨2000, 2, 29⟩, 0, 7⟩ := by decide

example : Instant.ofEpoch (-1) 0 = ⟨⟨1969, 12, 31⟩, 86399, 0⟩ := by decide

end PluginHost
