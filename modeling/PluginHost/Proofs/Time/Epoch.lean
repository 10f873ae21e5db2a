import Mathlib.Order.Monotone.Basic
import PluginHost.Proofs.Time.RoundTrip
import PluginHost.Time.Epoch

/-!
# What a clock shows

A clock's count of seconds becomes a day of the calendar, as long as the calendar lasts. The
year is found by taking the leap days off the number of days: this makes a count that never
falls and reaches a multiple of 365 on the first of March and not before it.

Results:
1. `count_mono`: the count never falls.
2. `year_bounds`: the year that is found has begun and has not ended.
3. `proper_ofEpoch`: a clock shows proper instants.
-/

namespace PluginHost

namespace Date

/-- The days of a period without its leap days. -/
def count (day : Nat) : Nat :=
  day - day / 1460 + day / 36524 - day / 146096

/-- How many days of a period lie before the first of March of a year. -/
def march (year : Nat) : Nat :=
  365 * year + year / 4 - year / 100

/-- How many days a year has that begins in March. Its leap day is the last one. -/
def yearDays (year : Nat) : Nat :=
  if isLeapYear (year + 1) then 366 else 365

/-- Where the leap days of hundredth years are put back, one of four is not. -/
theorem count_mono : Monotone count := by
  refine monotone_nat_of_le_succ fun day => ?_
  have fourth (n : Nat) : n / 146096 = n / 36524 / 4 := (Nat.div_div_eq_div_mul n 36524 4).symm
  have next : (day + 1) / 36524 = day / 36524 ∨ (day + 1) / 36524 = day / 36524 + 1 := by omega
  have leap : (day + 1) / 1460 = day / 1460 ∨ (day + 1) / 1460 = day / 1460 + 1 := by omega
  unfold count
  rw [fourth, fourth]
  omega

theorem count_march : ∀ year < 400,
    (march year = 0 ∨ count (march year - 1) < 365 * year) ∧
    (march year + yearDays year = periodDays ∨
      365 * (year + 1) ≤ count (march year + yearDays year)) := by
  decide +kernel

variable {day : Nat}

theorem year_lt (small : day < periodDays) : count day / 365 < 400 := by
  have last : count day ≤ count 146096 := count_mono (Nat.le_of_lt_succ small)
  have known : count 146096 = 145999 := by decide
  omega

/-- The year of a day has begun and has not ended. -/
theorem year_bounds (small : day < periodDays) :
    march (count day / 365) ≤ day ∧ day < march (count day / 365) + yearDays (count day / 365) := by
  obtain ⟨before, after⟩ := count_march _ (year_lt small)
  have low : 365 * (count day / 365) ≤ count day := Nat.mul_div_le _ _
  have high : count day < 365 * (count day / 365 + 1) := Nat.lt_mul_div_succ _ (by decide)
  constructor
  · by_contra early
    have le : count day ≤ count (march (count day / 365) - 1) := count_mono (by omega)
    omega
  · by_contra late
    have le := count_mono (Nat.le_of_not_lt late)
    omega

/-- The months of a year that begins in March, and their days. The last day of all is a leap
day. -/
theorem march_months : ∀ rest < 366,
    let month := (5 * rest + 2) / 153
    let civil := if month < 10 then month + 3 else month - 9
    let dayOfMonth := rest - (153 * month + 2) / 5 + 1
    (1 ≤ civil ∧ civil ≤ 12) ∧ 1 ≤ dayOfMonth ∧
      (if rest < 365 then dayOfMonth ≤ daysInMonth 1 civil
        else 10 ≤ month ∧ civil = 2 ∧ dayOfMonth = 29) := by
  decide +kernel

/-- No month of a leap year is shorter than it is in other years. -/
theorem common_le_daysInMonth (year : Int) (month : Nat) :
    daysInMonth 1 month ≤ daysInMonth year month := by
  unfold daysInMonth
  by_cases february : month = 2
  · rw [if_pos february, if_pos february]
    cases isLeapYear year <;> decide
  · rw [if_neg february, if_neg february]

theorem isLeapYear_period (period year : Int) :
    isLeapYear (period * 400 + year) = isLeapYear year := by
  have four : (period * 400 + year) % 4 = year % 4 := by omega
  have hundred : (period * 400 + year) % 100 = year % 100 := by omega
  have all : (period * 400 + year) % 400 = year % 400 := by omega
  rw [isLeapYear, four, hundred, all, isLeapYear]

/-- A day that is found by counting is one of the calendar, as long as its year is. -/
theorem isReal_ofMarchDay (n : Int) (first : firstYear ≤ (ofMarchDay n).year)
    (last : (ofMarchDay n).year ≤ lastYear) : (ofMarchDay n).isReal = true := by
  have nonneg : 0 ≤ n % (periodDays : Int) := Int.emod_nonneg n (by decide)
  have small : (n % (periodDays : Int)).toNat < periodDays :=
    (Int.toNat_lt nonneg).mpr (Int.emod_lt_of_pos n (by decide))
  obtain ⟨begun, goes⟩ := year_bounds small
  let year := count (n % (periodDays : Int)).toNat / 365
  let rest := (n % (periodDays : Int)).toNat - march year
  have within_year : rest < yearDays year := Nat.sub_lt_left_of_lt_add begun goes
  have long : yearDays year ≤ 366 := by
    unfold yearDays
    split <;> decide
  obtain ⟨month, day, short⟩ := march_months rest (Nat.lt_of_lt_of_le within_year long)
  refine isReal_iff.mpr ⟨first, last, month, day, ?_⟩
  split at short
  · exact short.trans (common_le_daysInMonth _ _)
  · next leapDay =>
    obtain ⟨winter, february, twentyNinth⟩ := short
    -- A year has so many days only if the February at its end has one more.
    have leap : isLeapYear ((year : Int) + 1) = true := by
      by_contra common
      rw [yearDays, if_neg common] at within_year
      exact leapDay within_year
    have date : ofMarchDay n = ⟨n / periodDays * 400 + year + 1, 2, 29⟩ :=
      congr (congr (congrArg Date.mk (congrArg (_ + ·) (if_pos winter))) february) twentyNinth
    rw [date]
    show 29 ≤ if isLeapYear (n / periodDays * 400 + year + 1) = true then 29 else 28
    rw [Int.add_assoc, isLeapYear_period, if_pos leap]

end Date

/-- A clock shows proper instants, as long as the calendar lasts. -/
theorem Instant.proper_ofEpoch (seconds : Int) {nano : Nat} (small : nano < nanosInSecond)
    (first : Date.firstYear ≤ (ofEpoch seconds nano).date.year)
    (last : (ofEpoch seconds nano).date.year ≤ Date.lastYear) : (ofEpoch seconds nano).Proper := by
  refine ⟨Date.isReal_ofMarchDay _ first last, ?_, .inl small⟩
  have nonneg : 0 ≤ seconds % (daySeconds : Int) := Int.emod_nonneg seconds (by decide)
  exact (Int.toNat_lt nonneg).mpr (Int.emod_lt_of_pos seconds (by decide))

end PluginHost
