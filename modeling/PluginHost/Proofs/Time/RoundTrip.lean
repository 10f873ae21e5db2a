import Mathlib.Algebra.Group.Nat.Defs
import Mathlib.Data.List.TakeWhile
import PluginHost.Proofs.Result
import PluginHost.Proofs.Text.Digits
import PluginHost.Time.Printer
import PluginHost.Time.Reader

/-!
# Times are read as they were written

The relaxed reader gives instants of the calendar, with a second of the day and a fraction
that runs on past one second in the last second of a minute only: a leap second is read in
that place, and an offset of whole minutes leaves it there. Such an instant is written with as
many digits as it needs, and it is read back from its text.

* `Instant.Proper` says that an instant is of this kind.

Results:
1. `proper_of_ofText`: every instant that is read is proper.
2. `ofText_text`: a proper instant is read from its text.
-/

namespace PluginHost

/-- The day is in the calendar, the second is one of the day, and a fraction that runs on past
one second is one of the last second of a minute. -/
structure Instant.Proper (i : Instant) : Prop where
  real : i.date.isReal = true
  second_lt : i.second < Instant.daySeconds
  nano_lt : i.nano < Instant.nanosInSecond ∨
    i.second % 60 = 59 ∧ i.nano < 2 * Instant.nanosInSecond

namespace Time

open Ascii (isDigit decimal)

/-- The parts of a time of day are within their ranges, and the offset has whole minutes. -/
structure Fields.Sound (f : Fields) : Prop where
  hour_le : f.hour ≤ 23
  minute_le : f.minute ≤ 59
  second_le : f.second ≤ 60
  nano_lt : f.nano < Instant.nanosInSecond
  offset_whole : f.offset % 60 = 0

/-! ## Numbers -/

section Numbers

variable {cs rest ds : List Char} {fewest most low high n m : Nat}

/-- What is read as a number is a row of digits. -/
theorem digits_of_number (h : number fewest most cs = .ok (n, rest)) :
    ∃ ds, cs = ds ++ rest ∧ (∀ d ∈ ds, isDigit d = true) ∧ ds.length ≤ most ∧ n = decimal ds := by
  unfold number at h
  dsimp only at h
  split at h
  · cases h
  split at h
  · cases h
  split at h
  · cases h
  cases h
  refine ⟨(cs.take most).takeWhile isDigit, ?_, fun d hd => List.mem_takeWhile_imp hd, ?_, rfl⟩
  · have first : (cs.take most).takeWhile isDigit <+: cs :=
      (List.takeWhile_prefix _).trans (List.take_prefix _ _)
    exact (List.prefix_iff_eq_append.mp first).symm
  · exact (List.takeWhile_prefix _).length_le.trans (List.length_take_le _ _)

/-- Digits are read as a number, as many as are taken or up to where they end. -/
theorem number_append (digits : ∀ d ∈ ds, isDigit d = true) (enough : fewest ≤ ds.length)
    (few : ds.length ≤ most) (ends : ds.length = most ∨ ∀ c ∈ rest.head?, isDigit c = false)
    (small : decimal ds ≤ numberLimit) :
    number fewest most (ds ++ rest) = .ok (decimal ds, rest) := by
  have taken : ((ds ++ rest).take most).takeWhile isDigit = ds := by
    rw [List.take_append, List.take_of_length_le few, List.takeWhile_append_of_pos digits]
    rcases ends with all | ends
    · rw [← all, Nat.sub_self, List.take_zero, List.takeWhile_nil, List.append_nil]
    · cases rest with
      | nil => simp
      | cons c rest =>
        cases most - ds.length with
        | zero => simp
        | succ k => simp [ends c rfl]
  have long : ¬ (ds ++ rest).length < fewest := by
    rw [List.length_append]
    omega
  unfold number
  simp only [taken, long, Nat.not_lt.mpr enough, Nat.not_lt.mpr small, ↓reduceIte,
    List.drop_left]

theorem within_of_le (low_le : low ≤ n) (le_high : n ≤ high) : within low high n = .ok n :=
  if_pos ⟨low_le, le_high⟩

theorem le_of_within (h : within low high n = .ok m) : low ≤ m ∧ m ≤ high := by
  unfold within at h
  split at h
  · next inside =>
    cases h
    exact inside
  · cases h

/-- A number with zeros in front of it is a row of digits that denote it. -/
theorem padded_digits (width n : Nat) :
    (∀ d ∈ (padded width n).toList, isDigit d = true) ∧ width ≤ (padded width n).toList.length ∧
      decimal (padded width n).toList = n := by
  rw [padded, String.toList_ofList]
  refine ⟨fun d hd => ?_, ?_, ?_⟩
  · rcases List.mem_append.mp hd with zero | digit
    · rw [List.eq_of_mem_replicate zero]
      rfl
    · exact Ascii.isDigit_of_mem_toDigits d digit
  · rw [List.length_append, List.length_replicate]
    omega
  · rw [Ascii.decimal_zeros_append, Ascii.decimal_toDigits]

/-- A number that fits has as many digits as are wanted. -/
theorem length_padded {width : Nat} (pos : 0 < width) (small : n < 10 ^ width) :
    (padded width n).toList.length = width := by
  have short := (Nat.length_toDigits_le_iff (by decide) pos).mpr small
  rw [padded, String.toList_ofList, List.length_append, List.length_replicate]
  omega

/-- A number with zeros in front of it is read, as many digits as are taken or up to where
they end. -/
theorem number_padded {width : Nat} (enough : fewest ≤ width)
    (few : (padded width n).toList.length ≤ most)
    (ends : (padded width n).toList.length = most ∨ ∀ c ∈ rest.head?, isDigit c = false)
    (small : n ≤ numberLimit) :
    number fewest most ((padded width n).toList ++ rest) = .ok (n, rest) := by
  obtain ⟨digits, wide, value⟩ := padded_digits width n
  rw [← value] at small
  have read := number_append digits (enough.trans wide) few ends small
  rwa [value] at read

end Numbers

/-! ## Blank characters -/

section Blanks

variable {rest ds : List Char} {c : Char}

theorem skip_of_not_blank (solid : Blank.isBlank c = false) : skip (c :: rest) = c :: rest :=
  List.dropWhile_cons_of_neg (by simp [solid])

/-- No digit is skipped. -/
theorem skip_digits (digits : ∀ d ∈ ds, isDigit d = true) (nonempty : 0 < ds.length) :
    skip (ds ++ rest) = ds ++ rest := by
  cases ds with
  | nil => cases nonempty
  | cons d ds => exact skip_of_not_blank (Ascii.isBlank_of_isDigit (digits d List.mem_cons_self))

end Blanks

/-! ## What is read is sound -/

section Reading

variable {cs rest : List Char} {low high n : Nat} {o : Int} {f : Fields}

theorem bounds_of_shortNumber (h : shortNumber low high cs = .ok (n, rest)) :
    low ≤ n ∧ n ≤ high := by
  obtain ⟨⟨m, cs'⟩, -, h⟩ := bind_eq_ok_iff.mp h
  obtain ⟨k, inside, h⟩ := bind_eq_ok_iff.mp h
  cases h
  exact le_of_within inside

theorem take_front (front back : List Char) :
    (front ++ back).take ((front ++ back).length - back.length) = front := by
  rw [List.length_append, Nat.add_sub_cancel, List.take_left]

/-- Nine digits of a fraction are less than one second. -/
theorem lt_of_nanos (h : nanos cs = .ok (n, rest)) : n < Instant.nanosInSecond := by
  obtain ⟨⟨m, left⟩, first, h⟩ := bind_eq_ok_iff.mp h
  cases h
  obtain ⟨ds, rfl, digits, few, -⟩ := digits_of_number first
  rw [take_front]
  calc decimal ds * Nat.pow 10 (9 - ds.length)
      < Nat.pow 10 ds.length * Nat.pow 10 (9 - ds.length) :=
        Nat.mul_lt_mul_of_pos_right (Ascii.decimal_lt digits) (Nat.pow_pos (by decide))
    _ = Nat.pow 10 (ds.length + (9 - ds.length)) := (Nat.pow_add 10 _ _).symm
    _ = Nat.pow 10 9 := by rw [Nat.add_sub_cancel' few]

theorem lt_of_fraction (h : fraction cs = .ok (n, rest)) : n < Instant.nanosInSecond := by
  unfold fraction at h
  split at h
  · exact lt_of_nanos h
  · cases h
    decide

/-- An offset is given in hours and minutes. -/
theorem whole_of_looseOffset (h : looseOffset cs = .ok (o, rest)) : o % 60 = 0 := by
  unfold looseOffset at h
  split at h
  · cases h
    rfl
  unfold offset at h
  split at h
  · cases h
    rfl
  · cases h
    rfl
  obtain ⟨⟨behind, cs₁⟩, -, h⟩ := bind_eq_ok_iff.mp h
  obtain ⟨⟨hours, cs₂⟩, -, h⟩ := bind_eq_ok_iff.mp h
  obtain ⟨cs₃, -, h⟩ := bind_eq_ok_iff.mp h
  obtain ⟨⟨minutes, cs₄⟩, -, h⟩ := bind_eq_ok_iff.mp h
  obtain ⟨minutes', -, h⟩ := bind_eq_ok_iff.mp h
  cases h
  cases behind
  · show ((hours : Int) * 3600 + minutes' * 60) % 60 = 0
    omega
  · show -((hours : Int) * 3600 + minutes' * 60) % 60 = 0
    omega

theorem sound_of_looseFields (h : looseFields cs = .ok (f, rest)) : f.Sound := by
  obtain ⟨⟨year, cs₁⟩, -, h⟩ := bind_eq_ok_iff.mp h
  obtain ⟨cs₂, -, h⟩ := bind_eq_ok_iff.mp h
  obtain ⟨⟨month, cs₃⟩, -, h⟩ := bind_eq_ok_iff.mp h
  obtain ⟨cs₄, -, h⟩ := bind_eq_ok_iff.mp h
  obtain ⟨⟨day, cs₅⟩, -, h⟩ := bind_eq_ok_iff.mp h
  obtain ⟨cs₆, -, h⟩ := bind_eq_ok_iff.mp h
  obtain ⟨⟨hour, cs₇⟩, hhour, h⟩ := bind_eq_ok_iff.mp h
  obtain ⟨cs₈, -, h⟩ := bind_eq_ok_iff.mp h
  obtain ⟨⟨minute, cs₉⟩, hminute, h⟩ := bind_eq_ok_iff.mp h
  obtain ⟨cs₁₀, -, h⟩ := bind_eq_ok_iff.mp h
  obtain ⟨⟨second, cs₁₁⟩, hsecond, h⟩ := bind_eq_ok_iff.mp h
  obtain ⟨⟨nano, cs₁₂⟩, hnano, h⟩ := bind_eq_ok_iff.mp h
  obtain ⟨⟨offset, cs₁₃⟩, hoffset, h⟩ := bind_eq_ok_iff.mp h
  cases h
  exact ⟨(bounds_of_shortNumber hhour).2, (bounds_of_shortNumber hminute).2,
    (bounds_of_shortNumber hsecond).2, lt_of_fraction hnano, whole_of_looseOffset hoffset⟩

end Reading

/-! ## What is written is read -/

section Writing

variable {rest : List Char} {c : Char} {low high n nano : Nat} {y : Int}

theorem looseMark_cons (solid : Blank.isBlank c = false) : looseMark c (c :: rest) = .ok rest := by
  rw [looseMark, skip_of_not_blank solid]
  exact if_pos rfl

theorem shortNumber_padded (low_le : low ≤ n) (le_high : n ≤ high) (two : high < 100) :
    shortNumber low high ((padded 2 n).toList ++ rest) = .ok (n, rest) := by
  obtain ⟨digits, wide, -⟩ := padded_digits 2 n
  have length : (padded 2 n).toList.length = 2 :=
    length_padded (by decide) (Nat.lt_of_le_of_lt le_high two)
  have small : n ≤ numberLimit := by
    have limit : 100 ≤ numberLimit := by decide
    omega
  rw [shortNumber, skip_digits digits (Nat.lt_of_succ_le (Nat.le_of_succ_le wide)),
    number_padded (by decide) length.le (.inl length) small]
  show within low high n >>= _ = _
  rw [within_of_le low_le le_high]
  rfl

theorem year_of_digit (digit : isDigit c = true) :
    year (c :: rest) = (number 1 4 (c :: rest)).map fun (n, cs) => ((n : Int), cs) := by
  rw [year, skip_of_not_blank (Ascii.isBlank_of_isDigit digit)]
  split
  · next same =>
    cases same
    exact absurd digit (by decide)
  · next same =>
    cases same
    exact absurd digit (by decide)
  · rfl

theorem year_minus (cs : List Char) : year ('-' :: cs) =
    (number 1 cs.length.succ cs).map fun (n, cs) => (-(n : Int), cs) := by
  rw [year, skip_of_not_blank (by decide)]
  rfl

theorem year_plus (cs : List Char) : year ('+' :: cs) =
    (number 1 cs.length.succ cs).map fun (n, cs) => ((n : Int), cs) := by
  rw [year, skip_of_not_blank (by decide)]
  rfl

/-- A year is read up to the mark behind it. -/
theorem year_yearText (first : Date.firstYear ≤ y) (last : y ≤ Date.lastYear) :
    year ((yearText y).toList ++ '-' :: rest) = .ok (y, '-' :: rest) := by
  have ends : ∀ c ∈ ('-' :: rest).head?, isDigit c = false := by
    rintro c ⟨⟩
    decide
  have limit : 262143 ≤ numberLimit := by decide
  unfold Date.firstYear at first
  unfold Date.lastYear at last
  have signed : number 1 ((padded 4 y.natAbs).toList ++ '-' :: rest).length.succ
      ((padded 4 y.natAbs).toList ++ '-' :: rest) = .ok (y.natAbs, '-' :: rest) := by
    refine number_padded (by decide) ?_ (.inr ends) (by omega)
    rw [List.length_append]
    exact Nat.le_succ_of_le (Nat.le_add_right _ _)
  unfold yearText
  split
  · next short =>
    have length : (padded 4 y.toNat).toList.length = 4 := length_padded (by decide) (by omega)
    have read : number 1 4 ((padded 4 y.toNat).toList ++ '-' :: rest) = .ok (y.toNat, '-' :: rest) :=
      number_padded (by decide) length.le (.inl length) (by omega)
    have back : (y.toNat : Int) = y := Int.toNat_of_nonneg short.1
    cases text : (padded 4 y.toNat).toList with
    | nil => simp [text] at length
    | cons d ds =>
      have digit := (padded_digits 4 y.toNat).1 d (text ▸ List.mem_cons_self)
      rw [text] at read
      rw [List.cons_append, year_of_digit digit, ← List.cons_append, read]
      exact congrArg (fun y => Except.ok (y, '-' :: rest)) back
  · rw [String.toList_append, List.append_assoc]
    split
    · next negative =>
      have back : -(y.natAbs : Int) = y := by omega
      have sign : "-".toList = ['-'] := rfl
      rw [sign, List.singleton_append, year_minus, signed]
      exact congrArg (fun y => Except.ok (y, '-' :: rest)) back
    · next positive =>
      have back : (y.natAbs : Int) = y := Int.natAbs_of_nonneg (Int.not_lt.mp positive)
      have sign : "+".toList = ['+'] := rfl
      rw [sign, List.singleton_append, year_plus, signed]
      exact congrArg (fun y => Except.ok (y, '-' :: rest)) back

theorem shortYear_yearText (first : Date.firstYear ≤ y) (last : y ≤ Date.lastYear) :
    shortYear ((yearText y).toList ++ '-' :: rest) = .ok (y, '-' :: rest) := by
  rw [shortYear, year_yearText first last]
  unfold Date.firstYear at first
  unfold Date.lastYear at last
  have width : (Nat.pow 2 31 : Nat) = 2147483648 := rfl
  exact if_pos ⟨by omega, by omega⟩

/-- Digits behind a point are read as they are, zeros behind them left out. -/
theorem nanos_padded {width : Nat} (pos : 0 < width) (le_nine : width ≤ 9) (small : n < 10 ^ width)
    (value : n * 10 ^ (9 - width) = nano) :
    nanos ((padded width n).toList ++ 'Z' :: rest) = .ok (nano, 'Z' :: rest) := by
  have ends : ∀ c ∈ ('Z' :: rest).head?, isDigit c = false := by
    rintro c ⟨⟩
    decide
  have length := length_padded pos small
  have limit : n ≤ numberLimit :=
    (Nat.lt_of_lt_of_le small (Nat.pow_le_pow_right (by decide) le_nine)).le.trans (by decide)
  rw [nanos, number_padded pos (length.le.trans le_nine) (.inr ends) limit]
  show Except.ok _ = _
  rw [take_front, (padded_digits width n).2.2, length, ← value]
  rfl

theorem fraction_fractionText (small : nano < Instant.nanosInSecond) :
    fraction ((fractionText nano).toList ++ 'Z' :: rest) = .ok (nano, 'Z' :: rest) := by
  have dotted {text : String} (read : nanos (text.toList ++ 'Z' :: rest) = .ok (nano, 'Z' :: rest)) :
      fraction (("." ++ text).toList ++ 'Z' :: rest) = .ok (nano, 'Z' :: rest) := by
    have point : ".".toList = ['.'] := rfl
    rw [String.toList_append, List.append_assoc, point, List.singleton_append]
    exact read
  unfold Instant.nanosInSecond at small
  unfold fractionText
  split
  · next zero =>
    rw [zero]
    rfl
  split
  · exact dotted (nanos_padded (by decide) (by decide) (by omega) (by omega))
  split
  · exact dotted (nanos_padded (by decide) (by decide) (by omega) (by omega))
  · exact dotted (nanos_padded (by decide) (by decide) (by omega) (by omega))

end Writing

end Time

/-! ## Days -/

namespace Date

variable {d d' : Date}

theorem isReal_iff : d.isReal = true ↔ firstYear ≤ d.year ∧ d.year ≤ lastYear ∧
    (1 ≤ d.month ∧ d.month ≤ 12) ∧ 1 ≤ d.day ∧ d.day ≤ daysInMonth d.year d.month := by
  simp [isReal, and_assoc]

theorem one_le_daysInMonth (year : Int) (month : Nat) : 1 ≤ daysInMonth year month := by
  unfold daysInMonth
  repeat' split
  all_goals decide

theorem daysInMonth_le (year : Int) (month : Nat) : daysInMonth year month ≤ 31 := by
  unfold daysInMonth
  repeat' split
  all_goals decide

/-- The day after a day of the calendar is one. -/
theorem isReal_of_next? (real : d.isReal = true) (next : d.next? = some d') :
    d'.isReal = true := by
  obtain ⟨first, last, ⟨month, year⟩, day, short⟩ := isReal_iff.mp real
  unfold next? at next
  split at next
  · next more =>
    cases next
    exact isReal_iff.mpr ⟨first, last, ⟨month, year⟩, Nat.succ_pos _, more⟩
  split at next
  · next more =>
    cases next
    exact isReal_iff.mpr ⟨first, last, ⟨Nat.succ_pos _, more⟩, Nat.le_refl 1,
      one_le_daysInMonth _ _⟩
  split at next
  · next more =>
    cases next
    have year_ge : firstYear ≤ d.year + 1 := Int.le_add_one first
    exact isReal_iff.mpr ⟨year_ge, more, ⟨Nat.le_refl 1, Nat.succ_pos 11⟩, Nat.le_refl 1,
      one_le_daysInMonth _ _⟩
  · cases next

theorem isReal_of_previous? (real : d.isReal = true) (previous : d.previous? = some d') :
    d'.isReal = true := by
  obtain ⟨first, last, ⟨month, year⟩, day, short⟩ := isReal_iff.mp real
  unfold previous? at previous
  split at previous
  · next more =>
    cases previous
    exact isReal_iff.mpr ⟨first, last, ⟨month, year⟩, Nat.le_sub_one_of_lt more,
      (Nat.sub_le _ _).trans short⟩
  split at previous
  · next more =>
    cases previous
    exact isReal_iff.mpr ⟨first, last, ⟨Nat.le_sub_one_of_lt more, (Nat.sub_le _ _).trans year⟩,
      one_le_daysInMonth _ _, Nat.le_refl _⟩
  split at previous
  · next more =>
    cases previous
    have year_le : d.year - 1 ≤ lastYear := Int.le_trans (Int.sub_le_self _ Int.one_nonneg) last
    exact isReal_iff.mpr ⟨Int.le_sub_one_of_lt more, year_le, ⟨Nat.succ_pos 11, Nat.le_refl 12⟩,
      Nat.succ_pos 30, Nat.le_refl 31⟩
  · cases previous

end Date

/-! ## Instants -/

namespace Instant

open Time (Fields)

variable {i j : Instant} {o : Int} {f : Fields}

/-- An offset of whole minutes leaves a leap second at the end of its minute. -/
theorem Proper.atOffset (proper : i.Proper) (whole : o % 60 = 0) (less : o.natAbs < daySeconds)
    (shifted : i.atOffset? o = some j) : j.Proper := by
  obtain ⟨real, second_lt, nano_lt⟩ := proper
  have at_second {d : Date} (real : d.isReal = true) {s : Int} (nonneg : 0 ≤ s)
      (lt : s < (daySeconds : Int)) (same : s % 60 = (i.second : Int) % 60) :
      Proper ⟨d, s.toNat, i.nano⟩ := by
    have back : (s.toNat : Int) = s := Int.toNat_of_nonneg nonneg
    refine ⟨real, ?_, nano_lt.imp_right fun ⟨last, small⟩ => ⟨?_, small⟩⟩
    · show s.toNat < daySeconds
      omega
    · show s.toNat % 60 = 59
      omega
  have day : (daySeconds : Int) = 86400 := rfl
  unfold atOffset? at shifted
  dsimp only at shifted
  split at shifted
  · obtain ⟨d, previous, rfl⟩ := Option.map_eq_some_iff.mp shifted
    exact at_second (Date.isReal_of_previous? real previous) (by omega) (by omega) (by omega)
  split at shifted
  · cases shifted
    exact at_second real (by omega) (by omega) (by omega)
  · obtain ⟨d, next, rfl⟩ := Option.map_eq_some_iff.mp shifted
    exact at_second (Date.isReal_of_next? real next) (by omega) (by omega) (by omega)

/-- Sound fields stand for a proper instant, if they stand for any. -/
theorem proper_of_toInstant (sound : f.Sound) (h : f.toInstant = .ok i) : i.Proper := by
  obtain ⟨hour_le, minute_le, second_le, nano_lt, whole⟩ := sound
  unfold Fields.toInstant at h
  dsimp only at h
  split at h
  · cases h
  next good =>
  rw [not_or, Nat.not_le, Bool.not_eq_true', Bool.not_eq_false] at good
  obtain ⟨real, less⟩ := good
  split at h
  · next shifted =>
    cases h
    have reading : Proper ⟨⟨f.year, f.month, f.day⟩,
        f.hour * 3600 + f.minute * 60 + (if f.second = 60 then 59 else f.second),
        f.nano + (if f.second = 60 then nanosInSecond else 0)⟩ := by
      refine ⟨real, ?_, ?_⟩
      · show _ < 86400
        dsimp only
        split <;> omega
      · dsimp only
        split
        · right
          omega
        · exact .inl nano_lt
    exact reading.atOffset whole less shifted
  · cases h

/-- Every instant that is read is proper. -/
theorem proper_of_ofText {s : String} (h : ofText s = .ok i) : i.Proper := by
  obtain ⟨⟨f, rest⟩, fields, h⟩ := bind_eq_ok_iff.mp h
  dsimp only at h
  split at h
  · cases h
  · exact proper_of_toInstant (Time.sound_of_looseFields fields) h

/-! ## Texts of instants -/

/-- What the text of an instant says. -/
def fields (i : Instant) : Fields where
  year := i.date.year
  month := i.date.month
  day := i.date.day
  hour := i.second / 3600
  minute := i.second / 60 % 60
  second := i.second % 60 + (if nanosInSecond ≤ i.nano then 1 else 0)
  nano := if nanosInSecond ≤ i.nano then i.nano - nanosInSecond else i.nano
  offset := 0

open Time in
theorem toList_text (i : Instant) : i.text.toList = (yearText i.fields.year).toList ++
    '-' :: ((padded 2 i.fields.month).toList ++ '-' :: ((padded 2 i.fields.day).toList ++
    'T' :: ((padded 2 i.fields.hour).toList ++ ':' :: ((padded 2 i.fields.minute).toList ++
    ':' :: ((padded 2 i.fields.second).toList ++
    ((fractionText i.fields.nano).toList ++ ['Z'])))))) := by
  simp [text, textWith, fields]

/-- The parts of a proper instant's text are in range. -/
theorem Proper.sound (proper : i.Proper) : i.fields.Sound := by
  obtain ⟨-, second_lt, nano_lt⟩ := proper
  unfold daySeconds at second_lt
  refine ⟨?_, ?_, ?_, ?_, rfl⟩
  · show i.second / 3600 ≤ 23
    omega
  · show i.second / 60 % 60 ≤ 59
    omega
  · show i.second % 60 + _ ≤ 60
    split <;> omega
  · show ite _ _ _ < nanosInSecond
    split <;> omega

open Time in
theorem Proper.looseFields_text (proper : i.Proper) :
    looseFields i.text.toList = .ok (i.fields, []) := by
  obtain ⟨first, last, ⟨month, month_le⟩, day, day_le⟩ := Date.isReal_iff.mp proper.real
  obtain ⟨hour_le, minute_le, second_le, nano_lt, -⟩ := proper.sound
  have hyear {rest : List Char} : shortYear ((yearText i.fields.year).toList ++ '-' :: rest) =
      .ok (i.fields.year, '-' :: rest) := shortYear_yearText first last
  have two {n low high : Nat} {rest : List Char} (bounds : low ≤ n ∧ n ≤ high)
      (small : high < 100) : shortNumber low high ((padded 2 n).toList ++ rest) = .ok (n, rest) :=
    shortNumber_padded bounds.1 bounds.2 small
  have hmonth : 1 ≤ i.fields.month ∧ i.fields.month ≤ 12 := ⟨month, month_le⟩
  have hday : 1 ≤ i.fields.day ∧ i.fields.day ≤ 31 :=
    ⟨day, day_le.trans (Date.daysInMonth_le _ _)⟩
  have dash {rest : List Char} : looseMark '-' ('-' :: rest) = .ok rest :=
    looseMark_cons (by decide)
  have colon {rest : List Char} : looseMark ':' (':' :: rest) = .ok rest :=
    looseMark_cons (by decide)
  have hseparator {rest : List Char} : separator ('T' :: rest) = .ok rest := rfl
  have hoffset : looseOffset (skip ['Z']) = .ok (0, []) := by decide +kernel
  rw [toList_text]
  simp only [looseFields, bind, Except.bind, hyear, dash, two hmonth (by decide),
    two hday (by decide), hseparator, two ⟨Nat.zero_le _, hour_le⟩ (by decide), colon,
    two ⟨Nat.zero_le _, minute_le⟩ (by decide), two ⟨Nat.zero_le _, second_le⟩ (by decide),
    fraction_fractionText nano_lt, hoffset]
  rfl

/-- A proper instant is what its fields stand for. -/
theorem Proper.toInstant_fields (proper : i.Proper) : i.fields.toInstant = .ok i := by
  obtain ⟨real, second_lt, nano_lt⟩ := proper
  -- The text has a second 60 if and only if the fraction runs on past one second.
  have leap : i.fields.second = 60 ↔ nanosInSecond ≤ i.nano := by
    show i.second % 60 + (if nanosInSecond ≤ i.nano then 1 else 0) = 60 ↔ _
    split <;> omega
  have second : i.fields.hour * 3600 + i.fields.minute * 60 +
      (if i.fields.second = 60 then 59 else i.fields.second) = i.second := by
    rw [if_congr leap rfl rfl]
    show i.second / 3600 * 3600 + i.second / 60 % 60 * 60 + (if nanosInSecond ≤ i.nano then 59
      else i.second % 60 + (if nanosInSecond ≤ i.nano then 1 else 0)) = i.second
    split <;> omega
  have nano : i.fields.nano + (if i.fields.second = 60 then nanosInSecond else 0) = i.nano := by
    rw [if_congr leap rfl rfl]
    show (if nanosInSecond ≤ i.nano then i.nano - nanosInSecond else i.nano) +
      (if nanosInSecond ≤ i.nano then nanosInSecond else 0) = i.nano
    split <;> omega
  have utc : (⟨⟨i.fields.year, i.fields.month, i.fields.day⟩, i.second, i.nano⟩ :
      Instant).atOffset? i.fields.offset = some i := by
    show i.atOffset? 0 = some i
    have bound : (i.second : Int) < (daySeconds : Int) := Int.ofNat_lt.mpr second_lt
    unfold atOffset?
    dsimp only
    rw [Int.sub_zero, if_neg (Int.not_lt.mpr (Int.natCast_nonneg _)), if_pos bound]
    rfl
  have inside : ¬((!i.date.isReal) = true ∨ daySeconds ≤ i.fields.offset.natAbs) := by
    rw [real]
    exact fun out => out.elim Bool.false_ne_true (Nat.not_succ_le_zero 86399)
  unfold Fields.toInstant
  dsimp only
  rw [second, nano]
  exact (if_neg inside).trans (by rw [utc])

/-- A proper instant is read from its text. -/
theorem ofText_text (proper : i.Proper) : ofText i.text = .ok i := by
  rw [ofText, proper.looseFields_text]
  exact proper.toInstant_fields

end Instant

end PluginHost
