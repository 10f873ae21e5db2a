import PluginHost.Text.Ascii
import PluginHost.Text.Blank
import PluginHost.Time.Instant

/-!
# Reading times

Two readers of texts such as `2024-01-02T03:04:05.678+01:00`. The strict one
takes the numbers with all their digits and nothing else. The relaxed one also
takes numbers with fewer digits, years with a sign and any number of digits,
white space before numbers and around the parts, and an offset without a colon.

Both take a small `t`, or a space, between date and time, any number of digits
of a fraction, of which nine count, and a minus sign of typography in an offset.

* `Instant.ofText` is the relaxed reader.
* `Instant.ofStrictText?` is the strict one.
-/

namespace PluginHost

namespace Time

/-- Why a text is no time. -/
inductive Fault
  | outOfRange
  | endsEarly
  | badCharacter
  | goesOn
  | noSuchTime
  deriving DecidableEq, Repr, Inhabited

/-- The text of a fault. -/
def Fault.message : Fault → String
  | .outOfRange => "input is out of range"
  | .endsEarly => "premature end of input"
  | .badCharacter => "input contains invalid characters"
  | .goesOn => "trailing input"
  | .noSuchTime => "no possible date and time matching input"

/-- The largest number that is read. -/
def numberLimit : Nat := Nat.pow 2 63 - 1

/-- A number of at least `fewest` and at most `most` digits. -/
def number (fewest most : Nat) (cs : List Char) : Except Fault (Nat × List Char) :=
  let digits := (cs.take most).takeWhile Ascii.isDigit
  if cs.length < fewest then .error .endsEarly
  else if digits.length < fewest then .error .badCharacter
  else if numberLimit < Ascii.decimal digits then .error .outOfRange
  else .ok (Ascii.decimal digits, cs.drop digits.length)

def mark (c : Char) : List Char → Except Fault (List Char)
  | [] => .error .endsEarly
  | d :: rest => if d = c then .ok rest else .error .badCharacter

/-- The `T` between date and time. -/
def separator : List Char → Except Fault (List Char)
  | [] => .error .endsEarly
  | c :: rest => if c = 'T' ∨ c = 't' ∨ c = ' ' then .ok rest else .error .badCharacter

/-- The digits of a fraction as nanoseconds; digits after the ninth are passed
over. -/
def nanos (cs : List Char) : Except Fault (Nat × List Char) := do
  let (_, rest) ← number 1 9 cs
  let digits := cs.take (cs.length - rest.length)
  .ok (Ascii.decimal digits * Nat.pow 10 (9 - digits.length), rest.dropWhile Ascii.isDigit)

/-- The fraction, if there is one. -/
def fraction : List Char → Except Fault (Nat × List Char)
  | '.' :: rest => nanos rest
  | cs => .ok (0, cs)

def within (low high n : Nat) : Except Fault Nat :=
  if low ≤ n ∧ n ≤ high then .ok n else .error .outOfRange

/-- The sign of an offset; true for one behind UTC. -/
def offsetSign : List Char → Except Fault (Bool × List Char)
  | [] => .error .endsEarly
  | '+' :: rest => .ok (false, rest)
  | '-' :: rest => .ok (true, rest)
  | c :: rest => if c.toNat = 0x2212 then .ok (true, rest) else .error .badCharacter

/-- Two digits of an offset. -/
def twoDigits : List Char → Except Fault (Nat × List Char)
  | a :: b :: rest =>
    if Ascii.isDigit a && Ascii.isDigit b then
      .ok (Ascii.digitValue a * 10 + Ascii.digitValue b, rest)
    else .error .badCharacter
  | [a] => if a.toNat < 0x80 then .error .endsEarly else .error .badCharacter
  | [] => .error .endsEarly

/-- An offset in seconds, given what stands between its hours and minutes. -/
def offset (between : List Char → Except Fault (List Char)) (cs : List Char) : Except Fault (Int × List Char) :=
  match cs with
  | 'Z' :: rest => .ok (0, rest)
  | 'z' :: rest => .ok (0, rest)
  | _ => do
    let (behind, cs) ← offsetSign cs
    let (hours, cs) ← twoDigits cs
    let cs ← between cs
    let (minutes, cs) ← twoDigits cs
    let minutes ← within 0 59 minutes
    let seconds : Int := hours * 3600 + minutes * 60
    .ok (if behind then -seconds else seconds, cs)

/-- What a text says, before it is looked at as a whole. -/
structure Fields where
  year : Int
  month : Nat
  day : Nat
  hour : Nat
  minute : Nat
  second : Nat
  nano : Nat
  offset : Int
  deriving DecidableEq, Repr, Inhabited

/-- The instant that the fields stand for. -/
def Fields.toInstant (f : Fields) : Except Fault Instant :=
  let date : Date := ⟨f.year, f.month, f.day⟩
  let leap := f.second = 60
  let second := f.hour * 3600 + f.minute * 60 + (if leap then 59 else f.second)
  let nano := f.nano + (if leap then Instant.nanosInSecond else 0)
  if !date.isReal ∨ Instant.daySeconds ≤ f.offset.natAbs then .error .outOfRange
  else match (⟨date, second, nano⟩ : Instant).atOffset? f.offset with
    | some i => .ok i
    | none => .error .noSuchTime

def skip (cs : List Char) : List Char :=
  Blank.trimStart cs

def shortNumber (low high : Nat) (cs : List Char) : Except Fault (Nat × List Char) := do
  let (n, cs) ← number 1 2 (skip cs)
  .ok (← within low high n, cs)

/-- A year: up to four digits, or a sign and any number of them. -/
def year (cs : List Char) : Except Fault (Int × List Char) :=
  match skip cs with
  | '-' :: rest => (number 1 rest.length.succ rest).map fun (n, cs) => (-(n : Int), cs)
  | '+' :: rest => (number 1 rest.length.succ rest).map fun (n, cs) => ((n : Int), cs)
  | cs => (number 1 4 cs).map fun (n, cs) => ((n : Int), cs)

/-- A year that fits 32 bits. -/
def shortYear (cs : List Char) : Except Fault (Int × List Char) := do
  let (y, cs) ← year cs
  if -(Nat.pow 2 31 : Nat) ≤ y ∧ y < (Nat.pow 2 31 : Nat) then .ok (y, cs) else .error .outOfRange

def looseMark (c : Char) (cs : List Char) : Except Fault (List Char) :=
  mark c (skip cs)

def looseColon (cs : List Char) : Except Fault (List Char) :=
  .ok (cs.dropWhile fun c => c = ':' || Blank.isBlank c)

/-- An offset, or the letters `UTC`. -/
def looseOffset (cs : List Char) : Except Fault (Int × List Char) :=
  if Ascii.lower (String.ofList (cs.take 3)) = "utc" then .ok (0, cs.drop 3)
  else offset looseColon cs

/-- The fields of a text that is written freely. -/
def looseFields (cs : List Char) : Except Fault (Fields × List Char) := do
  let (year, cs) ← shortYear cs
  let cs ← looseMark '-' cs
  let (month, cs) ← shortNumber 1 12 cs
  let cs ← looseMark '-' cs
  let (day, cs) ← shortNumber 1 31 cs
  let cs ← separator cs
  let (hour, cs) ← shortNumber 0 23 cs
  let cs ← looseMark ':' cs
  let (minute, cs) ← shortNumber 0 59 cs
  let cs ← looseMark ':' cs
  let (second, cs) ← shortNumber 0 60 cs
  let (nano, cs) ← fraction cs
  let (offset, cs) ← looseOffset (skip cs)
  .ok (⟨year, month, day, hour, minute, second, nano, offset⟩, cs)

def exactNumber (low high : Nat) (cs : List Char) : Except Fault (Nat × List Char) := do
  let (n, cs) ← number 2 2 cs
  .ok (← within low high n, cs)

def offsetLimit : Nat := (23 * 60 + 59) * 60

/-- The fields of a text that is written strictly. -/
def strictFields (cs : List Char) : Except Fault (Fields × List Char) := do
  let (year, cs) ← number 4 4 cs
  let cs ← mark '-' cs
  let (month, cs) ← exactNumber 1 12 cs
  let cs ← mark '-' cs
  let (day, cs) ← exactNumber 1 31 cs
  let cs ← separator cs
  let (hour, cs) ← exactNumber 0 23 cs
  let cs ← mark ':' cs
  let (minute, cs) ← exactNumber 0 59 cs
  let cs ← mark ':' cs
  let (second, cs) ← exactNumber 0 60 cs
  let (nano, cs) ← fraction cs
  let (offset, cs) ← offset (mark ':') cs
  if offsetLimit < offset.natAbs then .error .outOfRange
  else .ok (⟨year, month, day, hour, minute, second, nano, offset⟩, cs)

end Time

namespace Instant

def ofText (s : String) : Except Time.Fault Instant := do
  let (fields, rest) ← Time.looseFields s.toList
  if Time.skip rest ≠ [] then .error .goesOn else fields.toInstant

def ofStrictText? (s : String) : Option Instant :=
  match Time.strictFields s.toList with
  | .ok (fields, []) => fields.toInstant.toOption
  | _ => none

end Instant

end PluginHost
