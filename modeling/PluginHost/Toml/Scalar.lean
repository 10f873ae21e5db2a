import PluginHost.Text.Ascii
import PluginHost.Text.Split
import PluginHost.Time.Instant
import PluginHost.Toml.Basic
import PluginHost.Toml.Literal

/-!
# TOML numbers, truth values and times

A value without quotes or brackets is a run of characters up to the next
delimiter. A digit may be set off from the next by an underscore. An integer in
base ten has no superfluous zero in front; one in base two, eight or sixteen has
no sign. A date and a time of day may be parted by a blank instead of a `T`.

* `scalar?` is the value that a run of characters stands for.
-/

namespace PluginHost.Toml

/-- Digits with single underscores between them, without the underscores. -/
def digits? (isDigit : Char → Bool) (cs : List Char) : Option (List Char) :=
  let groups := splitOn '_' cs
  if groups.all fun g => g ≠ [] && g.all isDigit then some groups.flatten else none

def numberIn (base : Nat) (ds : List Char) : Nat :=
  ds.foldl (fun n d => n * base + (Ascii.hexValue? d).getD 0) 0

def isDigitIn (base : Nat) (c : Char) : Bool :=
  (Ascii.hexValue? c).any (· < base)

def signed : List Char → Bool × List Char
  | '+' :: rest => (false, rest)
  | '-' :: rest => (true, rest)
  | cs => (false, cs)

def decimalDigits? (cs : List Char) : Option (List Char) := do
  let ds ← digits? Ascii.isDigit cs
  if ds.length ≠ 1 ∧ ds.head? = some '0' then none else some ds

/-- An integer in base ten. -/
def decimal? (cs : List Char) : Option Int := do
  let (negative, rest) := signed cs
  let ds ← decimalDigits? rest
  let n : Int := Ascii.decimal ds
  some (if negative then -n else n)

def based? (base : Nat) (cs : List Char) : Option Int := do
  let ds ← digits? (isDigitIn base) cs
  some (numberIn base ds : Nat)

/-- An integer of any base. -/
def integer? : List Char → Option Int
  | '0' :: 'x' :: rest => based? 16 rest
  | '0' :: 'o' :: rest => based? 8 rest
  | '0' :: 'b' :: rest => based? 2 rest
  | cs => decimal? cs

/-- The exponent of a float. -/
def exponent? (cs : List Char) : Option Int := do
  let (negative, rest) := signed cs
  let ds ← digits? Ascii.isDigit rest
  let n : Int := Ascii.decimal ds
  some (if negative then -n else n)

/-- The parts before and after the first character of a class. -/
def cutAt (p : Char → Bool) (cs : List Char) : List Char × Option (List Char) :=
  match cs.dropWhile fun c => !p c with
  | [] => (cs, none)
  | _ :: rest => (cs.takeWhile fun c => !p c, some rest)

/-- The binary64 value nearest to `n * 10^e`. -/
def nearest (n : Nat) (e : Int) : Float :=
  match e with
  | .ofNat k => Float.ofScientific n false k
  | .negSucc k => Float.ofScientific n true (k + 1)

/-- A value whose first digit stands further than this from the point is zero or
infinite. -/
def placeLimit : Nat := 5000

/-- The nearest value, exponents out of all range cut short. -/
def scaled (ds : List Char) (e : Int) : Float :=
  let n := Ascii.decimal ds
  let first : Int := e + (Nat.toDigits 10 n).length
  if n = 0 then 0.0
  else if (placeLimit : Int) < first then 1.0 / 0.0
  else if first < -(placeLimit : Int) then 0.0
  else nearest n e

/-- A finite float: digits with a fraction, an exponent or both. -/
def finite? (cs : List Char) : Option Float := do
  let (before, exponent) := cutAt (fun c => c = 'e' || c = 'E') cs
  let (whole, fraction) := cutAt (· = '.') before
  if exponent.isNone && fraction.isNone then none
  else
    let ds ← decimalDigits? whole
    let fs ← match fraction with
      | none => some []
      | some f => digits? Ascii.isDigit f
    let e ← match exponent with
      | none => some 0
      | some e => exponent? e
    let value := scaled (ds ++ fs) (e - fs.length)
    if value.isInf then none else some value

/-- A float. -/
def float? (cs : List Char) : Option UInt64 := do
  let (negative, rest) := signed cs
  let value ←
    if rest = "inf".toList then some (1.0 / 0.0 : Float)
    else if rest = "nan".toList then some (0.0 / 0.0 : Float)
    else finite? rest
  some (if negative then -value else value).toBits

/-- The number of exactly `width` digits, and what follows them. -/
def fixed (width : Nat) (cs : List Char) : Option (Nat × List Char) :=
  let ds := cs.take width
  if ds.length = width ∧ ds.all Ascii.isDigit then some (Ascii.decimal ds, cs.drop width)
  else none

def after (c : Char) : List Char → Option (List Char)
  | [] => none
  | x :: rest => if x = c then some rest else none

/-- The text after a date. -/
def afterDate (cs : List Char) : Option (List Char) := do
  let (year, cs) ← fixed 4 cs
  let cs ← after '-' cs
  let (month, cs) ← fixed 2 cs
  let cs ← after '-' cs
  let (day, cs) ← fixed 2 cs
  if Date.isReal ⟨year, month, day⟩ then some cs else none

/-- The text after the seconds of a time of day, with their fraction. -/
def afterSeconds (cs : List Char) : Option (List Char) := do
  let (second, cs) ← fixed 2 cs
  if 60 < second then none
  else match cs with
    | '.' :: rest =>
      if rest.head?.any Ascii.isDigit then some (rest.dropWhile Ascii.isDigit) else none
    | cs => some cs

/-- The text after a time of day, whose seconds may be missing. -/
def afterClock (cs : List Char) : Option (List Char) := do
  let (hour, cs) ← fixed 2 cs
  let cs ← after ':' cs
  let (minute, cs) ← fixed 2 cs
  if 23 < hour ∨ 59 < minute then none
  else match cs with
    | ':' :: rest => afterSeconds rest
    | cs => some cs

/-- The text is an offset from UTC. -/
def isOffset : List Char → Bool
  | ['Z'] => true
  | ['z'] => true
  | c :: rest =>
    (c = '+' || c = '-') &&
      ((do
        let (hour, cs) ← fixed 2 rest
        let cs ← after ':' cs
        let (minute, cs) ← fixed 2 cs
        some (decide (hour ≤ 24 ∧ minute ≤ 59 ∧ cs = []))) : Option Bool).getD false
  | [] => false

/-- A date and a time of day may be parted by this character. -/
def isParting (c : Char) : Bool :=
  c = 'T' || c = 't' || c = ' '

/-- The text is a date, a time of day, or both, then with an offset or without. -/
def isTime (cs : List Char) : Bool :=
  match afterDate cs with
  | some [] => true
  | some (c :: rest) =>
    isParting c &&
      match afterClock rest with
      | some [] => true
      | some offset => isOffset offset
      | none => false
  | none => afterClock cs = some []

/-- The value of a run of characters. -/
def scalar? (cs : List Char) : Option Value :=
  if cs = "true".toList then some (.boolean true)
  else if cs = "false".toList then some (.boolean false)
  else match integer? cs with
    | some n =>
      if integerRange.1 ≤ n ∧ n < integerRange.2 then some (.integer n) else none
    | none =>
      match float? cs with
      | some bits => some (.float bits)
      | none => if isTime cs then some (.time (String.ofList cs)) else none

/-- A run of characters ends before this one. -/
def isDelimiter (c : Char) : Bool :=
  isBlank c || c = '\n' || c = '\r' || c = ',' || c = ']' || c.toNat = 0x7D || c = '#'

/-- A run of characters, and what follows it. A blank after a date belongs to the
run if a time of day follows. -/
def run (cs : List Char) : List Char × List Char :=
  let word := cs.takeWhile fun c => !isDelimiter c
  let rest := cs.dropWhile fun c => !isDelimiter c
  match afterDate word, rest with
  | some [], ' ' :: a :: b :: ':' :: _ =>
    if Ascii.isDigit a && Ascii.isDigit b then
      let clock := (rest.drop 1).takeWhile fun c => !isDelimiter c
      (word ++ ' ' :: clock, (rest.drop 1).dropWhile fun c => !isDelimiter c)
    else (word, rest)
  | _, _ => (word, rest)

def scalar (cs : List Char) : Option (Value × List Char) :=
  let (word, rest) := run cs
  (scalar? word).map fun v => (v, rest)

end PluginHost.Toml
