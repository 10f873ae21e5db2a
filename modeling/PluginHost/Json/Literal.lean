import PluginHost.Text.Ascii
import PluginHost.Json.Cursor

/-!
# Number literals

A literal is an integer part without a superfluous zero, an optional fraction
and an optional exponent. An integer literal that fits 64 bits is kept exactly.
Any other literal becomes a binary64 value in three steps: as many digits as fit
64 bits are kept as a whole number, that number is rounded to binary64, and the
result is multiplied or divided once by a power of ten. Two roundings make the
last binary place inexact for long literals, and always in the same way.

A literal whose value is too large is an error, and one that is too small
becomes zero.
-/

namespace PluginHost.Json

/-- The digits of a literal that are kept, and the power of ten they are scaled by. -/
structure Scaled where
  significand : Nat
  exponent : Int
  deriving DecidableEq, Repr, Inhabited

namespace Scaled

def limit : Nat := Nat.pow 2 64 - 1

/-- One more digit of the integer part; a digit that does not fit, and all that
follow it, are replaced by a factor of ten. -/
def pushInteger (s : Scaled) (d : Nat) : Scaled :=
  if s.exponent = 0 ∧ s.significand * 10 + d ≤ limit then ⟨s.significand * 10 + d, 0⟩
  else ⟨s.significand, s.exponent + 1⟩

def pushFraction (s : Scaled) (d : Nat) : Scaled :=
  ⟨s.significand * 10 + d, s.exponent - 1⟩

def ofDigits (ds : List Char) : Scaled :=
  ds.foldl (fun s c => s.pushInteger (Ascii.digitValue c)) ⟨0, 0⟩

/-- The digits of the fraction up to the first that does not fit. -/
def fraction (s : Scaled) : List Char → Scaled
  | [] => s
  | c :: rest =>
    if s.significand * 10 + Ascii.digitValue c ≤ limit then
      (s.pushFraction (Ascii.digitValue c)).fraction rest
    else s

/-- A power of ten as a binary64 value. -/
def tenTo (n : Nat) : Float :=
  Float.ofScientific 1 false n

/-- Divides by `10^n`, in steps of 308 places; after three of them nothing is left. -/
def shrink (f : Float) (n : Nat) : (steps : Nat) → Float
  | 0 => 0.0
  | steps + 1 =>
    if n ≤ 308 then f / tenTo n
    else if f == 0.0 then f
    else shrink (f / tenTo 308) (n - 308) steps

/-- The binary64 value, if it is not too large. -/
def toFloat? (s : Scaled) : Option Float :=
  let f := s.significand.toUInt64.toFloat
  match s.exponent with
  | .ofNat n =>
    if n ≤ 308 then
      let product := f * tenTo n
      if product.isInf then none else some product
    else if s.significand = 0 then some f
    else none
  | .negSucc n => some (shrink f (n + 1) 4)

end Scaled

def exponentLimit : Nat := Nat.pow 2 31 - 1

/-- Reads the digits of an exponent on from `e`: its value, or nothing and the
place after the digit with which it passes the limit. -/
def exponentDigits (e : Nat) (c : Cursor) : List Char → Nat × Option Cursor
  | [] => (e, none)
  | d :: rest =>
    let e' := e * 10 + Ascii.digitValue d
    if e' ≤ exponentLimit then exponentDigits e' c.advance rest
    else (e, some c.advance)

namespace Cursor

def real (c : Cursor) (negative : Bool) (s : Scaled) : Except Error (Number × Cursor) :=
  match s.toFloat? with
  | none => .error (c.fail .numberTooLarge)
  | some f => .ok (.real (if negative then -f else f).toBits, c)

/-- The sign of an exponent, and the cursor after it. -/
def exponentSign (c : Cursor) : Bool × Cursor :=
  match c.peek? with
  | some '+' => (false, c.advance)
  | some '-' => (true, c.advance)
  | _ => (false, c)

/-- The exponent of a literal; the cursor is after the `e`. -/
def exponent (c : Cursor) (negative : Bool) (s : Scaled) : Except Error (Number × Cursor) :=
  let (down, c) := c.exponentSign
  match c.peek? with
  | none => .error (c.fail .endOfValue)
  | some d =>
    if !Ascii.isDigit d then .error (c.failNext .badNumber)
    else
      let (ds, after) := c.digits
      match exponentDigits 0 c ds with
      | (e, none) =>
        let e : Int := if down then -(e : Int) else e
        after.real negative { s with exponent := s.exponent + e }
      | (_, some stop) =>
        if s.significand ≠ 0 ∧ !down then .error (stop.fail .numberTooLarge)
        else after.real negative ⟨0, 0⟩

/-- The exponent, if one follows. -/
def exponent? (c : Cursor) (negative : Bool) (s : Scaled) : Except Error (Number × Cursor) :=
  match c.peek? with
  | some 'e' => c.advance.exponent negative s
  | some 'E' => c.advance.exponent negative s
  | _ => c.real negative s

/-- The fraction of a literal; the cursor is after the point. -/
def fraction (c : Cursor) (negative : Bool) (s : Scaled) : Except Error (Number × Cursor) :=
  match c.digits with
  | ([], _) =>
    match c.peek? with
    | none => .error (c.fail .endOfValue)
    | some _ => .error (c.failNext .badNumber)
  | (ds, after) => after.exponent? negative (s.fraction ds)

/-- The number of an integer literal, if it fits. -/
def whole? (negative : Bool) (s : Scaled) : Option Number :=
  if s.exponent ≠ 0 then none
  else if !negative then some (.whole s.significand)
  else if s.significand = 0 ∨ Nat.pow 2 63 < s.significand then none
  else some (.negative s.significand)

/-- What follows the integer part. -/
def afterInteger (c : Cursor) (negative : Bool) (s : Scaled) : Except Error (Number × Cursor) :=
  match c.peek? with
  | some '.' => c.advance.fraction negative s
  | some 'e' => c.advance.exponent negative s
  | some 'E' => c.advance.exponent negative s
  | _ =>
    match whole? negative s with
    | some n => .ok (n, c)
    | none => c.real negative s

def atDigit (c : Cursor) : Bool :=
  c.peek?.any Ascii.isDigit

/-- A literal; the cursor is after the sign, if there is one. -/
def number (c : Cursor) (negative : Bool) : Except Error (Number × Cursor) :=
  match c.peek? with
  | none => .error (c.fail .endOfValue)
  | some '0' =>
    if c.advance.atDigit then .error (c.advance.failNext .badNumber)
    else c.advance.afterInteger negative ⟨0, 0⟩
  | some d =>
    if !Ascii.isDigit d then .error (c.failNext .badNumber)
    else
      let (ds, after) := c.digits
      after.afterInteger negative (Scaled.ofDigits ds)

/-- Skips the exponent of a literal; the cursor is after the `e`. -/
def skipExponent (c : Cursor) : Except Error Cursor :=
  let c := c.exponentSign.2
  if c.atDigit then .ok c.digits.2 else .error (c.failNext .badNumber)

/-- Skips the exponent, if one follows. -/
def skipExponent? (c : Cursor) : Except Error Cursor :=
  match c.peek? with
  | some 'e' => c.advance.skipExponent
  | some 'E' => c.advance.skipExponent
  | _ => .ok c

/-- Skips what follows the integer part. -/
def skipAfterInteger (c : Cursor) : Except Error Cursor :=
  match c.peek? with
  | some '.' =>
    if c.advance.atDigit then c.advance.digits.2.skipExponent?
    else .error (c.advance.failNext .badNumber)
  | _ => c.skipExponent?

/-- Skips a literal, whatever its size; the cursor is after the sign. -/
def skipNumber (c : Cursor) : Except Error Cursor :=
  match c.peek? with
  | some '0' =>
    if c.advance.atDigit then .error (c.advance.failNext .badNumber)
    else c.advance.skipAfterInteger
  | _ =>
    if c.atDigit then c.digits.2.skipAfterInteger else .error (c.failNext .badNumber)

end Cursor

end PluginHost.Json
