/-!
# ASCII character classes

The classes that identifiers, versions and option names are made of. None of
them holds a character outside ASCII.
-/

namespace PluginHost.Ascii

def isDigit (c : Char) : Bool :=
  '0' ≤ c && c ≤ '9'

def isLetter (c : Char) : Bool :=
  ('a' ≤ c && c ≤ 'z') || ('A' ≤ c && c ≤ 'Z')

def isAlnum (c : Char) : Bool :=
  isLetter c || isDigit c

def digitValue (c : Char) : Nat :=
  c.toNat - '0'.toNat

/-- A hexadecimal digit's value. -/
def hexValue? (c : Char) : Option Nat :=
  if isDigit c then some (digitValue c)
  else if 'a' ≤ c && c ≤ 'f' then some (c.toNat - 'a'.toNat + 10)
  else if 'A' ≤ c && c ≤ 'F' then some (c.toNat - 'A'.toNat + 10)
  else none

/-- The number that a row of digits denotes, read on from `start`. -/
def decimalFrom (start : Nat) (cs : List Char) : Nat :=
  cs.foldl (fun n c => n * 10 + digitValue c) start

def decimal (cs : List Char) : Nat :=
  decimalFrom 0 cs

def lower (s : String) : String :=
  String.ofList (s.toList.map fun c =>
    if 'A' ≤ c && c ≤ 'Z' then Char.ofNat (c.toNat + 32) else c)

end PluginHost.Ascii
