import PluginHost.Toml.Literal

/-!
# Writing TOML strings

A string is written in the plainest of several ways that can hold it: between
double quotes if nothing in it has to be escaped, between single quotes if these
can hold it, between triple quotes of either kind, and otherwise between double
quotes with escapes. A tab is no obstacle to any way; it is written as an escape
wherever there are escapes.

* `Style.ofText` chooses how a string is written.
* `stringText` and `keyText` are a string and a key as they are written.
-/

namespace PluginHost.Toml

/-- A way to write a string. -/
inductive Style
  | basic
  | literal
  | multiBasic
  | multiLiteral
  deriving DecidableEq, Repr, Inhabited

/-- The length of the longest run of a character, where `current` of it have just
gone by. -/
def longestRun (x : Char) (current : Nat) : List Char → Nat
  | [] => current
  | c :: rest =>
    if c = x then longestRun x (current + 1) rest
    else max current (longestRun x 0 rest)

/-- What in a string bears on how it can be written. -/
structure Traits where
  control : Bool
  backslash : Bool
  newline : Bool
  doubles : Nat
  singles : Nat
  deriving DecidableEq, Repr, Inhabited

/-- The traits of a string. -/
def Traits.ofText (cs : List Char) : Traits where
  control := cs.any fun c => isControl c && c ≠ '\n'
  backslash := cs.any (· = '\\')
  newline := cs.any (· = '\n')
  doubles := longestRun '"' 0 cs
  singles := longestRun '\'' 0 cs

/-- The first way that holds a string without an escape, tabs left aside. -/
def Traits.plainStyle? (t : Traits) : Option Style :=
  if !t.control && !t.backslash && !t.newline && t.doubles = 0 then some .basic
  else if !t.control && !t.newline && t.singles = 0 then some .literal
  else if !t.control && !t.backslash && t.doubles ≤ 2 then some .multiBasic
  else if !t.control && t.singles ≤ 2 then some .multiLiteral
  else none

def Style.ofText (cs : List Char) : Style :=
  let t := Traits.ofText cs
  t.plainStyle?.getD (if t.newline then .multiBasic else .basic)

def hexDigit (n : Nat) : Char :=
  if n < 10 then Char.ofNat (n + 48) else Char.ofNat (n + 55)

def numberEscape (c : Char) : List Char :=
  ['\\', 'u', '0', '0', hexDigit (c.toNat / 16), hexDigit (c.toNat % 16)]

/-- A character that is no double quote, between double quotes. A line end stands
for itself where the string may run over several lines. -/
def escapeChar (multi : Bool) (c : Char) : List Char :=
  match c.toNat with
  | 0x08 => ['\\', 'b']
  | 0x09 => ['\\', 't']
  | 0x0A => if multi then [c] else ['\\', 'n']
  | 0x0C => ['\\', 'f']
  | 0x0D => ['\\', 'r']
  | 0x5C => ['\\', c]
  | _ => if isControl c then numberEscape c else [c]

/-- A string between double quotes, of which `allowed` may follow each other
without an escape, and `seen` have just gone by. -/
def escaped (multi : Bool) (allowed : Nat) : (seen : Nat) → List Char → List Char
  | _, [] => []
  | seen, c :: rest =>
    if c = '"' then
      if seen < allowed then c :: escaped multi allowed (seen + 1) rest
      else '\\' :: c :: escaped multi allowed 0 rest
    else escapeChar multi c ++ escaped multi allowed 0 rest

/-- A line end after the opening quotes of a string that has one itself. -/
def opening (cs : List Char) : List Char :=
  if cs.any (· = '\n') then ['\n'] else []

/-- A string as it is written in a style that can hold it. -/
def Style.write : Style → List Char → List Char
  | .basic, cs => '"' :: (escaped false 0 0 cs ++ ['"'])
  | .literal, cs => '\'' :: (cs ++ ['\''])
  | .multiBasic, cs =>
    ['"', '"', '"'] ++ opening cs ++ escaped true 2 0 cs ++ ['"', '"', '"']
  | .multiLiteral, cs => ['\'', '\'', '\''] ++ opening cs ++ cs ++ ['\'', '\'', '\'']

def stringText (s : String) : List Char :=
  (Style.ofText s.toList).write s.toList

/-- How a key with quotes is written: on one line. -/
def Style.ofKey (cs : List Char) : Style :=
  let t := Traits.ofText cs
  if !t.control && !t.backslash && !t.newline && t.doubles = 0 then .basic
  else if !t.control && !t.newline && t.singles = 0 then .literal
  else .basic

/-- A key as it is written: without quotes if it can be. -/
def keyText (s : String) : List Char :=
  let cs := s.toList
  if cs ≠ [] ∧ cs.all isBare then cs else (Style.ofKey cs).write cs

end PluginHost.Toml
