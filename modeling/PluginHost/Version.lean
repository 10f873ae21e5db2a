import PluginHost.Text.Ascii
import PluginHost.Text.Split

/-!
# Semantic versions

Three numbers, then an optional pre-release after `-` and an optional build
after `+`, each a row of dot-separated identifiers. A number has no leading zero
and is below 2^64; an identifier of the pre-release that is all digits has no
leading zero either.

* `Version.ofText?` reads a version.
* `Version.text` writes it.
-/

namespace PluginHost

/-- A version; an empty list of identifiers means that the part is absent. -/
structure Version where
  major : Nat
  minor : Nat
  patch : Nat
  pre : List String := []
  build : List String := []
  deriving DecidableEq, Repr, Inhabited

namespace Version

def isPlainNumber (cs : List Char) : Bool :=
  !cs.isEmpty && cs.all Ascii.isDigit && (cs.length == 1 || cs.head? != some '0')

/-- A number at the front of the text, and what follows it. -/
def number? (cs : List Char) : Option (Nat × List Char) :=
  let digits := cs.takeWhile Ascii.isDigit
  if isPlainNumber digits && Ascii.decimal digits < Nat.pow 2 64 then
    some (Ascii.decimal digits, cs.dropWhile Ascii.isDigit)
  else none

/-- What follows the character `c` at the front of the text. -/
def after? (c : Char) : List Char → Option (List Char)
  | [] => none
  | d :: rest => if d = c then some rest else none

def isIdentifierChar (c : Char) : Bool :=
  Ascii.isAlnum c || c == '-'

/-- An identifier of a build: not empty. -/
def isBuildIdentifier (cs : List Char) : Bool :=
  !cs.isEmpty && cs.all isIdentifierChar

/-- An identifier of a pre-release: if it is all digits, without a leading zero. -/
def isPreIdentifier (cs : List Char) : Bool :=
  isBuildIdentifier cs && (!cs.all Ascii.isDigit || isPlainNumber cs)

def identifiers? (ok : List Char → Bool) (cs : List Char) : Option (List String) :=
  let parts := splitOn '.' cs
  if parts.all ok then some (parts.map String.ofList) else none

/-- The build after its `+`, or nothing at all. -/
def build? (cs : List Char) : Option (List String) :=
  match cs with
  | [] => some []
  | '+' :: rest => identifiers? isBuildIdentifier rest
  | _ :: _ => none

/-- The pre-release after its `-`, if there is one, and the build. -/
def suffix? (cs : List Char) : Option (List String × List String) :=
  match cs with
  | '-' :: rest => do
    let part := rest.takeWhile (· ≠ '+')
    let pre ← identifiers? isPreIdentifier part
    let build ← build? (rest.dropWhile (· ≠ '+'))
    pure (pre, build)
  | _ => do
    let build ← build? cs
    pure ([], build)

/-- The version that a text is. -/
def ofText? (s : String) : Option Version := do
  let (major, rest) ← number? s.toList
  let rest ← after? '.' rest
  let (minor, rest) ← number? rest
  let rest ← after? '.' rest
  let (patch, rest) ← number? rest
  let (pre, build) ← suffix? rest
  pure ⟨major, minor, patch, pre, build⟩

/-- The pre-release as it is written after its `-`. -/
def preText (v : Version) : String :=
  ".".intercalate v.pre

/-- The build as it is written after its `+`. -/
def buildText (v : Version) : String :=
  ".".intercalate v.build

/-- The text of a version. -/
def text (v : Version) : String :=
  let numbers := s!"{v.major}.{v.minor}.{v.patch}"
  let pre := if v.pre.isEmpty then "" else "-" ++ v.preText
  let build := if v.build.isEmpty then "" else "+" ++ v.buildText
  numbers ++ pre ++ build

end Version

end PluginHost
