import PluginHost.Text.Utf8
import PluginHost.Json.Basic

/-!
# Writing documents

The compact form has no white space outside strings. The indented form puts
each item and each member on a line of its own, two spaces deeper than its
container; an empty container stays on one line.

In a string a quote, a backslash and a control character are escaped, and no
other character is.
-/

namespace PluginHost.Json

def hexDigit (n : Nat) : Char :=
  if n < 10 then Char.ofNat (n + 48) else Char.ofNat (n + 87)

/-- A character inside a string literal. -/
def escapeChar (c : Char) : List Char :=
  match c.toNat with
  | 0x22 => ['\\', c]
  | 0x5C => ['\\', c]
  | 0x08 => ['\\', 'b']
  | 0x09 => ['\\', 't']
  | 0x0A => ['\\', 'n']
  | 0x0C => ['\\', 'f']
  | 0x0D => ['\\', 'r']
  | n => if n < 0x20 then ['\\', 'u', '0', '0', hexDigit (n / 16), hexDigit (n % 16)] else [c]

def quoteMark : Char := '"'

def stringChars (s : String) : List Char :=
  quoteMark :: (s.toList.flatMap escapeChar ++ [quoteMark])

def openBrace : Char := Char.ofNat 0x7B

def closeBrace : Char := Char.ofNat 0x7D

/-- A value that is neither array nor object; the empty text for the others. -/
def Value.scalarChars : Value → List Char
  | .null => ['n', 'u', 'l', 'l']
  | .bool true => ['t', 'r', 'u', 'e']
  | .bool false => ['f', 'a', 'l', 's', 'e']
  | .number n => n.text.toList
  | .string s => stringChars s
  | .array _ => []
  | .object _ => []

mutual

/-- The compact form of a value. -/
def Value.compact : Value → List Char
  | .array [] => ['[', ']']
  | .array (v :: vs) => '[' :: (v.compact ++ compactItems vs ++ [']'])
  | .object [] => [openBrace, closeBrace]
  | .object ((k, v) :: ms) =>
    openBrace :: (stringChars k ++ ':' :: (v.compact ++ compactMembers ms ++ [closeBrace]))
  | .null => Value.null.scalarChars
  | .bool b => (Value.bool b).scalarChars
  | .number n => (Value.number n).scalarChars
  | .string s => (Value.string s).scalarChars

def compactItems : List Value → List Char
  | [] => []
  | v :: vs => ',' :: (v.compact ++ compactItems vs)

def compactMembers : List (String × Value) → List Char
  | [] => []
  | (k, v) :: ms => ',' :: (stringChars k ++ ':' :: (v.compact ++ compactMembers ms))

end

def Value.text (v : Value) : String :=
  String.ofList v.compact

def Value.bytes (v : Value) : List UInt8 :=
  Utf8.encode v.compact

/-- The start of a line, `n` levels deep. -/
def newLine (n : Nat) : List Char :=
  '\n' :: List.replicate (2 * n) ' '

mutual

/-- The indented form of a value that stands `n` levels deep. -/
def Value.indented (n : Nat) : Value → List Char
  | .array [] => ['[', ']']
  | .array (v :: vs) =>
    '[' :: (newLine (n + 1) ++ v.indented (n + 1) ++ indentedItems (n + 1) vs
      ++ newLine n ++ [']'])
  | .object [] => [openBrace, closeBrace]
  | .object ((k, v) :: ms) =>
    openBrace :: (newLine (n + 1) ++ stringChars k ++ ':' :: ' ' :: (v.indented (n + 1)
      ++ indentedMembers (n + 1) ms ++ newLine n ++ [closeBrace]))
  | .null => Value.null.scalarChars
  | .bool b => (Value.bool b).scalarChars
  | .number m => (Value.number m).scalarChars
  | .string s => (Value.string s).scalarChars

def indentedItems (n : Nat) : List Value → List Char
  | [] => []
  | v :: vs => ',' :: (newLine n ++ v.indented n ++ indentedItems n vs)

def indentedMembers (n : Nat) : List (String × Value) → List Char
  | [] => []
  | (k, v) :: ms =>
    ',' :: (newLine n ++ stringChars k ++ ':' :: ' ' :: (v.indented n ++ indentedMembers n ms))

end

def Value.prettyText (v : Value) : String :=
  String.ofList (v.indented 0)

def Value.strings (ss : List String) : Value :=
  .array (ss.map .string)

def Value.string? (s : Option String) : Value :=
  s.elim .null .string

end PluginHost.Json
