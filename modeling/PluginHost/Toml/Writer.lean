import PluginHost.Toml.Style

/-!
# Laying out TOML

Each table has a header of its own, and an empty line stands before every header
but the first. An array of two items or more has each item on a line of its own.

* `Section.text` is a table with its header.
* `sectionsText` is a document.
-/

namespace PluginHost.Toml

/-- A value that a table is written with. -/
inductive Entry
  | boolean (b : Bool)
  | count (n : Nat)
  | string (s : String)
  | strings (ss : List String)
  deriving DecidableEq, Repr, Inhabited

def itemLine (s : String) : List Char :=
  List.replicate 4 ' ' ++ stringText s ++ [',', '\n']

def arrayText : List String → List Char
  | [] => ['[', ']']
  | [s] => '[' :: (stringText s ++ [']'])
  | ss => '[' :: '\n' :: (ss.flatMap itemLine ++ [']'])

/-- A value as it is written. -/
def Entry.text : Entry → List Char
  | .boolean true => "true".toList
  | .boolean false => "false".toList
  | .count n => Nat.toDigits 10 n
  | .string s => stringText s
  | .strings ss => arrayText ss

/-- A table: its path, and its entries in order. -/
structure Section where
  path : List String
  entries : List (String × Entry)
  deriving DecidableEq, Repr, Inhabited

def entryLine (e : String × Entry) : List Char :=
  keyText e.1 ++ [' ', '=', ' '] ++ e.2.text ++ ['\n']

def pathText : List String → List Char
  | [] => []
  | [key] => keyText key
  | key :: rest => keyText key ++ '.' :: pathText rest

def Section.text (s : Section) : List Char :=
  '[' :: (pathText s.path ++ [']', '\n'] ++ s.entries.flatMap entryLine)

def sectionsText : List Section → List Char
  | [] => []
  | [s] => s.text
  | s :: rest => s.text ++ '\n' :: sectionsText rest

end PluginHost.Toml
