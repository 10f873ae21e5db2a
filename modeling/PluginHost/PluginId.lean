import PluginHost.Text.Ascii
import PluginHost.Text.Split

/-!
# Plugin ids

A plugin is named by a reverse-domain identifier such as `org.example.notes`:
at least two segments with a dot between them, each an ASCII letter or digit
followed by ASCII letters, digits, `_` and `-`.

* `isValid` reads an id from left to right.
* `IsReverseDomain` says the same by way of the segments.
-/

namespace PluginHost.PluginId

/-- A character that may stand inside a segment. -/
def isInner (c : Char) : Bool :=
  Ascii.isAlnum c || c == '_' || c == '-'

/-- Reads the rest of an id. `dotted` says that a dot has been read, `fresh`
that a segment is about to begin. -/
def scan (dotted fresh : Bool) : List Char → Bool
  | [] => dotted && !fresh
  | c :: rest =>
    if fresh then Ascii.isAlnum c && scan dotted false rest
    else if c = '.' then scan true true rest
    else isInner c && scan dotted false rest

/-- The text is a plugin id. -/
def isValid (s : String) : Bool :=
  scan false true s.toList

/-- A segment of an id. -/
def IsSegment : List Char → Prop
  | [] => False
  | c :: rest => Ascii.isAlnum c = true ∧ ∀ d ∈ rest, isInner d = true

/-- At least two segments, each well formed. -/
def IsReverseDomain (s : String) : Prop :=
  2 ≤ (splitOn '.' s.toList).length ∧ ∀ seg ∈ splitOn '.' s.toList, IsSegment seg

end PluginHost.PluginId
