import PluginHost.Json.Reader
import PluginHost.Json.Printer

/-!
# Canonical form

Two documents that mean the same have the same canonical form: in every object
each key stands once, with the last of its values, the keys are in increasing
order, and there is no white space outside strings. Strings are ordered by their
characters' code points, which is the order of their bytes.

* `Value.canonical` is the document without its accidents.
* `canonicalBytes` is the byte string that a signature covers.
-/

namespace PluginHost.Json

/-- Gives a key a value in members that are in order, in the place of an earlier
value. -/
def setMember (k : String) (v : Value) : List (String × Value) → List (String × Value)
  | [] => [(k, v)]
  | (k', v') :: rest =>
    if k < k' then (k, v) :: (k', v') :: rest
    else if k = k' then (k, v) :: rest
    else (k', v') :: setMember k v rest

/-- Members in order, each key with its last value. -/
def sortMembers (members : List (String × Value)) : List (String × Value) :=
  members.foldl (fun sorted m => setMember m.1 m.2 sorted) []

mutual

/-- The document that means the same and has sorted keys, none repeated. -/
def Value.canonical : Value → Value
  | .array items => .array (canonicalItems items)
  | .object members => .object (sortMembers (canonicalMembers members))
  | .null => .null
  | .bool b => .bool b
  | .number n => .number n
  | .string s => .string s

def canonicalItems : List Value → List Value
  | [] => []
  | v :: vs => v.canonical :: canonicalItems vs

/-- The members' values in canonical form, the members as they stand. -/
def canonicalMembers : List (String × Value) → List (String × Value)
  | [] => []
  | (k, v) :: ms => (k, v.canonical) :: canonicalMembers ms

end

def canonicalBytes (raw : List UInt8) : Except Error (List UInt8) :=
  (Value.ofBytes raw).map fun v => v.canonical.bytes

end PluginHost.Json
