import PluginHost.Text.Utf8

/-!
# Terminated strings

Text that crosses a plugin table is a byte string without a NUL, or no string
at all. A text with a NUL in it has no such form: it is never cut at the NUL.
-/

namespace PluginHost

/-- A byte string as it crosses a plugin table; `none` is the null pointer. -/
abbrev Terminated := Option (List UInt8)

namespace Terminated

/-- The bytes before the first NUL. -/
def upToNul (bytes : List UInt8) : List UInt8 :=
  bytes.takeWhile (· ≠ 0)

def hasNul (s : String) : Bool :=
  s.toList.any (· = Char.ofNat 0)

/-- The form of a text, if it has one. -/
def ofText? (s : String) : Option (List UInt8) :=
  if hasNul s then none else some (Utf8.bytesOf s)

/-- The text a receiver reads, with U+FFFD for what is not UTF-8. -/
def lossy (t : Terminated) : Option String :=
  t.map Utf8.lossy

theorem ofText?_eq_none_iff {s : String} : ofText? s = none ↔ hasNul s = true := by
  simp [ofText?]

end Terminated

end PluginHost
