import PluginHost.Text.Unseen

/-!
# Quoted text

How diagnostics show a text: between double quotes, with an escape for a quote,
a backslash and every character that has no picture.
-/

namespace PluginHost.Quoted

def hex (n : Nat) : String :=
  String.ofList (Nat.toDigits 16 n)

/-- A character between the quotes. -/
def escape (c : Char) : String :=
  if c.toNat = 0 then "\\0"
  else if c = '\t' then "\\t"
  else if c = '\r' then "\\r"
  else if c = '\n' then "\\n"
  else if c.toNat = 0x22 then "\\\""
  else if c.toNat = 0x5C then "\\\\"
  else if Unseen.isUnseen c then "\\u\x7b" ++ hex c.toNat ++ "\x7d"
  else c.toString

def quote (s : String) : String :=
  "\"" ++ String.join (s.toList.map escape) ++ "\""

end PluginHost.Quoted
