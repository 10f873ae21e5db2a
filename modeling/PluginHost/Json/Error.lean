import PluginHost.Text.Quoted
import PluginHost.Json.Basic

/-!
# What can be wrong with a document

A fault is a cause; an error is a fault with the place where reading stopped,
when there is one. A document may break the grammar, and it may be well formed
and still not be what the reader wants.
-/

namespace PluginHost.Json

/-- What was found where something else was wanted. -/
inductive Found
  | null
  | bool (b : Bool)
  | number (n : Number)
  | string (s : String)
  | array
  | object
  deriving DecidableEq, Repr, Inhabited

/-- A cause of failure. -/
inductive Fault
  | endOfValue
  | endOfString
  | endOfArray
  | endOfObject
  | colonExpected
  | arrayCommaExpected
  | objectCommaExpected
  | wordExpected
  | valueExpected
  | badEscape
  | badNumber
  | numberTooLarge
  | badUnicode
  | controlInString
  | keyExpected
  | loneSurrogate
  | escapeEndsEarly
  | commaAtEnd
  | extraCharacters
  | tooDeep
  | wrongType (found : Found) (wanted : String)
  | wrongLength (length : Nat) (wanted : String)
  | unknownVariant (name : String) (variants : List String)
  | missingField (name : String)
  | repeatedField (name : String)
  | badText (reason : String)
  deriving DecidableEq, Repr, Inhabited

/-- A line, counted from one, and how many bytes of it have been passed. -/
structure Place where
  line : Nat
  column : Nat
  deriving DecidableEq, Repr, Inhabited

/-- A fault and where it was noticed. -/
structure Error where
  fault : Fault
  place : Option Place
  deriving DecidableEq, Repr, Inhabited

/-- How diagnostics name what was found. -/
def Found.describe : Found → String
  | .null => "null"
  | .bool true => "boolean `true`"
  | .bool false => "boolean `false`"
  | .number (.real bits) => "floating point `" ++ (Number.real bits).text ++ "`"
  | .number n => "integer `" ++ n.text ++ "`"
  | .string s => "string " ++ Quoted.quote s
  | .array => "sequence"
  | .object => "map"

/-- The names of the variants that would have been right. -/
def oneOf (variants : List String) : String :=
  let quoted := variants.map fun v => "`" ++ v ++ "`"
  match quoted with
  | [] => "there are no variants"
  | [a] => "expected " ++ a
  | [a, b] => "expected " ++ a ++ " or " ++ b
  | many => "expected one of " ++ ", ".intercalate many

/-- The text of a fault. -/
def Fault.message : Fault → String
  | .endOfValue => "EOF while parsing a value"
  | .endOfString => "EOF while parsing a string"
  | .endOfArray => "EOF while parsing a list"
  | .endOfObject => "EOF while parsing an object"
  | .colonExpected => "expected `:`"
  | .arrayCommaExpected => "expected `,` or `]`"
  | .objectCommaExpected => "expected `,` or `\x7d`"
  | .wordExpected => "expected ident"
  | .valueExpected => "expected value"
  | .badEscape => "invalid escape"
  | .badNumber => "invalid number"
  | .numberTooLarge => "number out of range"
  | .badUnicode => "invalid unicode code point"
  | .controlInString => "control character (\\u0000-\\u001F) found while parsing a string"
  | .keyExpected => "key must be a string"
  | .loneSurrogate => "lone leading surrogate in hex escape"
  | .escapeEndsEarly => "unexpected end of hex escape"
  | .commaAtEnd => "trailing comma"
  | .extraCharacters => "trailing characters"
  | .tooDeep => "recursion limit exceeded"
  | .wrongType found wanted => "invalid type: " ++ found.describe ++ ", expected " ++ wanted
  | .wrongLength length wanted => "invalid length " ++ toString length ++ ", expected " ++ wanted
  | .unknownVariant name variants => "unknown variant `" ++ name ++ "`, " ++ oneOf variants
  | .missingField name => "missing field `" ++ name ++ "`"
  | .repeatedField name => "duplicate field `" ++ name ++ "`"
  | .badText reason => reason

def Error.message (e : Error) : String :=
  match e.place with
  | some p => e.fault.message ++ s!" at line {p.line} column {p.column}"
  | none => e.fault.message

end PluginHost.Json
