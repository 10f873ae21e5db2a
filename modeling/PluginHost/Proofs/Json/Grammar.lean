import Mathlib.Algebra.Group.Nat.Defs
import PluginHost.Text.Ascii
import PluginHost.Proofs.Text.Utf16

/-!
# The grammar of documents

What a text of a document is, apart from any reader. A document here keeps what a text
says and not how it is laid out: its number literals are kept as they are written, its
strings as rows of UTF-16 units, and an object has its members in their order, repeated
keys included.

* `Literal` is a number literal.
* `Content` relates the units of a string to what may stand between its quotes.
* `Spells` relates a document to its texts, and `Doc.IsText` to the bytes of a text with
  white space around it.
-/

namespace PluginHost.Json

/-! ## Number literals -/

/-- At least one digit, and nothing else. -/
def Digits (ds : List Char) : Prop :=
  ds ≠ [] ∧ ∀ c ∈ ds, Ascii.isDigit c = true

/-- An integer part has no zero in front of another digit. -/
def IntegerPart (ds : List Char) : Prop :=
  Digits ds ∧ (ds.head? = some '0' → ds = ['0'])

/-- The exponent of a literal. -/
structure Exponent where
  letter : Char
  sign : List Char
  digits : List Char
  isLetter : letter = 'e' ∨ letter = 'E'
  isSign : sign = [] ∨ sign = ['+'] ∨ sign = ['-']
  isDigits : Digits digits

def Exponent.chars (e : Exponent) : List Char :=
  e.letter :: (e.sign ++ e.digits)

/-- A number literal. -/
structure Literal where
  negative : Bool
  whole : List Char
  fraction : Option (List Char)
  exponent : Option Exponent
  isWhole : IntegerPart whole
  isFraction : ∀ ds ∈ fraction, Digits ds

namespace Literal

def signChars (l : Literal) : List Char :=
  if l.negative then ['-'] else []

def fractionChars (l : Literal) : List Char :=
  l.fraction.elim [] fun ds => '.' :: ds

def exponentChars (l : Literal) : List Char :=
  l.exponent.elim [] Exponent.chars

/-- A literal without its sign, as it is written. -/
def unsignedChars (l : Literal) : List Char :=
  l.whole ++ (l.fractionChars ++ l.exponentChars)

/-- A literal as it is written. -/
def chars (l : Literal) : List Char :=
  l.signChars ++ l.unsignedChars

/-- The literal is that of an integer of 64 bits, with or without a sign, and not `-0`. -/
def Integral (l : Literal) : Prop :=
  l.fraction = none ∧ l.exponent = none ∧
    if l.negative then 0 < Ascii.decimal l.whole ∧ Ascii.decimal l.whole ≤ 2 ^ 63
    else Ascii.decimal l.whole < 2 ^ 64

end Literal

/-! ## Strings -/

/-- The hexadecimal digit of a value, in either case. -/
def IsHexDigit (v : Nat) (c : Char) : Prop :=
  "0123456789abcdef".toList[v]? = some c ∨ "0123456789ABCDEF".toList[v]? = some c

/-- Four hexadecimal digits of a unit. -/
def IsUnit (u : UInt16) (a b c d : Char) : Prop :=
  ∃ i j k l, IsHexDigit i a ∧ IsHexDigit j b ∧ IsHexDigit k c ∧ IsHexDigit l d ∧
    u.toNat = ((i * 16 + j) * 16 + k) * 16 + l

/-- The escapes of one letter, and the characters that they stand for. -/
def shortEscapes : List (Char × Char) :=
  [('"', '"'), ('\\', '\\'), ('/', '/'), ('b', '\x08'), ('f', '\x0c'), ('n', '\n'), ('r', '\r'),
    ('t', '\t')]

/-- The units of a string, and what may stand between its quotes for them.

* `plain`: a character stands for itself, unless it is a quote, a backslash or a control.
* `short`: a backslash and a letter.
* `unit`: a backslash, `u` and the four digits of one unit. -/
inductive Content : List UInt16 → List Char → Prop
  | nil : Content [] []
  | plain {c : Char} {us : List UInt16} {t : List Char} :
      c ≠ '"' → c ≠ '\\' → 0x20 ≤ c.toNat → Content us t → Content (Utf16.ofChar c ++ us) (c :: t)
  | short {x c : Char} {us : List UInt16} {t : List Char} :
      (x, c) ∈ shortEscapes → Content us t → Content (Utf16.ofChar c ++ us) ('\\' :: x :: t)
  | unit {u : UInt16} {a b c d : Char} {us : List UInt16} {t : List Char} :
      IsUnit u a b c d → Content us t → Content (u :: us) ('\\' :: 'u' :: a :: b :: c :: d :: t)

/-! ## Documents -/

/-- A document as its texts have it. -/
inductive Doc
  | null
  | bool (b : Bool)
  | number (l : Literal)
  | string (units : List UInt16)
  | array (items : List Doc)
  | object (members : List (List UInt16 × Doc))

/-- White space. -/
def Blank (t : List Char) : Prop :=
  ∀ c ∈ t, c = ' ' ∨ c = '\t' ∨ c = '\n' ∨ c = '\r'

mutual

/-- The texts of a document, without white space around them. -/
inductive Spells : Doc → List Char → Prop
  | null : Spells .null ['n', 'u', 'l', 'l']
  | yes : Spells (.bool true) ['t', 'r', 'u', 'e']
  | no : Spells (.bool false) ['f', 'a', 'l', 's', 'e']
  | number (l : Literal) : Spells (.number l) l.chars
  | string {us : List UInt16} {t : List Char} :
      Content us t → Spells (.string us) ('"' :: (t ++ ['"']))
  | noItems {w : List Char} : Blank w → Spells (.array []) ('[' :: (w ++ [']']))
  | items {d : Doc} {ds : List Doc} {w t ts : List Char} :
      Blank w → Spells d t → MoreItems ds ts → Spells (.array (d :: ds)) ('[' :: (w ++ t ++ ts))
  | noMembers {w : List Char} : Blank w → Spells (.object []) ('{' :: (w ++ ['}']))
  | members {k : List UInt16} {d : Doc} {ms : List (List UInt16 × Doc)} {w t ts : List Char} :
      Blank w → IsMember k d t → MoreMembers ms ts →
      Spells (.object ((k, d) :: ms)) ('{' :: (w ++ t ++ ts))

/-- The texts of a member: a string, a colon and a document. -/
inductive IsMember : List UInt16 → Doc → List Char → Prop
  | mk {k : List UInt16} {d : Doc} {s w w' t : List Char} :
      Content k s → Blank w → Blank w' → Spells d t →
      IsMember k d ('"' :: (s ++ '"' :: (w ++ ':' :: (w' ++ t))))

/-- Further items of an array, each after a comma, and the closing bracket. -/
inductive MoreItems : List Doc → List Char → Prop
  | close {w : List Char} : Blank w → MoreItems [] (w ++ [']'])
  | item {d : Doc} {ds : List Doc} {w w' t ts : List Char} :
      Blank w → Blank w' → Spells d t → MoreItems ds ts →
      MoreItems (d :: ds) (w ++ ',' :: (w' ++ t ++ ts))

/-- Further members of an object, each after a comma, and the closing brace. -/
inductive MoreMembers : List (List UInt16 × Doc) → List Char → Prop
  | close {w : List Char} : Blank w → MoreMembers [] (w ++ ['}'])
  | member {k : List UInt16} {d : Doc} {ms : List (List UInt16 × Doc)} {w w' t ts : List Char} :
      Blank w → Blank w' → IsMember k d t → MoreMembers ms ts →
      MoreMembers ((k, d) :: ms) (w ++ ',' :: (w' ++ t ++ ts))

end

/-- The bytes are a text of the document, with white space around it. -/
def Doc.IsText (d : Doc) (bytes : List UInt8) : Prop :=
  ∃ w t w', Blank w ∧ Spells d t ∧ Blank w' ∧
    Utf8.text? bytes = some (String.ofList (w ++ (t ++ w')))

mutual

/-- The number literals of a document, at every depth. -/
def Doc.literals : Doc → List Literal
  | .number l => [l]
  | .array items => literalsOfItems items
  | .object members => literalsOfMembers members
  | .null => []
  | .bool _ => []
  | .string _ => []

def literalsOfItems : List Doc → List Literal
  | [] => []
  | d :: ds => d.literals ++ literalsOfItems ds

def literalsOfMembers : List (List UInt16 × Doc) → List Literal
  | [] => []
  | (_, d) :: ms => d.literals ++ literalsOfMembers ms

end

end PluginHost.Json
