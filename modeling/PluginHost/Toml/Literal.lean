import PluginHost.Text.Ascii

/-!
# TOML strings

A string stands between quotes. Between double quotes a backslash starts an
escape; between single quotes every character stands for itself. Between three
quotes of either kind the string may run over several lines, a line end straight
after the opening quotes does not count, and one or two quotes may stand anywhere
in it, at its end too.

Each reader is given the text after the opening quotes and answers with the
string and the text after the closing ones.

* `basic` and `multiBasic` read between double quotes.
* `literal` and `multiLiteral` read between single quotes.
* `quoted` reads a string of any of the four kinds.
-/

namespace PluginHost.Toml

def isBlank (c : Char) : Bool :=
  c = ' ' || c = '\t'

def skipBlanks (cs : List Char) : List Char :=
  cs.dropWhile isBlank

/-- A character that may stand nowhere but in an escape or at a line's end. -/
def isControl (c : Char) : Bool :=
  (c.toNat < 0x20 && c ≠ '\t') || c.toNat = 0x7F

def isBare (c : Char) : Bool :=
  Ascii.isAlnum c || c = '_' || c = '-'

def lineEnd? : List Char → Option (List Char)
  | '\n' :: rest => some rest
  | '\r' :: '\n' :: rest => some rest
  | _ => none

def hexNumber? (ds : List Char) : Option Nat :=
  ds.foldlM (fun n d => (Ascii.hexValue? d).map (n * 16 + ·)) 0

/-- The character with a number; the numbers of surrogates and those that are too
large have none. -/
def charOf? (n : Nat) : Option Char :=
  if n.isValidChar then some (Char.ofNat n) else none

/-- A character given by the first `width` hexadecimal digits. -/
def numbered (width : Nat) (cs : List Char) : Option (Char × List Char) := do
  if cs.length < width then none
  else
    let n ← hexNumber? (cs.take width)
    let c ← charOf? n
    some (c, cs.drop width)

/-- The character that an escape stands for; the text starts after the backslash. -/
def escape : List Char → Option (Char × List Char)
  | [] => none
  | c :: rest =>
    match c with
    | 'b' => some (Char.ofNat 0x08, rest)
    | 't' => some ('\t', rest)
    | 'n' => some ('\n', rest)
    | 'f' => some (Char.ofNat 0x0C, rest)
    | 'r' => some ('\r', rest)
    | 'e' => some (Char.ofNat 0x1B, rest)
    | '"' => some (c, rest)
    | '\\' => some (c, rest)
    | 'x' => numbered 2 rest
    | 'u' => numbered 4 rest
    | 'U' => numbered 8 rest
    | _ => none

/-- A string of one line between double quotes. `fuel` bounds its length. -/
def basic : (fuel : Nat) → List Char → Option (List Char × List Char)
  | 0, _ => none
  | _ + 1, [] => none
  | fuel + 1, c :: rest =>
    if c = '"' then some ([], rest)
    else if c = '\\' then do
      let (e, rest) ← escape rest
      let (s, rest) ← basic fuel rest
      some (e :: s, rest)
    else if isControl c then none
    else do
      let (s, rest) ← basic fuel rest
      some (c :: s, rest)

/-- A string of one line between single quotes. -/
def literal : List Char → Option (List Char × List Char)
  | [] => none
  | c :: rest =>
    if c = '\'' then some ([], rest)
    else if isControl c then none
    else (literal rest).map fun (s, rest) => (c :: s, rest)

/-- Where the text starts with three quotes or more, a string ends: up to two of
the quotes belong to it. -/
def closing? (quote : Char) (cs : List Char) : Option (List Char × List Char) :=
  let run := (cs.takeWhile (· = quote)).length
  if run < 3 then none
  else
    let taken := min run 5
    some (List.replicate (taken - 3) quote, cs.drop taken)

/-- The text after blanks and line ends. -/
def skipLines : List Char → List Char
  | [] => []
  | c :: rest =>
    if isBlank c || c = '\n' then skipLines rest
    else match c, rest with
      | '\r', '\n' :: rest => skipLines rest
      | c, rest => c :: rest

/-- Where a backslash has nothing after it on its line but blanks, the text at
which the string goes on. -/
def continued? (cs : List Char) : Option (List Char) :=
  (lineEnd? (skipBlanks cs)).map skipLines

/-- A line end that stands in a string, or else a single character that may. -/
def plain : List Char → Option (List Char × List Char)
  | [] => none
  | '\n' :: rest => some (['\n'], rest)
  | '\r' :: '\n' :: rest => some (['\r', '\n'], rest)
  | c :: rest => if isControl c then none else some ([c], rest)

/-- A string between triple double quotes. -/
def multiBasic : (fuel : Nat) → List Char → Option (List Char × List Char)
  | 0, _ => none
  | fuel + 1, cs =>
    match closing? '"' cs with
    | some ended => some ended
    | none =>
      match cs with
      | '\\' :: rest =>
        match continued? rest with
        | some rest => multiBasic fuel rest
        | none => do
          let (e, rest) ← escape rest
          let (s, rest) ← multiBasic fuel rest
          some (e :: s, rest)
      | cs => do
        let (head, rest) ← plain cs
        let (s, rest) ← multiBasic fuel rest
        some (head ++ s, rest)

/-- A string between triple single quotes. -/
def multiLiteral : (fuel : Nat) → List Char → Option (List Char × List Char)
  | 0, _ => none
  | fuel + 1, cs =>
    match closing? '\'' cs with
    | some ended => some ended
    | none => do
      let (head, rest) ← plain cs
      let (s, rest) ← multiLiteral fuel rest
      some (head ++ s, rest)

/-- The text after opening triple quotes, less a line end that comes first. -/
def afterOpening (cs : List Char) : List Char :=
  (lineEnd? cs).getD cs

/-- A string with its quotes, of any kind. -/
def quoted (cs : List Char) : Option (List Char × List Char) :=
  match cs with
  | '"' :: '"' :: '"' :: rest => multiBasic (cs.length + 1) (afterOpening rest)
  | '\'' :: '\'' :: '\'' :: rest => multiLiteral (cs.length + 1) (afterOpening rest)
  | '"' :: rest => basic (cs.length + 1) rest
  | '\'' :: rest => literal rest
  | _ => none

end PluginHost.Toml
