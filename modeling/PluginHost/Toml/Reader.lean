import PluginHost.Toml.Scalar
import PluginHost.Toml.Tree

/-!
# Reading TOML

A document is a sequence of lines, each of which assigns a value to a key, starts
a table or is blank. Arrays and inline tables may run over several lines.

* `document?` reads a document; the result is the members of its root table.
-/

namespace PluginHost.Toml

/-- The text after blanks, line ends and comments. A comment runs to the end of
its line; `inComment` says that the text starts in one. -/
def skipIdle : (inComment : Bool) → List Char → Option (List Char)
  | _, [] => some []
  | inComment, c :: rest =>
    if c = '\n' then skipIdle false rest
    else if c = '\r' then
      match rest with
      | '\n' :: _ => skipIdle false rest
      | _ => none
    else if inComment then
      if isControl c then none else skipIdle true rest
    else if isBlank c then skipIdle false rest
    else if c = '#' then skipIdle true rest
    else some (c :: rest)

/-- The text after a line's last word: blanks, and then a line end, a comment or
nothing. -/
def endLine (cs : List Char) : Option (List Char) :=
  match skipBlanks cs with
  | [] => some []
  | '#' :: rest => some ('#' :: rest)
  | rest => lineEnd? rest

/-- One part of a key. -/
def keyPart (cs : List Char) : Option (String × List Char) :=
  match cs with
  | '"' :: rest => (basic (cs.length + 1) rest).map fun (s, rest) => (String.ofList s, rest)
  | '\'' :: rest => (literal rest).map fun (s, rest) => (String.ofList s, rest)
  | cs =>
    match cs.takeWhile isBare with
    | [] => none
    | word => some (String.ofList word, cs.dropWhile isBare)

/-- A key with its parts, and the text after the blanks that follow it. `fuel`
bounds the number of parts. -/
def key : (fuel : Nat) → List Char → Option (List String × List Char)
  | 0, _ => none
  | fuel + 1, cs => do
    let (part, rest) ← keyPart cs
    match skipBlanks rest with
    | '.' :: rest =>
      let (parts, rest) ← key fuel (skipBlanks rest)
      some (part :: parts, rest)
    | rest => some ([part], rest)

def depthLimit : Nat := 80

mutual

/-- A value. `fuel` bounds the number of steps, and `depth` is how many more
levels there may be. -/
def value : (fuel : Nat) → (depth : Nat) → List Char → Option (Value × List Char)
  | 0, _, _ => none
  | fuel + 1, depth, cs =>
    match cs with
    | [] => none
    | c :: rest =>
      if c = '"' ∨ c = '\'' then (quoted cs).map fun (s, rest) => (.string (String.ofList s), rest)
      else if c = '[' then
        match depth with
        | 0 => none
        | depth + 1 => (items fuel depth rest).map fun (vs, rest) => (.array vs, rest)
      else if c.toNat = 0x7B then
        match depth with
        | 0 => none
        | depth + 1 => (entries fuel depth [] rest).map fun (ms, rest) => (.table ms.values, rest)
      else scalar cs

/-- The items of an array up to its closing bracket. -/
def items : (fuel : Nat) → (depth : Nat) → List Char → Option (List Value × List Char)
  | 0, _, _ => none
  | fuel + 1, depth, cs => do
    let cs ← skipIdle false cs
    if cs.head? = some ']' then some ([], cs.drop 1)
    else
      let (v, cs) ← value fuel depth cs
      let cs ← skipIdle false cs
      match cs with
      | ',' :: rest =>
        let (vs, rest) ← items fuel depth rest
        some (v :: vs, rest)
      | ']' :: rest => some ([v], rest)
      | _ => none

/-- The members of an inline table up to its closing brace, added to those that
came before. -/
def entries : (fuel : Nat) → (depth : Nat) → Members → List Char → Option (Members × List Char)
  | 0, _, _, _ => none
  | fuel + 1, depth, ms, cs => do
    let cs ← skipIdle false cs
    if cs.head?.any (·.toNat = 0x7D) then some (ms, cs.drop 1)
    else
      let (path, v, cs) ← pair fuel depth cs
      let ms ← ms.assign path v
      let cs ← skipIdle false cs
      match cs with
      | ',' :: rest => entries fuel depth ms rest
      | c :: rest => if c.toNat = 0x7D then some (ms, rest) else none
      | [] => none

/-- A key and its value. -/
def pair : (fuel : Nat) → (depth : Nat) → List Char → Option (List String × Value × List Char)
  | 0, _, _ => none
  | fuel + 1, depth, cs => do
    let (path, cs) ← key (cs.length + 1) cs
    match cs with
    | '=' :: rest =>
      let (v, rest) ← value fuel depth (skipBlanks rest)
      some (path, v, rest)
    | _ => none

end

/-- The tables read so far, and the path of the one that lines are added to. -/
structure Draft where
  root : Members := []
  path : List String := []

/-- A line that starts a table, after its brackets; `close` is what closes it. -/
def header (close : List Char) (cs : List Char) : Option (List String × List Char) := do
  let (path, rest) ← key (cs.length + 1) (skipBlanks cs)
  if close.isPrefixOf rest then some (path, rest.drop close.length) else none

/-- A line that is not blank, and the text after its last word. -/
def line (fuel : Nat) (d : Draft) (cs : List Char) : Option (Draft × List Char) :=
  match cs with
  | '[' :: '[' :: rest => do
    let (path, rest) ← header [']', ']'] rest
    let root ← d.root.addItem path
    some (⟨root, path⟩, rest)
  | '[' :: rest => do
    let (path, rest) ← header [']'] rest
    let root ← d.root.state path
    some (⟨root, path⟩, rest)
  | cs => do
    let (path, v, rest) ← pair fuel depthLimit cs
    let root ← d.root.below d.path (·.assign path v)
    some ({ d with root }, rest)

/-- The lines of a document. `fuel` bounds their number. -/
def lines : (fuel : Nat) → Draft → List Char → Option Draft
  | 0, _, _ => none
  | fuel + 1, d, cs => do
    let cs ← skipIdle false cs
    if cs = [] then some d
    else
      let (d, cs) ← line (3 * cs.length + 3) d cs
      let cs ← endLine cs
      lines fuel d cs

/-- The text after a byte order mark. -/
def afterMark : List Char → List Char
  | [] => []
  | c :: rest => if c.toNat = 0xFEFF then rest else c :: rest

/-- The members of a document, in the order of their keys, if it is well formed. -/
def document? (text : String) : Option (List (String × Value)) :=
  let cs := afterMark text.toList
  (lines (cs.length + 1) {} cs).map fun d => d.root.values

end PluginHost.Toml
