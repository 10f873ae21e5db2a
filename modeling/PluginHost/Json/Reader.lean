import PluginHost.Json.Literal
import PluginHost.Json.StringLiteral

/-!
# Reading documents

A document is read from left to right, and the first fault ends the reading. The
parts are there for readers that want more than a document as it is: `nextItem`
and `nextKey` step through an array and an object, and `skip` passes over a
value that is of no interest.

A value that is read may nest 127 deep. A value that is passed over may nest to
any depth, and its strings and numbers are not checked for what they stand for.

* `Value.ofBytes` reads a whole document.
-/

namespace PluginHost.Json

/-- How many containers may be open at once. -/
def depthLimit : Nat := 127

namespace Cursor

/-- Passes over the rest of a word. -/
def word (c : Cursor) : List Char → Except Error Cursor
  | [] => .ok c
  | x :: xs =>
    match c.peek? with
    | none => .error (c.fail .endOfValue)
    | some y => if x = y then c.advance.word xs else .error (c.failNext .wordExpected)

/-- Moves to the next item of an array: the cursor before the item, or nothing
with the cursor before the closing bracket. -/
def nextItem (c : Cursor) (first : Bool) : Except Error (Bool × Cursor) :=
  let c := c.skipSpace
  match c.peek? with
  | none => .error (c.fail .endOfArray)
  | some ']' => .ok (false, c)
  | some x =>
    if first then .ok (true, c)
    else if x = ',' then
      let c := c.advance.skipSpace
      match c.peek? with
      | none => .error (c.fail .endOfValue)
      | some ']' => .error (c.failNext .commaAtEnd)
      | some _ => .ok (true, c)
    else .error (c.failNext .arrayCommaExpected)

/-- Moves to the next key of an object: the cursor after the key's opening quote,
or nothing with the cursor before the closing brace. -/
def nextKey (c : Cursor) (first : Bool) : Except Error (Bool × Cursor) :=
  let c := c.skipSpace
  match c.peek? with
  | none => .error (c.fail .endOfObject)
  | some x =>
    if x.toNat = 0x7D then .ok (false, c)
    else if first then
      if x.toNat = 0x22 then .ok (true, c.advance) else .error (c.failNext .keyExpected)
    else if x = ',' then
      let c := c.advance.skipSpace
      match c.peek? with
      | none => .error (c.fail .endOfValue)
      | some y =>
        if y.toNat = 0x22 then .ok (true, c.advance)
        else if y.toNat = 0x7D then .error (c.failNext .commaAtEnd)
        else .error (c.failNext .keyExpected)
    else .error (c.failNext .objectCommaExpected)

/-- Passes over the colon after a key. -/
def colon (c : Cursor) : Except Error Cursor :=
  let c := c.skipSpace
  match c.peek? with
  | none => .error (c.fail .endOfObject)
  | some ':' => .ok c.advance
  | some _ => .error (c.failNext .colonExpected)

/-- Passes over the end of an array whose reader wants no more items. -/
def endArray (c : Cursor) : Except Error Cursor :=
  let c := c.skipSpace
  match c.peek? with
  | none => .error (c.fail .endOfArray)
  | some ']' => .ok c.advance
  | some ',' =>
    let c := c.advance.skipSpace
    match c.peek? with
    | some ']' => .error (c.failNext .commaAtEnd)
    | _ => .error (c.failNext .extraCharacters)
  | some _ => .error (c.failNext .extraCharacters)

/-- Nothing but white space is left. -/
def finish (c : Cursor) : Except Error Unit :=
  let c := c.skipSpace
  match c.peek? with
  | none => .ok ()
  | some _ => .error (c.failNext .extraCharacters)

/-- A value that is neither an array nor an object, if one starts at the cursor. -/
def scalar? (c : Cursor) : Option (Except Error (Value × Cursor)) :=
  match c.peek? with
  | none => some (.error (c.fail .endOfValue))
  | some x =>
    if x = 'n' then some ((c.advance.word ['u', 'l', 'l']).map fun c => (.null, c))
    else if x = 't' then some ((c.advance.word ['r', 'u', 'e']).map fun c => (.bool true, c))
    else if x = 'f' then some ((c.advance.word ['a', 'l', 's', 'e']).map fun c => (.bool false, c))
    else if x = '-' then some ((c.advance.number true).map fun (n, c) => (.number n, c))
    else if Ascii.isDigit x then some ((c.number false).map fun (n, c) => (.number n, c))
    else if x.toNat = 0x22 then some (c.advance.string.map fun (s, c) => (.string s, c))
    else if x = '[' ∨ x.toNat = 0x7B then none
    else some (.error (c.failNext .valueExpected))

mutual

/-- Reads a value. `depth` containers may still be opened, and `fuel` bounds the
number of steps. -/
def valueFrom : (fuel depth : Nat) → Cursor → Except Error (Value × Cursor)
  | 0, _, c => .error (c.fail .endOfValue)
  | fuel + 1, depth, c =>
    let c := c.skipSpace
    match c.scalar? with
    | some result => result
    | none =>
      match depth with
      | 0 => .error (c.failNext .tooDeep)
      | depth + 1 =>
        if c.peek? = some '[' then do
          let (items, c) ← itemsFrom fuel depth true c.advance
          .ok (.array items, c)
        else do
          let (members, c) ← membersFrom fuel depth true c.advance
          .ok (.object members, c)

/-- Reads the items of an array and its closing bracket. -/
def itemsFrom : (fuel depth : Nat) → (first : Bool) → Cursor → Except Error (List Value × Cursor)
  | 0, _, _, c => .error (c.fail .endOfArray)
  | fuel + 1, depth, first, c => do
    let (more, c) ← c.nextItem first
    if !more then .ok ([], c.advance)
    else
      let (v, c) ← valueFrom fuel depth c
      let (vs, c) ← itemsFrom fuel depth false c
      .ok (v :: vs, c)

/-- Reads the members of an object and its closing brace. -/
def membersFrom : (fuel depth : Nat) → (first : Bool) → Cursor →
    Except Error (List (String × Value) × Cursor)
  | 0, _, _, c => .error (c.fail .endOfObject)
  | fuel + 1, depth, first, c => do
    let (more, c) ← c.nextKey first
    if !more then .ok ([], c.advance)
    else
      let (k, c) ← c.string
      let c ← c.colon
      let (v, c) ← valueFrom fuel depth c
      let (ms, c) ← membersFrom fuel depth false c
      .ok ((k, v) :: ms, c)

end

/-- Enough steps for what is left of a text: no step but the last of a container
leaves the cursor where it is. -/
def steps (c : Cursor) : Nat :=
  2 * c.rest.length + 2

/-- Reads a value inside containers, `opened` in number. -/
def value (c : Cursor) (opened : Nat) : Except Error (Value × Cursor) :=
  valueFrom c.steps (depthLimit - opened) c

/-- Passes over a value that is neither an array nor an object, if one starts at
the cursor. -/
def skipScalar? (c : Cursor) : Option (Except Error Cursor) :=
  match c.peek? with
  | none => some (.error (c.fail .endOfValue))
  | some x =>
    if x = 'n' then some (c.advance.word ['u', 'l', 'l'])
    else if x = 't' then some (c.advance.word ['r', 'u', 'e'])
    else if x = 'f' then some (c.advance.word ['a', 'l', 's', 'e'])
    else if x = '-' then some c.advance.skipNumber
    else if Ascii.isDigit x then some c.skipNumber
    else if x.toNat = 0x22 then some c.advance.skipString
    else if x = '[' ∨ x.toNat = 0x7B then none
    else some (.error (c.failNext .valueExpected))

/-- Passes over the opening quote of a key, the key and the colon after it. -/
def skipKey (c : Cursor) : Except Error Cursor :=
  let c := c.skipSpace
  match c.peek? with
  | none => .error (c.fail .endOfObject)
  | some x =>
    if x.toNat = 0x22 then do
      let c ← c.advance.skipString
      c.colon
    else .error (c.failNext .keyExpected)

mutual

/-- Passes over a value. -/
def skipFrom : (fuel : Nat) → Cursor → Except Error Cursor
  | 0, c => .error (c.fail .endOfValue)
  | fuel + 1, c =>
    let c := c.skipSpace
    match c.skipScalar? with
    | some result => result
    | none =>
      if c.peek? = some '[' then
        let c := c.advance.skipSpace
        match c.peek? with
        | none => .error (c.fail .endOfArray)
        | some ']' => .ok c.advance
        | some _ => skipItems fuel c
      else
        let c := c.advance.skipSpace
        match c.peek? with
        | none => .error (c.fail .endOfObject)
        | some x => if x.toNat = 0x7D then .ok c.advance else skipMembers fuel c

/-- Passes over the items of an array, of which there is one more, and its
closing bracket. -/
def skipItems : (fuel : Nat) → Cursor → Except Error Cursor
  | 0, c => .error (c.fail .endOfArray)
  | fuel + 1, c => do
    let c ← skipFrom fuel c
    let c := c.skipSpace
    match c.peek? with
    | none => .error (c.fail .endOfArray)
    | some ']' => .ok c.advance
    | some ',' => skipItems fuel c.advance
    | some _ => .error (c.failNext .arrayCommaExpected)

/-- Passes over the members of an object, of which there is one more, and its
closing brace. -/
def skipMembers : (fuel : Nat) → Cursor → Except Error Cursor
  | 0, c => .error (c.fail .endOfObject)
  | fuel + 1, c => do
    let c ← c.skipKey
    let c ← skipFrom fuel c
    let c := c.skipSpace
    match c.peek? with
    | none => .error (c.fail .endOfObject)
    | some x =>
      if x.toNat = 0x7D then .ok c.advance
      else if x = ',' then skipMembers fuel c.advance
      else .error (c.failNext .objectCommaExpected)

end

def skip (c : Cursor) : Except Error Cursor :=
  skipFrom c.steps c

/-- What stands at the cursor, for a reader that wants something else. A scalar
is read, and an array or object is only looked at. -/
def found (c : Cursor) : Except Error (Found × Cursor) :=
  let c := c.skipSpace
  match c.scalar? with
  | none => .ok (if c.peek? = some '[' then .array else .object, c)
  | some result => do
    let (v, c) ← result
    match v with
    | .null => .ok (.null, c)
    | .bool b => .ok (.bool b, c)
    | .number n => .ok (.number n, c)
    | .string s => .ok (.string s, c)
    | .array _ => .ok (.array, c)
    | .object _ => .ok (.object, c)

/-- The error of a reader that wants something else than what stands here. -/
def wrongType (c : Cursor) (wanted : String) : Error :=
  match c.found with
  | .error e => e
  | .ok (f, c) => c.fail (.wrongType f wanted)

/-- Reads a string; nothing else will do. -/
def text (c : Cursor) (wanted : String) : Except Error (String × Cursor) :=
  let c := c.skipSpace
  match c.peek? with
  | none => .error (c.fail .endOfValue)
  | some x => if x.toNat = 0x22 then c.advance.string else .error (c.wrongType wanted)

end Cursor

def Value.ofBytes (bytes : List UInt8) : Except Error Value := do
  let (v, c) ← (Cursor.ofBytes bytes).value 0
  c.finish
  .ok v

end PluginHost.Json
