import PluginHost.Text.Ascii
import PluginHost.Json.Cursor

/-!
# String literals

A string literal holds characters and escapes. An escape `\u` gives a UTF-16
unit in four hexadecimal digits; a leading surrogate has to be followed at once
by the escape of a trailing one, and the two together stand for one character.

A string that is only passed over may hold anything up to its closing quote that
has the shape of characters and escapes: units are not paired, and bytes that
are not UTF-8 are not minded.
-/

namespace PluginHost.Json

open Utf8 (Piece)

/-- The value of four hexadecimal digits. -/
def unit? (a b c d : Char) : Option Nat := do
  let a ← Ascii.hexValue? a
  let b ← Ascii.hexValue? b
  let c ← Ascii.hexValue? c
  let d ← Ascii.hexValue? d
  pure (((a * 16 + b) * 16 + c) * 16 + d)

def isLeading (n : Nat) : Bool :=
  0xD800 ≤ n && n ≤ 0xDBFF

def isTrailing (n : Nat) : Bool :=
  0xDC00 ≤ n && n ≤ 0xDFFF

def pairChar (leading trailing : Nat) : Char :=
  Char.ofNat ((leading - 0xD800) * 0x400 + (trailing - 0xDC00) + 0x10000)

/-- The character that a one-letter escape stands for. -/
def shortEscape? (c : Char) : Option Char :=
  if c.toNat = 0x22 then some c
  else if c.toNat = 0x5C then some c
  else match c with
    | '/' => some '/'
    | 'b' => some (Char.ofNat 8)
    | 'f' => some (Char.ofNat 12)
    | 'n' => some '\n'
    | 'r' => some '\r'
    | 't' => some '\t'
    | _ => none

def isControl (c : Char) : Bool :=
  c.toNat < 0x20

namespace Cursor

def atEnd (c : Cursor) : Cursor :=
  ⟨[], placeAfter c.remaining c.rest c.place⟩

/-- Four hexadecimal digits. They are taken as four bytes before they are looked at. -/
def hexUnit (c : Cursor) : Except Error (Nat × Cursor) :=
  match c.rest with
  | .char x₁ :: .char x₂ :: .char x₃ :: .char x₄ :: rest =>
    match unit? x₁ x₂ x₃ x₄ with
    | some n => .ok (n, ⟨rest, ⟨c.place.line, c.place.column + 4⟩⟩)
    | none => .error ⟨.badEscape, some (placeAfter 4 c.rest c.place)⟩
  | _ =>
    if c.remaining < 4 then .error (c.atEnd.fail .endOfString)
    else .error ⟨.badEscape, some (placeAfter 4 c.rest c.place)⟩

def pairMark (c : Cursor) (mark : Char) : Except Error Cursor :=
  match c.peek? with
  | none => .error (c.fail .endOfString)
  | some x => if x = mark then .ok c.advance else .error (c.failNext .escapeEndsEarly)

/-- The character of a `\u` escape; the cursor is after the `u`. -/
def unicodeEscape (c : Cursor) : Except Error (Char × Cursor) := do
  let (first, c) ← c.hexUnit
  if isTrailing first then .error (c.fail .loneSurrogate)
  else if isLeading first then
    let c ← c.pairMark '\\'
    let c ← c.pairMark 'u'
    let (second, c) ← c.hexUnit
    if isTrailing second then .ok (pairChar first second, c)
    else .error (c.fail .loneSurrogate)
  else .ok (Char.ofNat first, c)

/-- The character of an escape; the cursor is after the backslash. -/
def escape (c : Cursor) : Except Error (Char × Cursor) :=
  match c.peek? with
  | none => .error (c.fail .endOfString)
  | some 'u' => c.advance.unicodeEscape
  | some x =>
    match shortEscape? x with
    | some y => .ok (y, c.advance)
    | none => .error (c.failNext .badEscape)

/-- Passes over an escape; the cursor is after the backslash. -/
def skipEscape (c : Cursor) : Except Error Cursor :=
  match c.peek? with
  | none => .error (c.fail .endOfString)
  | some 'u' => c.advance.hexUnit.map (·.2)
  | some x =>
    match shortEscape? x with
    | some _ => .ok c.advance
    | none => .error (c.failNext .badEscape)

/-- Reads a string literal up to its closing quote. `bad` is the place of the
first byte that is not UTF-8, and `fuel` bounds the number of characters. -/
def stringFrom : (fuel : Nat) → (bad : Option Place) → Cursor → Except Error (List Char × Cursor)
  | 0, _, c => .error (c.fail .endOfString)
  | fuel + 1, bad, c =>
    match c.rest with
    | [] => .error (c.fail .endOfString)
    | .bad _ _ :: _ => stringFrom fuel (bad <|> some c.peekPlace) c.advance
    | .char x :: _ =>
      if x.toNat = 0x22 then
        match bad with
        | some p => .error ⟨.badUnicode, some p⟩
        | none => .ok ([], c.advance)
      else if x.toNat = 0x5C then do
        let (y, c) ← c.advance.escape
        let (ys, c) ← stringFrom fuel bad c
        .ok (y :: ys, c)
      else if isControl x then .error (c.failNext .controlInString)
      else do
        let (ys, c) ← stringFrom fuel bad c.advance
        .ok (x :: ys, c)

/-- Reads a string literal; the cursor is after the opening quote. -/
def string (c : Cursor) : Except Error (String × Cursor) := do
  let (cs, c) ← stringFrom (c.rest.length + 1) none c
  .ok (String.ofList cs, c)

/-- Passes over a string literal up to its closing quote. -/
def skipStringFrom : (fuel : Nat) → Cursor → Except Error Cursor
  | 0, c => .error (c.fail .endOfString)
  | fuel + 1, c =>
    match c.rest with
    | [] => .error (c.fail .endOfString)
    | .bad _ _ :: _ => skipStringFrom fuel c.advance
    | .char x :: _ =>
      if x.toNat = 0x22 then .ok c.advance
      else if x.toNat = 0x5C then do
        let c ← c.advance.skipEscape
        skipStringFrom fuel c
      else if isControl x then .error (c.fail .controlInString)
      else skipStringFrom fuel c.advance

/-- Passes over a string literal; the cursor is after the opening quote. -/
def skipString (c : Cursor) : Except Error Cursor :=
  skipStringFrom (c.rest.length + 1) c

end Cursor

end PluginHost.Json
