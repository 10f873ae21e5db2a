import PluginHost.Text.Utf8
import PluginHost.Json.Error

/-!
# Where a reader stands

A cursor holds the pieces of the text that have not been read and the place just
after those that have. Columns count bytes.
-/

namespace PluginHost.Json

open Utf8 (Piece)

def Place.after (p : Place) : Piece → Place
  | .char c => if c = '\n' then ⟨p.line + 1, 0⟩ else ⟨p.line, p.column + c.utf8Size⟩
  | .bad bytes _ => ⟨p.line, p.column + bytes.length⟩

/-- The unread rest of a text and the place before it. -/
structure Cursor where
  rest : List Piece
  place : Place
  deriving DecidableEq, Repr, Inhabited

namespace Cursor

def ofBytes (bytes : List UInt8) : Cursor :=
  ⟨Utf8.decode bytes, ⟨1, 0⟩⟩

/-- The next character; bytes that are none count as U+FFFD, which no rule of
the grammar mentions. -/
def peek? (c : Cursor) : Option Char :=
  match c.rest with
  | [] => none
  | .char x :: _ => some x
  | .bad _ _ :: _ => some (Char.ofNat 0xFFFD)

def advance (c : Cursor) : Cursor :=
  match c.rest with
  | [] => c
  | piece :: rest => ⟨rest, c.place.after piece⟩

/-- The place after the next `n` bytes, or at the end if there are fewer. -/
def placeAfter : Nat → List Piece → Place → Place
  | 0, _, p => p
  | _ + 1, [], p => p
  | n + 1, piece :: rest, p =>
    if piece.width ≤ n + 1 then placeAfter (n + 1 - piece.width) rest (p.after piece)
    else ⟨p.line, p.column + (n + 1)⟩
  termination_by _ rest _ => rest.length

def peekPlace (c : Cursor) : Place :=
  placeAfter 1 c.rest c.place

def fail (c : Cursor) (f : Fault) : Error :=
  ⟨f, some c.place⟩

def failNext (c : Cursor) (f : Fault) : Error :=
  ⟨f, some c.peekPlace⟩

def remaining (c : Cursor) : Nat :=
  c.rest.foldr (fun p n => p.width + n) 0

def isSpace (c : Char) : Bool :=
  c = ' ' || c = '\n' || c = '\t' || c = '\r'

def skipSpaceFrom : List Piece → Place → Cursor
  | .char x :: rest, p =>
    if isSpace x then skipSpaceFrom rest (p.after (.char x)) else ⟨.char x :: rest, p⟩
  | rest, p => ⟨rest, p⟩

def skipSpace (c : Cursor) : Cursor :=
  skipSpaceFrom c.rest c.place

/-- The next digits, and the cursor after them. -/
def digitsFrom : List Piece → Place → List Char × Cursor
  | .char x :: rest, p =>
    if '0' ≤ x && x ≤ '9' then
      let (ds, c) := digitsFrom rest (p.after (.char x))
      (x :: ds, c)
    else ([], ⟨.char x :: rest, p⟩)
  | rest, p => ([], ⟨rest, p⟩)

def digits (c : Cursor) : List Char × Cursor :=
  digitsFrom c.rest c.place

end Cursor

end PluginHost.Json
