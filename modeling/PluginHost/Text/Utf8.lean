/-!
# UTF-8

Bytes are read as a list of pieces: a character, or a run of bytes that no
character starts with. Every byte lands in exactly one piece, so a reader that
cares only about characters and one that has to report where the text stops
being UTF-8 share one decoder.

A bad run is the longest start of a character that the bytes allow, and at
least one byte. It is `cut` when the bytes ended inside it.

* `decode` splits bytes into pieces.
* `text?` is the text of bytes that are UTF-8 throughout.
* `lossy` puts U+FFFD in the place of each bad run.
* `encode` writes characters as bytes.
-/

namespace PluginHost.Utf8

/-- A character, or a run of bytes that is none. -/
inductive Piece
  | char (c : Char)
  | bad (bytes : List UInt8) (cut : Bool)
  deriving DecidableEq, Repr, Inhabited

/-- A character whose first bytes have been read: the bytes so far, the value
they carry, how many bytes are still owed, and the range of the next one. -/
structure Pending where
  seen : List UInt8
  code : Nat
  owed : Nat
  low : UInt8
  high : UInt8
  deriving DecidableEq, Repr

/-- What a byte does between characters. Overlong forms, surrogates and values
above U+10FFFF are kept out by the range of the second byte. -/
def lead (b : UInt8) : List Piece × Option Pending :=
  if b < 0x80 then ([.char (Char.ofNat b.toNat)], none)
  else if b < 0xC2 then ([.bad [b] false], none)
  else if b < 0xE0 then ([], some ⟨[b], b.toNat - 0xC0, 1, 0x80, 0xBF⟩)
  else if b = 0xE0 then ([], some ⟨[b], 0, 2, 0xA0, 0xBF⟩)
  else if b = 0xED then ([], some ⟨[b], 0xD, 2, 0x80, 0x9F⟩)
  else if b < 0xF0 then ([], some ⟨[b], b.toNat - 0xE0, 2, 0x80, 0xBF⟩)
  else if b = 0xF0 then ([], some ⟨[b], 0, 3, 0x90, 0xBF⟩)
  else if b < 0xF4 then ([], some ⟨[b], b.toNat - 0xF0, 3, 0x80, 0xBF⟩)
  else if b = 0xF4 then ([], some ⟨[b], 4, 3, 0x80, 0x8F⟩)
  else ([.bad [b] false], none)

/-- What a byte does after the start of a character. -/
def Pending.next (p : Pending) (b : UInt8) : List Piece × Option Pending :=
  if p.low ≤ b ∧ b ≤ p.high then
    let code := p.code * 64 + (b.toNat - 0x80)
    if p.owed ≤ 1 then ([.char (Char.ofNat code)], none)
    else ([], some ⟨p.seen ++ [b], code, p.owed - 1, 0x80, 0xBF⟩)
  else
    let (out, pending) := lead b
    (.bad p.seen false :: out, pending)

/-- The pieces of the bytes that follow a state between or inside characters. -/
def decodeFrom : Option Pending → List UInt8 → List Piece
  | none, [] => []
  | some p, [] => [.bad p.seen true]
  | none, b :: rest => (lead b).1 ++ decodeFrom (lead b).2 rest
  | some p, b :: rest => (p.next b).1 ++ decodeFrom (p.next b).2 rest

/-- The pieces of a byte string. -/
def decode (bytes : List UInt8) : List Piece :=
  decodeFrom none bytes

def encode (cs : List Char) : List UInt8 :=
  cs.flatMap String.utf8EncodeChar

def bytesOf (s : String) : List UInt8 :=
  encode s.toList

def Piece.width : Piece → Nat
  | .char c => c.utf8Size
  | .bad bytes _ => bytes.length

/-- The characters of the pieces, with `substitute` for each bad run. -/
def charsWith (substitute : Char) : List Piece → List Char
  | [] => []
  | .char c :: rest => c :: charsWith substitute rest
  | .bad _ _ :: rest => substitute :: charsWith substitute rest

/-- The text of the bytes with U+FFFD for each bad run. -/
def lossy (bytes : List UInt8) : String :=
  String.ofList (charsWith (Char.ofNat 0xFFFD) (decode bytes))

/-- Where a byte string stops being UTF-8: the bytes before that point, and the
length of the bad run, or none when the bytes end inside a character. -/
structure Fault where
  validUpTo : Nat
  badLength : Option Nat
  deriving DecidableEq, Repr

def Fault.message (f : Fault) : String :=
  match f.badLength with
  | some n => s!"invalid utf-8 sequence of {n} bytes from index {f.validUpTo}"
  | none => s!"incomplete utf-8 byte sequence from index {f.validUpTo}"

/-- The characters of pieces without a bad run; `before` is the number of bytes
already read. -/
def charsOf (before : Nat) : List Piece → Except Fault (List Char)
  | [] => .ok []
  | .char c :: rest => (charsOf (before + c.utf8Size) rest).map (c :: ·)
  | .bad bytes cut :: _ => .error ⟨before, if cut then none else some bytes.length⟩

/-- The text of bytes that are UTF-8 throughout, or the first fault. -/
def text (bytes : List UInt8) : Except Fault String :=
  (charsOf 0 (decode bytes)).map String.ofList

/-- The text of bytes that are UTF-8 throughout. -/
def text? (bytes : List UInt8) : Option String :=
  (text bytes).toOption

@[simp] theorem encode_nil : encode [] = [] := rfl

@[simp] theorem encode_cons (c : Char) (cs : List Char) :
    encode (c :: cs) = String.utf8EncodeChar c ++ encode cs := rfl

@[simp] theorem encode_append (a b : List Char) : encode (a ++ b) = encode a ++ encode b := by
  simp [encode]

@[simp] theorem decode_nil : decode [] = [] := rfl

/-- An ASCII byte is a piece of its own, wherever it stands between characters. -/
theorem decode_ascii_cons {b : UInt8} (h : b < 0x80) (rest : List UInt8) :
    decode (b :: rest) = .char (Char.ofNat b.toNat) :: decode rest := by
  simp [decode, decodeFrom, lead, h]

end PluginHost.Utf8
