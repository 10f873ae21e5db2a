/-!
# Base64

Three bytes are written as four digits of six bits. A text of one or two bytes
more is filled up with `=` to a multiple of four. Only the exact text is read
back: no digit is missing or left over, and the bits that fill up the last digit
are zero.

* `encode` writes bytes.
* `decode?` reads a text.
-/

namespace PluginHost.Base64

/-- The digit of a value below 64, in ASCII. -/
def digit (n : UInt8) : UInt8 :=
  if n < 26 then n + 65
  else if n < 52 then n + 71
  else if n < 62 then n - 4
  else if n = 62 then 43
  else 47

/-- The value of a digit. -/
def value? (c : UInt8) : Option UInt8 :=
  if 65 ≤ c ∧ c ≤ 90 then some (c - 65)
  else if 97 ≤ c ∧ c ≤ 122 then some (c - 71)
  else if 48 ≤ c ∧ c ≤ 57 then some (c + 4)
  else if c = 43 then some 62
  else if c = 47 then some 63
  else none

/-- The sign that fills up the last group. -/
def fill : UInt8 := 61

/-- The text of a byte string. -/
def encode : List UInt8 → List UInt8
  | [] => []
  | [a] => [digit (a >>> 2), digit ((a &&& 3) <<< 4), fill, fill]
  | [a, b] => [digit (a >>> 2), digit ((a &&& 3) <<< 4 ||| b >>> 4), digit ((b &&& 15) <<< 2), fill]
  | a :: b :: c :: rest =>
    digit (a >>> 2) :: digit ((a &&& 3) <<< 4 ||| b >>> 4)
      :: digit ((b &&& 15) <<< 2 ||| c >>> 6) :: digit (c &&& 63) :: encode rest

/-- The bytes of a last group, which may be filled up. -/
def decodeLast? (w x y z : UInt8) : Option (List UInt8) := do
  let w ← value? w
  let x ← value? x
  if y = fill then
    if z = fill ∧ x &&& 15 = 0 then some [w <<< 2 ||| x >>> 4] else none
  else
    let y ← value? y
    if z = fill then
      if y &&& 3 = 0 then some [w <<< 2 ||| x >>> 4, x <<< 4 ||| y >>> 2] else none
    else
      let z ← value? z
      some [w <<< 2 ||| x >>> 4, x <<< 4 ||| y >>> 2, y <<< 6 ||| z]

/-- The bytes of a group that is not the last. -/
def decodeGroup? (w x y z : UInt8) : Option (List UInt8) := do
  let w ← value? w
  let x ← value? x
  let y ← value? y
  let z ← value? z
  some [w <<< 2 ||| x >>> 4, x <<< 4 ||| y >>> 2, y <<< 6 ||| z]

/-- The bytes that a text stands for. -/
def decode? : List UInt8 → Option (List UInt8)
  | [] => some []
  | [w, x, y, z] => decodeLast? w x y z
  | w :: x :: y :: z :: rest => do
    let front ← decodeGroup? w x y z
    let back ← decode? rest
    some (front ++ back)
  | _ => none

end PluginHost.Base64
