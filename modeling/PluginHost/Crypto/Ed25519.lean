import PluginHost.Crypto.Sha512

/-!
# Ed25519

Signatures over the twisted Edwards curve `-x² + y² = 1 + d x² y²` modulo
`2^255 - 19`. A signature is a point and a scalar; it is good when the point has
the encoding of `s B - h A`, for the base point `B`, the key `A` and the hash `h`
of signature point, key and message.

A scalar has to be below the order of the base point. A key may be written with
any `y` below 2^255, and its sign bit is of no effect when `x` is zero.
-/

namespace PluginHost.Ed25519

def fieldModulus : Nat := Nat.pow 2 255 - 19

def order : Nat := Nat.pow 2 252 + 27742317777372353535851937790883648493

/-- `b^e` modulo `m`, for an exponent of at most `bits` bits. -/
def power (m b : Nat) : (bits : Nat) → (e : Nat) → Nat
  | 0, _ => 1 % m
  | bits + 1, e =>
    let half := power m b bits (e / 2)
    let square := half * half % m
    if e % 2 = 0 then square else square * b % m

/-- `b^e` in the field. -/
def fieldPower (b e : Nat) : Nat :=
  power fieldModulus b 256 e

def sub (a b : Nat) : Nat :=
  (a + fieldModulus - b) % fieldModulus

def inverse (a : Nat) : Nat :=
  fieldPower a (fieldModulus - 2)

/-- The constant of the curve, `-121665 / 121666`. -/
def curveConstant : Nat :=
  37095705934669439343138083508754565189542113879843219016388785533085940283555

def rootOfMinusOne : Nat :=
  19681161376707505956807079304988542015446066515923890162744021073123829784752

/-- A point in extended coordinates: `x = X/Z`, `y = Y/Z`, `x y = T/Z`. -/
structure Point where
  x : Nat
  y : Nat
  z : Nat
  t : Nat
  deriving DecidableEq, Repr, Inhabited

namespace Point

def zero : Point := ⟨0, 1, 1, 0⟩

def affine (x y : Nat) : Point := ⟨x, y, 1, x * y % fieldModulus⟩

/-- The sum of two points; the formula holds for equal points too. -/
def add (p q : Point) : Point :=
  let a := sub p.y p.x * sub q.y q.x % fieldModulus
  let b := (p.y + p.x) * (q.y + q.x) % fieldModulus
  let c := 2 * p.t * q.t % fieldModulus * curveConstant % fieldModulus
  let d := 2 * p.z * q.z % fieldModulus
  let e := sub b a
  let f := sub d c
  let g := (d + c) % fieldModulus
  let h := (b + a) % fieldModulus
  ⟨e * f % fieldModulus, g * h % fieldModulus, f * g % fieldModulus, e * h % fieldModulus⟩

def negate (p : Point) : Point :=
  ⟨sub 0 p.x, p.y, p.z, sub 0 p.t⟩

/-- `n` times a point, for an `n` of at most `bits` bits. -/
def times (p : Point) : (bits : Nat) → (n : Nat) → Point
  | 0, _ => zero
  | bits + 1, n =>
    let half := p.times bits (n / 2)
    let double := half.add half
    if n % 2 = 0 then double else double.add p

end Point

def base : Point :=
  .affine 15112221349535400772501151409588531511454012693041857206046113283949847762202
    46316835694926478169428394003475163141307993866256225615783033603165251855960

def littleEndian : List UInt8 → Nat
  | [] => 0
  | b :: rest => b.toNat + 256 * littleEndian rest

/-- `n` bytes of a number, the lowest first. -/
def toLittleEndian : (n : Nat) → Nat → List UInt8
  | 0, _ => []
  | n + 1, value => (value % 256).toUInt8 :: toLittleEndian n (value / 256)

/-- The encoding of a point: `y`, and the parity of `x` in the top bit. -/
def encode (p : Point) : List UInt8 :=
  let i := inverse p.z
  let x := p.x * i % fieldModulus
  let y := p.y * i % fieldModulus
  toLittleEndian 32 (y + x % 2 * Nat.pow 2 255)

/-- A square root of `u / v`, if there is one. -/
def rootOfRatio? (u v : Nat) : Option Nat :=
  let v₃ := v * v % fieldModulus * v % fieldModulus
  let v₇ := v₃ * v₃ % fieldModulus * v % fieldModulus
  let r := u * v₃ % fieldModulus
    * fieldPower (u * v₇ % fieldModulus) ((fieldModulus - 5) / 8) % fieldModulus
  let check := v * (r * r % fieldModulus) % fieldModulus
  if check = u then some r
  else if check = sub 0 u then some (r * rootOfMinusOne % fieldModulus)
  else none

/-- The point with the given encoding, if it lies on the curve. -/
def decode? (bytes : List UInt8) : Option Point :=
  let n := littleEndian bytes
  let y := n % Nat.pow 2 255 % fieldModulus
  let sign := n / Nat.pow 2 255 % 2
  let y₂ := y * y % fieldModulus
  match rootOfRatio? (sub y₂ 1) ((curveConstant * y₂ + 1) % fieldModulus) with
  | none => none
  | some x => some (.affine (if x % 2 = sign then x else sub 0 x) y)

/-- The signature, 64 bytes, is good for the message under the key, 32 bytes. -/
def verify (key message signature : List UInt8) : Bool :=
  let r := signature.take 32
  let s := littleEndian (signature.drop 32)
  if order ≤ s then false
  else match decode? key with
    | none => false
    | some a =>
      let h := littleEndian (Sha512.digest (r ++ key ++ message)) % order
      encode ((base.times 253 s).add (a.negate.times 253 h)) == r

end PluginHost.Ed25519
