import PluginHost.Text.Base64
import PluginHost.Crypto.Ed25519
import PluginHost.Json.Canonical

/-!
# Signatures of manifests

A manifest is signed over its canonical form. Key and signature are base64 texts,
and white space around them is ignored.

* `Record.verdict` decides over three byte strings, for any signature scheme.
* `Outcome` keeps apart a signature that does not hold and a check that could not
  be made.
-/

namespace PluginHost.Signature

/-- What a check came to. -/
inductive Outcome
  | valid
  | invalid (reason : String)
  | failed (reason : String)
  deriving DecidableEq, Repr, Inhabited

namespace Outcome

/-- The signature holds. -/
def isValid : Outcome → Bool
  | .valid => true
  | _ => false

/-- Zero if the signature holds, one if it does not, two if there was no check. -/
def exitCode : Outcome → Nat
  | .valid => 0
  | .invalid _ => 1
  | .failed _ => 2

def text : Outcome → String
  | .valid => "valid"
  | .invalid reason => s!"invalid: {reason}"
  | .failed reason => s!"error: {reason}"

theorem isValid_iff {o : Outcome} : o.isValid = true ↔ o = .valid := by
  cases o <;> simp [isValid]

theorem isValid_iff_exitCode {o : Outcome} : o.isValid = true ↔ o.exitCode = 0 := by
  cases o <;> simp [isValid, exitCode]

end Outcome

/-- A scheme says of a key, a message and a signature whether they fit. -/
abbrev Scheme := (key message signature : List UInt8) → Bool

/-- What a check looks at. -/
structure Record where
  manifest : List UInt8
  signature : List UInt8
  key : List UInt8
  deriving DecidableEq, Repr, Inhabited

/-- A space, a tab, a form feed, or the end of a line. -/
def isBlankByte (b : UInt8) : Bool :=
  b = 0x20 || b = 0x09 || b = 0x0A || b = 0x0C || b = 0x0D

def trim (bytes : List UInt8) : List UInt8 :=
  ((bytes.dropWhile isBlankByte).reverse.dropWhile isBlankByte).reverse

def keyLength : Nat := 32

def signatureLength : Nat := 64

/-- The bytes of a base64 text that has to stand for `length` of them, or what
is wrong with it. -/
def decodeExactly (what : String) (length : Nat) (text : List UInt8) :
    Except String (List UInt8) :=
  match Base64.decode? (trim text) with
  | none => .error s!"{what} is not valid base64"
  | some bytes =>
    let n := bytes.length
    if n = length then .ok bytes else .error s!"{what} is {n} bytes, expected {length}"

namespace Record

/-- The decision on a record, under a scheme. -/
def verdict (scheme : Scheme) (r : Record) : Outcome :=
  match decodeExactly "public key" keyLength r.key with
  | .error reason => .invalid reason
  | .ok key =>
    match decodeExactly "signature" signatureLength r.signature with
    | .error reason => .invalid reason
    | .ok signature =>
      match Json.canonicalBytes r.manifest with
      | .error _ => .invalid "manifest is not valid JSON"
      | .ok message =>
        if scheme key message signature then .valid
        else .invalid "signature does not match manifest"

/-- The decision on a record with an Ed25519 signature. -/
def verify (r : Record) : Outcome :=
  r.verdict Ed25519.verify

end Record

end PluginHost.Signature
