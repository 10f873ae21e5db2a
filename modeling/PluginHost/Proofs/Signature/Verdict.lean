import Mathlib.Data.List.TakeWhile
import PluginHost.Proofs.Text.Base64
import PluginHost.Proofs.Trust.Interference

/-!
# What a built-in check means

A record is valid if key and signature are the exact base64 texts of 32 and 64 bytes, white
space around them apart, the manifest has a canonical form, and the signature fits. Every
other record is invalid, and only files that cannot be read keep a check from being made.

Results:
1. `Record.verdict_eq_valid_iff`: what it takes for a record to be valid.
2. `verifierOf_failed_iff`: when the check of three files cannot be made.
3. `builtin_check_exact`: both together, and what is never taken for a key or a signature.
-/

namespace PluginHost.Signature

/-! ## Definitions -/

/-- The bytes are the text with white space before and after it. -/
def Around (text bytes : List UInt8) : Prop :=
  ∃ before after, bytes = before ++ text ++ after ∧
    (∀ b ∈ before, isBlankByte b = true) ∧ ∀ b ∈ after, isBlankByte b = true

/-- Key and signature are base64 texts of the right lengths, and under the scheme the
signature fits the canonical form of the manifest. -/
def Record.Holds (scheme : Scheme) (r : Record) : Prop :=
  ∃ key signature message, key.length = 32 ∧ signature.length = 64 ∧
    Around (Base64.encode key) r.key ∧ Around (Base64.encode signature) r.signature ∧
    Json.canonicalBytes r.manifest = .ok message ∧ scheme key message signature = true

/-! ## White space at the ends -/

section Trim

variable {bytes text : List UInt8}

theorem all_takeWhile (bytes : List UInt8) :
    ∀ b ∈ bytes.takeWhile isBlankByte, isBlankByte b = true :=
  fun _ hb => List.mem_takeWhile_imp hb

/-- Nothing but white space is taken off. -/
theorem around_trim (bytes : List UInt8) : Around (trim bytes) bytes := by
  have back := List.takeWhile_append_dropWhile (p := isBlankByte)
    (l := (bytes.dropWhile isBlankByte).reverse)
  refine ⟨bytes.takeWhile isBlankByte,
    ((bytes.dropWhile isBlankByte).reverse.takeWhile isBlankByte).reverse, ?_,
    all_takeWhile bytes, ?_⟩
  · rw [trim, List.append_assoc, ← List.reverse_append, back, List.reverse_reverse,
      List.takeWhile_append_dropWhile]
  · simpa using all_takeWhile (bytes.dropWhile isBlankByte).reverse

theorem dropWhile_solid (solid : ∀ b ∈ text, isBlankByte b = false) :
    text.dropWhile isBlankByte = text := by
  cases text with
  | nil => rfl
  | cons b rest => exact List.dropWhile_cons_of_neg (by simp [solid b])

/-- All white space is taken off a text that has none in it. -/
theorem trim_of_around (solid : ∀ b ∈ text, isBlankByte b = false) (h : Around text bytes) :
    trim bytes = text := by
  obtain ⟨before, after, rfl, hbefore, hafter⟩ := h
  rw [trim, List.append_assoc, List.dropWhile_append_of_pos hbefore]
  cases text with
  | nil => simp [List.dropWhile_eq_nil_iff.mpr hafter]
  | cons b rest =>
    have kept : (b :: rest ++ after).dropWhile isBlankByte = b :: rest ++ after :=
      List.dropWhile_cons_of_neg (by simp [solid b])
    rw [kept, List.reverse_append, List.dropWhile_append_of_pos (by simpa using hafter),
      dropWhile_solid fun x hx => solid x (List.mem_reverse.mp hx), List.reverse_reverse]

theorem around_iff (solid : ∀ b ∈ text, isBlankByte b = false) :
    Around text bytes ↔ trim bytes = text :=
  ⟨trim_of_around solid, fun h => h ▸ around_trim bytes⟩

/-- There is no white space in a base64 text. -/
theorem encode_solid (bytes : List UInt8) : ∀ b ∈ Base64.encode bytes, isBlankByte b = false := by
  -- The alphabet is small enough to be looked through.
  have digits : ∀ v : UInt8, v < 64 → isBlankByte (Base64.digit v) = false := by decide +kernel
  obtain ⟨values, htext, small, -⟩ := Base64.encode_shape bytes
  intro b hb
  rw [htext, List.mem_append, List.mem_map, List.mem_replicate] at hb
  rcases hb with ⟨v, hv, rfl⟩ | ⟨-, rfl⟩
  · exact digits v (small v hv)
  · rfl

end Trim

/-! ## Records -/

variable {scheme : Scheme} {r : Record}

/-- A text is taken for so many bytes if it is their base64 text. -/
theorem decodeExactly_eq_ok_iff {what : String} {length : Nat} {text bytes : List UInt8} :
    decodeExactly what length text = .ok bytes ↔
      bytes.length = length ∧ Around (Base64.encode bytes) text := by
  rw [around_iff (encode_solid bytes), ← Base64.decode?_eq_some_iff]
  unfold decodeExactly
  cases Base64.decode? (trim text) with
  | none => simp
  | some found =>
    by_cases exact : found.length = length
    · simp only [exact, ↓reduceIte, Except.ok.injEq, Option.some.injEq]
      constructor
      · rintro rfl
        exact ⟨exact, rfl⟩
      · exact fun h => h.2
    · simp only [exact, ↓reduceIte, reduceCtorEq, Option.some.injEq, false_iff]
      rintro ⟨right, rfl⟩
      exact exact right

/-- A record is valid if its signature holds. -/
theorem Record.verdict_eq_valid_iff : r.verdict scheme = .valid ↔ r.Holds scheme := by
  have holds : r.Holds scheme ↔ ∃ key signature message,
      decodeExactly "public key" keyLength r.key = .ok key ∧
      decodeExactly "signature" signatureLength r.signature = .ok signature ∧
      Json.canonicalBytes r.manifest = .ok message ∧ scheme key message signature = true := by
    simp only [decodeExactly_eq_ok_iff, keyLength, signatureLength, Record.Holds]
    constructor
    · rintro ⟨key, signature, message, hk, hs, akey, asignature, rest⟩
      exact ⟨key, signature, message, ⟨hk, akey⟩, ⟨hs, asignature⟩, rest⟩
    · rintro ⟨key, signature, message, ⟨hk, akey⟩, ⟨hs, asignature⟩, rest⟩
      exact ⟨key, signature, message, hk, hs, akey, asignature, rest⟩
  rw [holds]
  unfold Record.verdict
  cases decodeExactly "public key" keyLength r.key with
  | error reason => simp
  | ok key =>
    cases decodeExactly "signature" signatureLength r.signature with
    | error reason => simp
    | ok signature =>
      cases Json.canonicalBytes r.manifest with
      | error e => simp
      | ok message => cases fits : scheme key message signature <;> simp [fits]

/-- There is a decision on every record. -/
theorem Record.verdict_cases (scheme : Scheme) (r : Record) :
    r.verdict scheme = .valid ∨ ∃ reason, r.verdict scheme = .invalid reason := by
  unfold Record.verdict
  cases decodeExactly "public key" keyLength r.key with
  | error reason => exact .inr ⟨reason, rfl⟩
  | ok key =>
    cases decodeExactly "signature" signatureLength r.signature with
    | error reason => exact .inr ⟨reason, rfl⟩
    | ok signature =>
      cases Json.canonicalBytes r.manifest with
      | error e => exact .inr ⟨_, rfl⟩
      | ok message => cases fits : scheme key message signature <;> simp [fits]

/-- A record that is not valid is invalid, whatever is wrong with it. -/
theorem Record.verdict_eq_invalid (h : ¬ r.Holds scheme) :
    ∃ reason, r.verdict scheme = .invalid reason :=
  (Record.verdict_cases scheme r).resolve_left (mt verdict_eq_valid_iff.mp h)

/-! ## Files -/

section Files

variable {manifest signature key : String} {fs : Files}

/-- Three files that can be read are read as they are. -/
theorem Record.read_eq_ok {m s k : List UInt8} (hm : fs.read manifest = .ok m)
    (hs : fs.read signature = .ok s) (hk : fs.read key = .ok k) :
    Record.read fs manifest signature key = .ok ⟨m, s, k⟩ := by
  simp [Record.read, hm, hs, hk, bind, Except.bind]

/-- The three files are read unless one of them cannot be. -/
theorem Record.read_eq_error_iff :
    (∃ f, Record.read fs manifest signature key = .error f) ↔
      ∃ path ∈ [manifest, signature, key], ∃ f, fs.read path = .error f := by
  cases hm : fs.read manifest with
  | error f => simp [Record.read, hm, bind, Except.bind]
  | ok m =>
    cases hs : fs.read signature with
    | error f => simp [Record.read, hm, hs, bind, Except.bind]
    | ok s => cases hk : fs.read key <;> simp [Record.read, hm, hs, hk, bind, Except.bind]

/-- A check cannot be made if one of its files cannot be read, and only then. -/
theorem verifierOf_failed_iff :
    (∃ reason, (verifierOf scheme manifest signature key fs).1 = .failed reason) ↔
      ∃ path ∈ [manifest, signature, key], ∃ f, fs.read path = .error f := by
  rw [← Record.read_eq_error_iff]
  unfold verifierOf
  cases Record.read fs manifest signature key with
  | error f => simp
  | ok r => rcases Record.verdict_cases scheme r with h | ⟨reason, h⟩ <;> simp [h]

end Files

/-- The built-in check, whatever scheme decides over signatures. A record is valid if its
signature holds and invalid otherwise. The check of three files fails if one of them cannot
be read, and otherwise it is the decision on what they hold. No key but 43 digits and one
sign that fills up, and no signature but 86 digits and two such signs, is ever accepted, and
the bits that fill up the last digit have to be zero. -/
theorem builtin_check_exact (scheme : Scheme) (r : Record) (manifest signature key : String)
    (fs : Files) :
    (r.verdict scheme = .valid ↔ r.Holds scheme) ∧
    (¬ r.Holds scheme → ∃ reason, r.verdict scheme = .invalid reason) ∧
    ((∃ reason, (verifierOf scheme manifest signature key fs).1 = .failed reason) ↔
      ∃ path ∈ [manifest, signature, key], ∃ f, fs.read path = .error f) ∧
    (∀ m s k, fs.read manifest = .ok m → fs.read signature = .ok s → fs.read key = .ok k →
      verifierOf scheme manifest signature key fs = (Record.verdict scheme ⟨m, s, k⟩, fs)) ∧
    (r.verdict scheme = .valid →
      (∃ text, Around text r.key ∧ text.length = 44 ∧ Base64.Shape 32 text) ∧
      ∃ text, Around text r.signature ∧ text.length = 88 ∧ Base64.Shape 64 text) := by
  refine ⟨Record.verdict_eq_valid_iff, Record.verdict_eq_invalid, verifierOf_failed_iff,
    fun m s k hm hs hk => ?_, fun valid => ?_⟩
  · simp [verifierOf, Record.read_eq_ok hm hs hk]
  · obtain ⟨k, s, -, hk, hs, akey, asignature, -⟩ := Record.verdict_eq_valid_iff.mp valid
    have shape (n : Nat) (bytes : List UInt8) (h : bytes.length = n) :
        (Base64.encode bytes).length = 4 * ((n + 2) / 3) ∧
          Base64.Shape n (Base64.encode bytes) :=
      h ▸ ⟨Base64.length_encode bytes, Base64.encode_shape bytes⟩
    exact ⟨⟨_, akey, shape 32 k hk⟩, ⟨_, asignature, shape 64 s hs⟩⟩

/-- A manifest with its Ed25519 signature is valid, and its key is a text of the right shape. -/
theorem signed_manifest_check :
    Record.verdict Ed25519.verify ⟨Swapped.signed, Swapped.signature, Swapped.key⟩ = .valid ∧
    ∃ text, Around text Swapped.key ∧ text.length = 44 ∧ Base64.Shape 32 text := by
  have valid : Record.verdict Ed25519.verify
      ⟨Swapped.signed, Swapped.signature, Swapped.key⟩ = .valid := by
    decide +kernel
  obtain ⟨-, -, -, -, shapes⟩ := builtin_check_exact Ed25519.verify
    ⟨Swapped.signed, Swapped.signature, Swapped.key⟩ "m" "s" "k" Swapped.files
  exact ⟨valid, (shapes valid).1⟩

end PluginHost.Signature
