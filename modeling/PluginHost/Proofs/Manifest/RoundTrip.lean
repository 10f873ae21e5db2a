import PluginHost.Manifest.Printer
import PluginHost.Proofs.Manifest.Signed
import PluginHost.Proofs.Signature.Verdict

/-!
# Manifests are read as they were written

A manifest is written with its fields in their order, an absent description left out, and it
is signed over the canonical form of that text, which has the fields in another order. Both
texts are read as the manifest.

Results:
1. `ofValue?_toValue`: the document that is written is that of the manifest.
2. `ofBytes_text`: a manifest is read from its text.
3. `canonicalBytes_text`: a manifest that is written has a canonical form.
4. `written_manifest_survives`: both forms are read as the manifest, a signature over the
   canonical one holds, and no two manifests have the same one.
-/

namespace PluginHost.Manifest

open Json (Value)
open Signature (Record Scheme)

/-! ## The document of a manifest -/

section Document

variable {m : Manifest}

theorem mapM_text?_strings (ss : List String) : (ss.map Value.string).mapM Value.text? = some ss := by
  induction ss with
  | nil => rfl
  | cons s ss ih =>
    rw [List.map_cons, mapM_text?_cons, ih]
    rfl

theorem texts?_strings (ss : List String) : (Value.strings ss).texts? = some ss :=
  mapM_text?_strings ss

/-- The members that are written are read as the fields of the manifest. -/
theorem take?_members (m : Manifest) : ∃ d : Draft, d.toManifest = .ok m ∧
    Draft.take? {} ([("id", .string m.id), ("name", .string m.name), ("version", .string m.version)]
      ++ m.descriptionMember ++ [("capabilities", .strings m.capabilities)]) = some d := by
  have key (f : Field) : Field.ofKey? f.key = some f := Field.ofKey?_eq_some_iff.mpr rfl
  have id : Field.ofKey? "id" = some .id := key .id
  have name : Field.ofKey? "name" = some .name := key .name
  have version : Field.ofKey? "version" = some .version := key .version
  have description : Field.ofKey? "description" = some .description := key .description
  have capabilities : Field.ofKey? "capabilities" = some .capabilities := key .capabilities
  have others : m.descriptionMember = m.description.toList.map fun s => ("description", .string s) := by
    cases h : m.description <;> simp [descriptionMember, h]
  refine ⟨⟨some m.id, some m.name, some m.version, m.description.map some, some m.capabilities⟩,
    ?_, ?_⟩
  · cases m with
    | mk i n v d cs => cases d <;> rfl
  · rw [others]
    cases m.description <;>
      simp [Draft.take?, Draft.has, Draft.fill?, id, name, version, description, capabilities,
        Value.text?, Value.optional?, texts?_strings]

/-- The document that is written is that of the manifest. -/
theorem ofValue?_toValue (m : Manifest) : ofValue? m.toValue = some m := by
  obtain ⟨d, manifest, taken⟩ := take?_members m
  rw [toValue, ofValue?, taken, Option.bind_some, manifest]
  rfl

/-- Strings alone are written, and they stand two containers deep at most. -/
theorem fits_toValue (m : Manifest) : m.toValue.Fits Json.depthLimit := by
  refine .object fun member hm => ?_
  simp only [List.mem_append, List.mem_cons, List.not_mem_nil, or_false] at hm
  rcases hm with ((rfl | rfl | rfl) | described) | rfl
  · exact .string m.id
  · exact .string m.name
  · exact .string m.version
  · unfold descriptionMember at described
    split at described
    · cases described
    · rw [List.mem_singleton.mp described]
      exact .string _
  · refine .array fun v hv => ?_
    obtain ⟨s, -, rfl⟩ := List.mem_map.mp hv
    exact .string s

end Document

/-! ## The two texts of a manifest -/

section Texts

/-- A manifest is read from its text. -/
theorem ofBytes_text (m : Manifest) : ofBytes (Utf8.bytesOf m.text) = .ok m := by
  have same := ofBytes_eq m.toValue.isText_bytes m.toValue.denotes_doc
  rw [ofValue?_toValue] at same
  rw [text, Value.bytesOf_text]
  exact toOption_eq_some_iff.mp same

/-- A manifest that is written has a canonical form. -/
theorem canonicalBytes_text (m : Manifest) :
    Json.canonicalBytes (Utf8.bytesOf m.text) = .ok m.toValue.canonical.bytes := by
  rw [text, Value.bytesOf_text, Json.canonicalBytes, Value.ofBytes_bytes (fits_toValue m)]
  rfl

/-- The canonical form of the text is read as the manifest as well. -/
theorem ofBytes_canonical (m : Manifest) : ofBytes m.toValue.canonical.bytes = .ok m := by
  have same := ofBytes_eq m.toValue.canonical.isText_bytes m.toValue.canonical.denotes_doc
  rw [ofValue?_canonical (ofValue?_toValue m)] at same
  exact toOption_eq_some_iff.mp same

theorem canonical_bytes_injective {m m' : Manifest}
    (same : m'.toValue.canonical.bytes = m.toValue.canonical.bytes) : m' = m := by
  have read := ofBytes_canonical m'
  rw [same, ofBytes_canonical m] at read
  exact (Except.ok.inj read).symm

/-- A manifest that is written, with a key and a signature in base64, is valid if the signature
fits the canonical form. -/
theorem verdict_text_iff (m : Manifest) (scheme : Scheme) {key signature : List UInt8}
    (keyLength : key.length = 32) (signatureLength : signature.length = 64) :
    Record.verdict scheme
        ⟨Utf8.bytesOf m.text, Base64.encode signature, Base64.encode key⟩ = .valid ↔
      scheme key m.toValue.canonical.bytes signature = true := by
  have around (bytes : List UInt8) : Signature.Around bytes bytes := ⟨[], [], by simp⟩
  have keyRead : Signature.decodeExactly "public key" Signature.keyLength (Base64.encode key) =
      .ok key :=
    Signature.decodeExactly_eq_ok_iff.mpr ⟨keyLength, around _⟩
  have signatureRead : Signature.decodeExactly "signature" Signature.signatureLength
      (Base64.encode signature) = .ok signature :=
    Signature.decodeExactly_eq_ok_iff.mpr ⟨signatureLength, around _⟩
  unfold Record.verdict
  simp only [keyRead, signatureRead, canonicalBytes_text]
  split <;> simp_all

end Texts

/-! ## Both texts together -/

/-- A manifest with marks of JSON in its id, a character of two units in its name and one that
has no text in its version, and with a capability twice. -/
def odd : Manifest :=
  { id := "a\"b\\", name := "😀", version := "\x00", capabilities := ["x", "x"] }

/-- What is signed of it. -/
def oddSigned : List UInt8 :=
  Utf8.bytesOf ("\x7b\"capabilities\":[\"x\",\"x\"],\"id\":\"a\\\"b\\\\\"," ++
    "\"name\":\"😀\",\"version\":\"\\u0000\"\x7d")

/-- A manifest is read back from its text and from the canonical form of it. A signature of the
canonical form is one of the text, under any scheme, and no other manifest has this form. -/
theorem written_manifest_survives (m m' : Manifest) (scheme : Scheme) :
    ofBytes (Utf8.bytesOf m.text) = .ok m ∧
    ∃ signed, Json.canonicalBytes (Utf8.bytesOf m.text) = .ok signed ∧
      ofBytes signed = .ok m ∧
      (∀ key signature : List UInt8, key.length = 32 → signature.length = 64 →
        (Record.verdict scheme
            ⟨Utf8.bytesOf m.text, Base64.encode signature, Base64.encode key⟩ = .valid ↔
          scheme key signed signature = true)) ∧
      (Json.canonicalBytes (Utf8.bytesOf m'.text) = .ok signed ↔ m' = m) := by
  refine ⟨ofBytes_text m, _, canonicalBytes_text m, ofBytes_canonical m,
    fun key signature hkey hsignature => verdict_text_iff m scheme hkey hsignature, ?_⟩
  rw [canonicalBytes_text m', Except.ok.injEq]
  constructor
  · exact canonical_bytes_injective
  · rintro rfl
    rfl

/-- The odd manifest is read back, and the scheme is asked about the right bytes. -/
theorem odd_manifest_survives :
    ofBytes (Utf8.bytesOf odd.text) = .ok odd ∧ ofBytes oddSigned = .ok odd ∧
    Record.verdict (fun _ message _ => message == oddSigned)
      ⟨Utf8.bytesOf odd.text, Base64.encode (List.replicate 64 7),
        Base64.encode (List.replicate 32 9)⟩ = .valid := by
  obtain ⟨read, signed, canonical, again, holds, -⟩ :=
    written_manifest_survives odd odd fun _ message _ => message == oddSigned
  have known : Json.canonicalBytes (Utf8.bytesOf odd.text) = .ok oddSigned := by decide +kernel
  obtain rfl : oddSigned = signed := Except.ok.inj (known.symm.trans canonical)
  exact ⟨read, again, (holds _ _ (by decide) (by decide)).mpr (by simp)⟩

end PluginHost.Manifest
