import PluginHost.Proofs.Json.Tight

/-!
# The canonical form is faithful

The bytes that a signature covers say all that the document says and nothing else, as long
as its numbers are integers that are kept exactly. They are a fixed form: taking the
canonical form again changes nothing.

* `OnlyIntegers` says that every number in a text is an integer of 64 bits.

Results:
1. `canonicalBytes_eq_ok_iff`: what is accepted and what comes of it.
2. `canonicalBytes_bytes`: the canonical form of a value that fits is its own.
3. `canonical_bytes_faithful`: all that is kept and all that is put in order.
-/

namespace PluginHost.Json

/-- The bytes are a text of a document all of whose numbers are integers of 64 bits, with or
without a sign, and not `-0`. -/
def OnlyIntegers (raw : List UInt8) : Prop :=
  ∃ d : Doc, d.IsText raw ∧ ∀ l ∈ d.literals, l.Integral

/-! ## A text and its canonical form -/

namespace Spaced

/-- A text with white space, an escaped key and a repeated one. -/
def text : String :=
  "\x7b \"b\": 7, \"\\u0061\": -1, \"a\": \"x\" \x7d"

def literal (negative : Bool) (d : Char) (digit : Ascii.isDigit d = true) : Literal :=
  ⟨negative, [d], none, none, integerPart_digit digit, digits_of_none⟩

def doc : Doc :=
  .object [([0x62], .number (literal false '7' rfl)), ([0x61], .number (literal true '1' rfl)),
    ([0x61], .string [0x78])]

theorem isText : doc.IsText (Utf8.bytesOf text) := by
  have space : Blank [' '] := by simp [Blank]
  have escaped : Content [0x61] ['\\', 'u', '0', '0', '6', '1'] :=
    .unit ⟨0, 0, 6, 1, .inl rfl, .inl rfl, .inl rfl, .inl rfl, rfl⟩ .nil
  have b := IsMember.mk (.char 'b' (by decide)) .nil space (.number (literal false '7' rfl))
  have a := IsMember.mk escaped .nil space (.number (literal true '1' rfl))
  have a' := IsMember.mk (.char 'a' (by decide)) .nil space (.string (.char 'x' (by decide)))
  have members :=
    Spells.members space b (.member .nil space a (.member .nil space a' (.close space)))
  exact members.isText .nil .nil (by decide +kernel)

theorem onlyIntegers : OnlyIntegers (Utf8.bytesOf text) := by
  refine ⟨doc, isText, fun l hl => ?_⟩
  simp only [doc, Doc.literals, literalsOfMembers, List.mem_append, List.mem_singleton,
    List.not_mem_nil, or_false] at hl
  rcases hl with rfl | rfl <;> exact ⟨rfl, rfl, by decide⟩

end Spaced

/-! ## Canonical forms -/

section Canonical

variable {raw c : List UInt8} {v w : Value} {ms : List (String × Value)}

/-- Exactly what is read as a document has a canonical form, and it is the document's. -/
theorem canonicalBytes_eq_ok_iff :
    canonicalBytes raw = .ok c ↔ ∃ v, Value.ofBytes raw = .ok v ∧ v.canonical.bytes = c :=
  map_eq_ok_iff

/-- A text with integers only is read as a value that fits. -/
theorem OnlyIntegers.fits (h : OnlyIntegers raw) (read : Value.ofBytes raw = .ok v) :
    v.Fits depthLimit := by
  obtain ⟨d, text, integral⟩ := h
  have value : d.value? depthLimit = some v := by
    rw [← text.ofBytes, read]
    rfl
  exact fits_of_value? d value integral

/-- The canonical form of a value that fits is read as a document that means the same. -/
theorem ofBytes_canonical (h : v.Fits depthLimit) :
    Value.ofBytes v.canonical.bytes = .ok v.canonical :=
  Value.ofBytes_bytes h.canonical

/-- The canonical form of a value that fits is its own. -/
theorem canonicalBytes_bytes (h : v.Fits depthLimit) :
    canonicalBytes v.canonical.bytes = .ok v.canonical.bytes := by
  refine canonicalBytes_eq_ok_iff.mpr ⟨v.canonical, ofBytes_canonical h, ?_⟩
  rw [Value.canonical_canonical]

/-- Values that fit have the same canonical bytes exactly if they mean the same. -/
theorem canonical_bytes_eq_iff (h : v.Fits depthLimit) (h' : w.Fits depthLimit) :
    v.canonical.bytes = w.canonical.bytes ↔ v.Same w := by
  rw [Value.same_iff]
  refine ⟨fun same => ?_, fun same => congrArg Value.bytes same⟩
  -- Reading undoes writing, so equal bytes are those of equal canonical forms.
  have read := ofBytes_canonical h
  rw [same, ofBytes_canonical h'] at read
  exact (Except.ok.inj read).symm

/-- Keys that increase do so as bytes. -/
theorem Sorted.bytesOf (h : Sorted ms) : (ms.map fun m => Utf8.bytesOf m.1).Pairwise (· < ·) :=
  List.pairwise_map.mpr (h.imp Utf8.bytesOf_lt_bytesOf)

/-- The canonical form of a text with integers only. It is read as a document that means the
same, of several equal keys the last counting. The keys of every object in it increase as
bytes, and no white space stands outside its strings. Its canonical form is itself. Two such
texts have the same canonical form exactly if they mean the same. -/
theorem canonical_bytes_faithful (accepted : canonicalBytes raw = .ok c)
    (integers : OnlyIntegers raw) :
    ∃ v w, Value.ofBytes raw = .ok v ∧ Value.ofBytes c = .ok w ∧ w.Same v ∧
      (∀ ms, Value.Within (.object ms) w →
        (ms.map fun m => Utf8.bytesOf m.1).Pairwise (· < ·)) ∧
      (∃ text, Utf8.text? c = some text ∧ Tight text.toList) ∧
      canonicalBytes c = .ok c ∧
      ∀ raw' c' v', canonicalBytes raw' = .ok c' → OnlyIntegers raw' →
        Value.ofBytes raw' = .ok v' → (c = c' ↔ v.Same v') := by
  obtain ⟨v, read, rfl⟩ := canonicalBytes_eq_ok_iff.mp accepted
  have fits := integers.fits read
  refine ⟨v, v.canonical, read, ofBytes_canonical fits, v.canonical_same,
    fun ms within => (Value.sorted_of_within_canonical within).bytesOf,
    ⟨_, Utf8.text?_encode _, ?_⟩, canonicalBytes_bytes fits,
    fun raw' c' v' accepted' integers' read' => ?_⟩
  · rw [String.toList_ofList]
    exact v.canonical.tight_compact
  · obtain ⟨w, read₁, rfl⟩ := canonicalBytes_eq_ok_iff.mp accepted'
    have same : w = v' := Except.ok.inj (read₁.symm.trans read')
    subst same
    exact canonical_bytes_eq_iff fits (integers'.fits read₁)

/-- White space, the escape and the value that does not count are gone from the canonical form,
and taking it again changes nothing. -/
theorem spaced_is_faithful :
    canonicalBytes (Utf8.bytesOf Spaced.text) =
      .ok (Utf8.bytesOf "\x7b\"a\":\"x\",\"b\":7\x7d") ∧
    canonicalBytes (Utf8.bytesOf "\x7b\"a\":\"x\",\"b\":7\x7d") =
      .ok (Utf8.bytesOf "\x7b\"a\":\"x\",\"b\":7\x7d") := by
  have accepted : canonicalBytes (Utf8.bytesOf Spaced.text) =
      .ok (Utf8.bytesOf "\x7b\"a\":\"x\",\"b\":7\x7d") := by decide +kernel
  obtain ⟨-, -, -, -, -, -, -, stable, -⟩ := canonical_bytes_faithful accepted Spaced.onlyIntegers
  exact ⟨accepted, stable⟩

end Canonical

end PluginHost.Json
