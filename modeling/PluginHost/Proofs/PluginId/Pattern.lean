import Mathlib.Computability.RegularExpressions
import PluginHost.Proofs.PluginId
import PluginHost.Proofs.Text.Utf16
import PluginHost.Text.Blank

/-!
# Plugin ids as a regular language

The texts of plugin ids are those of the pattern `segment(\.segment)+`, where a segment is
`[A-Za-z0-9][A-Za-z0-9_-]*` and the pattern stands for the whole text. An id cannot be cut into
segments in two ways, as no segment has a dot in it.

* `pattern` is that pattern.

Results:
1. `segment_iff`: a segment is what the first part of the pattern matches.
2. `pattern_iff`: the pattern matches the texts with at least two parts that are segments.
3. `plain_of_isValid`: what no id has in it.
4. `plugin_id_grammar`: reading from left to right, the pattern and the parts agree.
-/

namespace PluginHost.PluginId

open RegularExpression (char)

/-! ## Definitions -/

/-- One of these characters. -/
def oneOf (cs : List Char) : RegularExpression Char :=
  cs.foldr (fun c r => char c + r) 0

/-- The characters from one to another. -/
def between (first last : Char) : List Char :=
  (List.range' first.toNat (last.toNat + 1 - first.toNat)).map Char.ofNat

/-- The ASCII letters and digits. -/
def alnums : List Char :=
  between 'A' 'Z' ++ between 'a' 'z' ++ between '0' '9'

def inners : List Char :=
  alnums ++ ['_', '-']

/-- A letter or digit, then letters, digits, `_` and `-`. -/
def segment : RegularExpression Char :=
  oneOf alnums * (oneOf inners).star

/-- A dot and a segment after it. -/
def dotted : RegularExpression Char :=
  char '.' * segment

/-- A segment, then a dot and a segment once or several times. -/
def pattern : RegularExpression Char :=
  segment * (dotted * dotted.star)

/-! ## What the pattern matches -/

section Pattern

variable {cs : List Char} {c : Char}

/-- An ASCII character has a code below 128. -/
theorem toNat_lt_of_isInner (inner : isInner c = true) : c.toNat < 128 := by
  have below {d : Char} (le : c ≤ d) (small : d.toNat < 128) : c.toNat < 128 :=
    Nat.lt_of_le_of_lt le small
  simp only [isInner, Ascii.isAlnum, Ascii.isLetter, Ascii.isDigit, Bool.or_eq_true,
    Bool.and_eq_true, decide_eq_true_eq, beq_iff_eq] at inner
  rcases inner with (((⟨-, le⟩ | ⟨-, le⟩) | ⟨-, le⟩) | rfl) | rfl
  · exact below le (by decide)
  · exact below le (by decide)
  · exact below le (by decide)
  · decide
  · decide

theorem mem_between {first last : Char} (ascii : last.toNat < 128) :
    c ∈ between first last ↔ first ≤ c ∧ c ≤ last := by
  rw [between, List.mem_map]
  constructor
  · rintro ⟨n, hn, rfl⟩
    rw [List.mem_range'_1] at hn
    have code : (Char.ofNat n).toNat = n := Utf16.toNat_ofNat (.inl (by omega))
    refine ⟨?_, ?_⟩
    · show first.toNat ≤ (Char.ofNat n).toNat
      omega
    · show (Char.ofNat n).toNat ≤ last.toNat
      omega
  · rintro ⟨low, high⟩
    have low : first.toNat ≤ c.toNat := low
    have high : c.toNat ≤ last.toNat := high
    refine ⟨c.toNat, ?_, Char.ofNat_toNat c⟩
    rw [List.mem_range'_1]
    omega

theorem mem_alnums_iff : c ∈ alnums ↔ Ascii.isAlnum c = true := by
  rw [alnums, List.mem_append, List.mem_append, mem_between (by decide), mem_between (by decide),
    mem_between (by decide)]
  simp [Ascii.isAlnum, Ascii.isLetter, Ascii.isDigit, or_comm]

theorem mem_inners_iff : c ∈ inners ↔ isInner c = true := by
  rw [inners, List.mem_append, mem_alnums_iff]
  simp [isInner, or_assoc]

theorem matches_oneOf {x : List Char} : x ∈ (oneOf cs).matches' ↔ ∃ c ∈ cs, x = [c] := by
  induction cs with
  | nil => simp [oneOf, RegularExpression.matches'_zero]
  | cons c cs ih =>
    have step : oneOf (c :: cs) = char c + oneOf cs := rfl
    rw [step, RegularExpression.matches'_add, RegularExpression.matches'_char, Language.mem_add, ih]
    simp only [List.mem_cons, exists_eq_or_imp]
    exact Iff.rfl

/-- A row of characters from a set. -/
theorem matches_star_oneOf {x : List Char} :
    x ∈ (oneOf cs).star.matches' ↔ ∀ c ∈ x, c ∈ cs := by
  rw [RegularExpression.matches'_star, Language.mem_kstar]
  constructor
  · rintro ⟨words, rfl, each⟩ c hc
    obtain ⟨word, hword, hc⟩ := List.mem_flatten.mp hc
    obtain ⟨d, hd, rfl⟩ := matches_oneOf.mp (each word hword)
    rwa [List.mem_singleton.mp hc]
  · intro all
    have letters : x = (x.map fun c => [c]).flatten := by
      rw [← List.flatMap_def, List.flatMap_singleton']
    refine ⟨x.map fun c => [c], letters, fun word hword => ?_⟩
    obtain ⟨c, hc, rfl⟩ := List.mem_map.mp hword
    exact matches_oneOf.mpr ⟨c, all c hc, rfl⟩

/-- A segment is what the first part of the pattern matches. -/
theorem segment_iff : cs ∈ segment.matches' ↔ IsSegment cs := by
  rw [segment, RegularExpression.matches'_mul, Language.mem_mul]
  constructor
  · rintro ⟨first, hfirst, rest, hrest, rfl⟩
    obtain ⟨c, hc, rfl⟩ := matches_oneOf.mp hfirst
    exact ⟨mem_alnums_iff.mp hc,
      fun d hd => mem_inners_iff.mp (matches_star_oneOf.mp hrest d hd)⟩
  · intro whole
    cases cs with
    | nil => cases whole
    | cons c rest =>
      obtain ⟨first, inner⟩ := whole
      exact ⟨[c], matches_oneOf.mpr ⟨c, mem_alnums_iff.mpr first, rfl⟩, rest,
        matches_star_oneOf.mpr fun d hd => mem_inners_iff.mpr (inner d hd), rfl⟩

theorem matches_dotted {x : List Char} :
    x ∈ dotted.matches' ↔ ∃ part, IsSegment part ∧ x = '.' :: part := by
  rw [dotted, RegularExpression.matches'_mul, RegularExpression.matches'_char, Language.mem_mul]
  constructor
  · rintro ⟨dot, hdot, part, hpart, rfl⟩
    obtain rfl : dot = ['.'] := hdot
    exact ⟨part, segment_iff.mp hpart, rfl⟩
  · rintro ⟨part, whole, rfl⟩
    exact ⟨['.'], rfl, part, segment_iff.mpr whole, rfl⟩

/-- Dots with segments after them. -/
theorem matches_star_dotted {x : List Char} : x ∈ dotted.star.matches' ↔
    ∃ parts : List (List Char), (∀ part ∈ parts, IsSegment part) ∧
      x = (parts.map ('.' :: ·)).flatten := by
  rw [RegularExpression.matches'_star, Language.mem_kstar]
  constructor
  · rintro ⟨words, rfl, each⟩
    induction words with
    | nil => exact ⟨[], by simp, rfl⟩
    | cons word words ih =>
      obtain ⟨here, there⟩ := List.forall_mem_cons.mp each
      obtain ⟨part, whole, rfl⟩ := matches_dotted.mp here
      obtain ⟨parts, others, same⟩ := ih there
      refine ⟨part :: parts, List.forall_mem_cons.mpr ⟨whole, others⟩, ?_⟩
      rw [List.flatten_cons, same, List.map_cons, List.flatten_cons]
  · rintro ⟨parts, each, rfl⟩
    refine ⟨parts.map ('.' :: ·), rfl, fun word hword => ?_⟩
    obtain ⟨part, hpart, rfl⟩ := List.mem_map.mp hword
    exact matches_dotted.mpr ⟨part, each part hpart, rfl⟩

/-- No segment has a dot in it. -/
theorem dot_not_mem_segment {part : List Char} (whole : IsSegment part) : '.' ∉ part := by
  have other : isInner '.' = false := by decide
  have first : Ascii.isAlnum '.' = false := by decide
  cases part with
  | nil => cases whole
  | cons c rest =>
    intro dot
    obtain ⟨alnum, inner⟩ := whole
    rcases List.mem_cons.mp dot with rfl | dot
    · rw [first] at alnum
      cases alnum
    · have inside := inner '.' dot
      rw [other] at inside
      cases inside

/-- The pattern matches the texts with at least two parts, all of them segments. -/
theorem pattern_iff : cs ∈ pattern.matches' ↔
    2 ≤ (splitOn '.' cs).length ∧ ∀ part ∈ splitOn '.' cs, IsSegment part := by
  rw [pattern, RegularExpression.matches'_mul, RegularExpression.matches'_mul]
  simp only [Language.mem_mul, segment_iff, matches_dotted, matches_star_dotted]
  constructor
  · rintro ⟨first, hfirst, _, ⟨_, ⟨second, hsecond, rfl⟩, _, ⟨parts, hparts, rfl⟩, rfl⟩, rfl⟩
    have each : ∀ part ∈ first :: second :: parts, IsSegment part :=
      List.forall_mem_cons.mpr ⟨hfirst, List.forall_mem_cons.mpr ⟨hsecond, hparts⟩⟩
    have joined : first ++ ('.' :: second ++ (parts.map ('.' :: ·)).flatten) =
        joinWith '.' (first :: second :: parts) := by
      rw [joinWith_cons, List.map_cons, List.flatten_cons]
    rw [joined, splitOn_joinWith (List.cons_ne_nil _ _)
      fun part hpart => dot_not_mem_segment (each part hpart)]
    exact ⟨by simp, each⟩
  · rintro ⟨several, each⟩
    -- The text is put together from its parts, of which there are a first and a second one.
    have whole := joinWith_splitOn '.' cs
    match found : splitOn '.' cs with
    | [] => exact absurd found (splitOn_ne_nil '.' cs)
    | [_] => simp [found] at several
    | first :: second :: parts =>
      rw [found] at each whole
      obtain ⟨hfirst, others⟩ := List.forall_mem_cons.mp each
      obtain ⟨hsecond, hparts⟩ := List.forall_mem_cons.mp others
      refine ⟨first, hfirst, _, ⟨_, ⟨second, hsecond, rfl⟩, _, ⟨parts, hparts, rfl⟩, rfl⟩, ?_⟩
      rw [← whole, joinWith_cons, List.map_cons, List.flatten_cons]

end Pattern

/-! ## What no id has in it -/

section Plain

variable {s : String} {c : Char}

/-- A character of a segment, or a dot, is ASCII, no white space, no control and no mark that
separates the parts of a path. -/
theorem plain_of_isInner (inner : isInner c = true ∨ c = '.') :
    c.toNat < 128 ∧ Blank.isBlank c = false ∧ c ≠ '\n' ∧ c ≠ '\x00' ∧ c ≠ '/' ∧ c ≠ '\\' := by
  have small : c.toNat < 128 := by
    rcases inner with inner | rfl
    · exact toNat_lt_of_isInner inner
    · decide
  have all : ∀ n < 128, isInner (Char.ofNat n) = true ∨ Char.ofNat n = '.' →
      Blank.isBlank (Char.ofNat n) = false ∧ Char.ofNat n ≠ '\n' ∧ Char.ofNat n ≠ '\x00' ∧
        Char.ofNat n ≠ '/' ∧ Char.ofNat n ≠ '\\' := by
    decide +kernel
  have here := all c.toNat small
  rw [Char.ofNat_toNat] at here
  exact ⟨small, here inner⟩

/-- No segment of an id is empty. -/
theorem nil_not_mem_of_isValid (valid : isValid s = true) : [] ∉ splitOn '.' s.toList :=
  fun empty => (isValid_iff.mp valid).2 [] empty

/-- An id does not start with a dot, since its first segment would be empty. -/
theorem head_of_isValid (valid : isValid s = true) : s.toList.head? ≠ some '.' := by
  intro first
  obtain ⟨rest, text⟩ := List.head?_eq_some_iff.mp first
  refine nil_not_mem_of_isValid valid ?_
  rw [text, splitOn_cons_sep]
  exact List.mem_cons_self

/-- An id does not end with a dot, since its last segment would be empty. -/
theorem last_of_isValid (valid : isValid s = true) : s.toList.getLast? ≠ some '.' := by
  intro last
  obtain ⟨front, text⟩ := List.getLast?_eq_some_iff.mp last
  refine nil_not_mem_of_isValid valid ?_
  rw [text, splitOn_append]
  exact List.mem_append_right _ List.mem_cons_self

end Plain

/-- A text is an id if and only if it has at least two parts between dots, each of them a letter
or digit followed by letters, digits, `_` and `-`, and if and only if the pattern matches it as
a whole. What an id consists of is ASCII, and none of it is white space, the end of a line, NUL
or a mark that separates the parts of a path. No part of it is empty, the first and the last
included. -/
theorem plugin_id_grammar (s : String) :
    (isValid s = true ↔ 2 ≤ (splitOn '.' s.toList).length ∧
      ∀ part ∈ splitOn '.' s.toList, ∃ c rest, part = c :: rest ∧ Ascii.isAlnum c = true ∧
        ∀ d ∈ rest, Ascii.isAlnum d = true ∨ d = '_' ∨ d = '-') ∧
    (isValid s = true ↔ s.toList ∈ pattern.matches') ∧
    (isValid s = true →
      (∀ c ∈ s.toList, c.toNat < 128 ∧ Blank.isBlank c = false ∧ c ≠ '\n' ∧ c ≠ '\x00' ∧
        c ≠ '/' ∧ c ≠ '\\') ∧
      [] ∉ splitOn '.' s.toList ∧ s.toList.head? ≠ some '.' ∧ s.toList.getLast? ≠ some '.') := by
  have shape (part : List Char) : IsSegment part ↔ ∃ c rest, part = c :: rest ∧
      Ascii.isAlnum c = true ∧ ∀ d ∈ rest, Ascii.isAlnum d = true ∨ d = '_' ∨ d = '-' := by
    cases part with
    | nil => simp [IsSegment]
    | cons c rest => simp [IsSegment, isInner, or_assoc]
  refine ⟨?_, ?_, fun valid => ⟨?_, ?_, ?_, ?_⟩⟩
  · simp only [← shape]
    exact isValid_iff
  · rw [pattern_iff]
    exact isValid_iff
  · exact fun c hc => plain_of_isInner (mem_of_isValid valid c hc)
  · exact nil_not_mem_of_isValid valid
  · exact head_of_isValid valid
  · exact last_of_isValid valid

/-- An id with every kind of character is one by the pattern, and it has no dot at its end. -/
theorem varied_id_grammar :
    isValid "0rg.A-_z.9" = true ∧ "0rg.A-_z.9".toList ∈ pattern.matches' ∧
      "0rg.A-_z.9".toList.getLast? ≠ some '.' := by
  have valid : isValid "0rg.A-_z.9" = true := by decide +kernel
  obtain ⟨-, matched, plain⟩ := plugin_id_grammar "0rg.A-_z.9"
  exact ⟨valid, matched.mp valid, (plain valid).2.2.2⟩

end PluginHost.PluginId
