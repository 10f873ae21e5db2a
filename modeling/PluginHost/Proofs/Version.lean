import PluginHost.Proofs.Text.Digits
import PluginHost.Proofs.Text.Split
import PluginHost.Version

/-!
# The grammar of versions

A version is read from left to right, and its grammar is that of SemVer 2.0.0 with numbers
below 2^64. The two agree, and a text that is read is written again as it was: no number and no
identifier can be spelled in two ways.

* `IsSemantic` is the grammar.
* `IsProper` says that a version has parts that the grammar allows.

Results:
1. `number?_eq_some_iff`, `identifiers?_eq_some_iff` and `suffix?_eq_some_iff`: what the readers
   of the parts take.
2. `ofText?_eq_some_iff`: a text is read as a version if it is the text of that version.
3. `ofText?_isSome_iff`: the texts that are read are those of the grammar.
-/

namespace PluginHost.Version

open Ascii (isDigit isAlnum decimal)

/-! ## The grammar -/

/-- There is no zero at the front of more digits. -/
def NoSpareZero (cs : List Char) : Prop :=
  cs.head? = some '0' → cs = ['0']

/-- A number of a version. -/
structure IsNumber (cs : List Char) : Prop where
  nonempty : cs ≠ []
  digits : ∀ c ∈ cs, isDigit c = true
  noSpareZero : NoSpareZero cs
  small : decimal cs < Nat.pow 2 64

/-- An identifier of a build. -/
structure IsIdentifier (cs : List Char) : Prop where
  nonempty : cs ≠ []
  chars : ∀ c ∈ cs, isAlnum c = true ∨ c = '-'

/-- An identifier of a pre-release. If it is all digits, it is a number of any size. -/
structure IsPreIdentifier (cs : List Char) : Prop extends IsIdentifier cs where
  noSpareZero : (∀ c ∈ cs, isDigit c = true) → NoSpareZero cs

/-- Parts with dots between them, behind a mark; nothing at all if there are none. -/
def row (mark : Char) : List (List Char) → List Char
  | [] => []
  | part :: parts => mark :: joinWith '.' (part :: parts)

/-- The text is a version: three numbers, a pre-release and a build, of which each of the last
two may be absent. -/
def IsSemantic (cs : List Char) : Prop :=
  ∃ major minor patch pre build,
    IsNumber major ∧ IsNumber minor ∧ IsNumber patch ∧
    (∀ part ∈ pre, IsPreIdentifier part) ∧ (∀ part ∈ build, IsIdentifier part) ∧
    cs = major ++ '.' :: (minor ++ '.' :: (patch ++ (row '-' pre ++ row '+' build)))

/-- The numbers are in range, and the identifiers are such. -/
structure IsProper (v : Version) : Prop where
  major_lt : v.major < Nat.pow 2 64
  minor_lt : v.minor < Nat.pow 2 64
  patch_lt : v.patch < Nat.pow 2 64
  pre : ∀ part ∈ v.pre, IsPreIdentifier part.toList
  build : ∀ part ∈ v.build, IsIdentifier part.toList

/-! ## Numbers -/

section Numbers

variable {cs rest : List Char} {n : Nat}

theorem isPlainNumber_iff : isPlainNumber cs = true ↔
    cs ≠ [] ∧ (∀ c ∈ cs, isDigit c = true) ∧ NoSpareZero cs := by
  match cs with
  | [] => simp [isPlainNumber]
  | [c] => simp [isPlainNumber, NoSpareZero]
  | c :: d :: cs => simp [isPlainNumber, NoSpareZero, and_assoc]

/-- The digits of a number are a number of a version. -/
theorem isNumber_toDigits (small : n < Nat.pow 2 64) : IsNumber (Nat.toDigits 10 n) where
  nonempty := Nat.toDigits_ne_nil
  digits := Ascii.isDigit_of_mem_toDigits
  noSpareZero zero := by
    by_cases none : n = 0
    · rw [none]
      rfl
    · exact absurd zero (Ascii.head_toDigits none)
  small := by rwa [Ascii.decimal_toDigits]

/-- A number is spelled in one way. -/
theorem IsNumber.eq_toDigits (number : IsNumber cs) : cs = Nat.toDigits 10 (decimal cs) :=
  (Ascii.toDigits_decimal number.digits number.nonempty number.noSpareZero).symm

/-- A number at the front of a text is read up to where its digits end. -/
theorem number?_eq_some_iff : number? cs = some (n, rest) ↔
    n < Nat.pow 2 64 ∧ cs = Nat.toDigits 10 n ++ rest ∧ ∀ c ∈ rest.head?, isDigit c = false := by
  constructor
  · intro read
    unfold number? at read
    dsimp only at read
    split at read
    · next plain =>
      rw [Bool.and_eq_true, isPlainNumber_iff, decide_eq_true_eq] at plain
      obtain ⟨⟨nonempty, digits, first⟩, small⟩ := plain
      obtain ⟨rfl, rfl⟩ := Prod.mk.inj (Option.some.inj read)
      refine ⟨small, ?_, fun c hc => ?_⟩
      · rw [Ascii.toDigits_decimal digits nonempty first, List.takeWhile_append_dropWhile]
      · have stops := List.head?_dropWhile_not isDigit cs
        rw [hc] at stops
        exact stops
    · cases read
  · rintro ⟨small, rfl, ends⟩
    have number := isNumber_toDigits small
    obtain ⟨taken, left⟩ := takeWhile_of_ends number.digits ends
    have plain := isPlainNumber_iff.mpr ⟨number.nonempty, number.digits, number.noSpareZero⟩
    simp only [number?, taken, left, plain, small, decide_true, Bool.and_self, ↓reduceIte,
      Ascii.decimal_toDigits]

theorem after?_eq_some_iff {c : Char} : after? c cs = some rest ↔ cs = c :: rest := by
  cases cs with
  | nil => simp [after?]
  | cons d cs => by_cases same : d = c <;> simp [after?, same]

end Numbers

/-! ## Identifiers -/

section Identifiers

variable {cs : List Char} {pre build ids : List String} {ok : List Char → Bool}

theorem isBuildIdentifier_iff : isBuildIdentifier cs = true ↔ IsIdentifier cs := by
  have chars (c : Char) : isIdentifierChar c = true ↔ isAlnum c = true ∨ c = '-' := by
    rw [isIdentifierChar, Bool.or_eq_true, beq_iff_eq]
  simp only [isBuildIdentifier, Bool.and_eq_true, List.all_eq_true, chars, Bool.not_eq_true',
    List.isEmpty_eq_false_iff]
  exact ⟨fun ⟨nonempty, all⟩ => ⟨nonempty, all⟩, fun ⟨nonempty, all⟩ => ⟨nonempty, all⟩⟩

theorem isPreIdentifier_iff : isPreIdentifier cs = true ↔ IsPreIdentifier cs := by
  rw [isPreIdentifier, Bool.and_eq_true, isBuildIdentifier_iff, Bool.or_eq_true,
    isPlainNumber_iff, Bool.not_eq_true', List.all_eq_false]
  constructor
  · rintro ⟨identifier, numeric⟩
    refine ⟨identifier, fun digits => ?_⟩
    rcases numeric with ⟨c, hc, other⟩ | ⟨-, -, noSpareZero⟩
    · exact absurd (digits c hc) other
    · exact noSpareZero
  · rintro ⟨identifier, noSpareZero⟩
    refine ⟨identifier, ?_⟩
    by_cases digits : ∀ c ∈ cs, isDigit c = true
    · exact .inr ⟨identifier.nonempty, digits, noSpareZero digits⟩
    · simp only [not_forall, exists_prop] at digits
      exact .inl digits

/-- No mark of a version stands in an identifier. -/
theorem IsIdentifier.not_mem {c : Char} (identifier : IsIdentifier cs) (other : isAlnum c = false)
    (dash : c ≠ '-') : c ∉ cs := by
  intro mem
  rcases identifier.chars c mem with alnum | same
  · rw [alnum] at other
    cases other
  · exact dash same

theorem map_toList_ofList (parts : List (List Char)) :
    (parts.map String.ofList).map String.toList = parts := by
  simp [Function.comp_def]

/-- Identifiers between dots are read one by one. -/
theorem identifiers?_eq_some_iff (plain : ∀ part, ok part = true → '.' ∉ part) :
    identifiers? ok cs = some ids ↔
      ids ≠ [] ∧ (∀ part ∈ ids, ok part.toList = true) ∧
        cs = joinWith '.' (ids.map String.toList) := by
  constructor
  · intro read
    unfold identifiers? at read
    dsimp only at read
    split at read
    · next all =>
      cases read
      refine ⟨by simpa using splitOn_ne_nil '.' cs, List.forall_mem_map.mpr fun chars hchars => ?_, ?_⟩
      · rw [String.toList_ofList]
        exact List.all_eq_true.mp all chars hchars
      · rw [map_toList_ofList, joinWith_splitOn]
    · cases read
  · rintro ⟨nonempty, each, rfl⟩
    have all : ∀ part ∈ ids.map String.toList, ok part = true := List.forall_mem_map.mpr each
    have parts : splitOn '.' (joinWith '.' (ids.map String.toList)) = ids.map String.toList :=
      splitOn_joinWith (by simpa using nonempty) fun part hpart => plain part (all part hpart)
    rw [identifiers?, parts, if_pos (List.all_eq_true.mpr all)]
    simp [Function.comp_def]

theorem row_eq (mark : Char) (nonempty : ids ≠ []) :
    row mark (ids.map String.toList) = mark :: joinWith '.' (ids.map String.toList) := by
  cases ids with
  | nil => exact absurd rfl nonempty
  | cons id ids => rfl

theorem build?_eq_some_iff : build? cs = some build ↔
    (∀ part ∈ build, IsIdentifier part.toList) ∧ cs = row '+' (build.map String.toList) := by
  have parts {rest : List Char} : identifiers? isBuildIdentifier rest = some build ↔ build ≠ [] ∧
      (∀ part ∈ build, IsIdentifier part.toList) ∧
        rest = joinWith '.' (build.map String.toList) := by
    simp only [← isBuildIdentifier_iff]
    exact identifiers?_eq_some_iff fun part ok =>
      (isBuildIdentifier_iff.mp ok).not_mem (by decide) (by decide)
  constructor
  · intro read
    unfold build? at read
    split at read
    · cases read
      exact ⟨by simp, rfl⟩
    · obtain ⟨nonempty, each, rfl⟩ := parts.mp read
      exact ⟨each, (row_eq '+' nonempty).symm⟩
    · cases read
  · rintro ⟨each, rfl⟩
    by_cases empty : build = []
    · rw [empty]
      rfl
    · rw [row_eq '+' empty]
      exact parts.mpr ⟨empty, each, rfl⟩

/-- What stands behind the numbers is a pre-release and a build. -/
theorem suffix?_eq_some_iff : suffix? cs = some (pre, build) ↔
    (∀ part ∈ pre, IsPreIdentifier part.toList) ∧ (∀ part ∈ build, IsIdentifier part.toList) ∧
      cs = row '-' (pre.map String.toList) ++ row '+' (build.map String.toList) := by
  have parts {rest : List Char} : identifiers? isPreIdentifier rest = some pre ↔ pre ≠ [] ∧
      (∀ part ∈ pre, IsPreIdentifier part.toList) ∧
        rest = joinWith '.' (pre.map String.toList) := by
    simp only [← isPreIdentifier_iff]
    exact identifiers?_eq_some_iff fun part ok =>
      (isPreIdentifier_iff.mp ok).not_mem (by decide) (by decide)
  constructor
  · intro read
    unfold suffix? at read
    split at read
    · next rest =>
      obtain ⟨found, hpre, read⟩ := Option.bind_eq_some_iff.mp read
      obtain ⟨others, hbuild, read⟩ := Option.bind_eq_some_iff.mp read
      cases read
      obtain ⟨nonempty, each, word⟩ := parts.mp hpre
      obtain ⟨others, tail⟩ := build?_eq_some_iff.mp hbuild
      refine ⟨each, others, ?_⟩
      rw [row_eq '-' nonempty, ← word, ← tail, List.cons_append, List.takeWhile_append_dropWhile]
    · obtain ⟨others, hbuild, read⟩ := Option.bind_eq_some_iff.mp read
      cases read
      obtain ⟨others, tail⟩ := build?_eq_some_iff.mp hbuild
      exact ⟨by simp, others, tail⟩
  · rintro ⟨each, others, rfl⟩
    have tail := build?_eq_some_iff.mpr ⟨others, rfl⟩
    by_cases empty : pre = []
    · subst empty
      -- What is left starts with `+`, if it is not empty.
      cases build with
      | nil => rfl
      | cons id ids =>
        show (build? (row '+' ((id :: ids).map String.toList)) >>= fun build => pure ([], build)) = _
        rw [tail]
        rfl
    · have word := parts.mpr ⟨empty, each, rfl⟩
      have inside : ∀ c ∈ joinWith '.' (pre.map String.toList), decide (c ≠ '+') = true := by
        intro c hc
        rw [decide_eq_true_eq]
        rcases mem_of_mem_joinWith hc with rfl | ⟨part, hpart, hc⟩
        · decide
        · obtain ⟨id, hid, rfl⟩ := List.mem_map.mp hpart
          rintro rfl
          exact (each id hid).not_mem (by decide) (by decide) hc
      have ends : ∀ c ∈ (row '+' (build.map String.toList)).head?, decide (c ≠ '+') = false := by
        cases build with
        | nil => simp [row]
        | cons id ids => simp [row]
      obtain ⟨taken, left⟩ := takeWhile_of_ends inside ends
      rw [row_eq '-' empty, List.cons_append, suffix?]
      simp only [taken, left, word, tail]
      rfl

end Identifiers

/-! ## Versions -/

section Versions

variable {s : String} {v : Version}

/-- The characters of a version's text. -/
def spelled (v : Version) : List Char :=
  Nat.toDigits 10 v.major ++ '.' :: (Nat.toDigits 10 v.minor ++ '.' ::
    (Nat.toDigits 10 v.patch ++
      (row '-' (v.pre.map String.toList) ++ row '+' (v.build.map String.toList))))

theorem toList_text (v : Version) : v.text.toList = v.spelled := by
  have part (mark : String) (c : Char) (one : mark.toList = [c]) (ids : List String) :
      (if ids.isEmpty then "" else mark ++ ".".intercalate ids).toList =
        row c (ids.map String.toList) := by
    cases ids with
    | nil => rfl
    | cons id ids =>
      simp [String.toList_intercalate, row, one, intercalate_eq_joinWith]
  have pre := part "-" '-' rfl v.pre
  have build := part "+" '+' rfl v.build
  have number (n : Nat) : (toString n).toList = Nat.toDigits 10 n := Nat.toList_repr
  have dot : (toString ".").toList = ['.'] := rfl
  simp only [text, preText, buildText, String.toList_append, pre, build, number, dot]
  simp [spelled]

/-- A text is read as a version if and only if it is the text of that version, and the version
has parts that the grammar allows. -/
theorem ofText?_eq_some_iff : ofText? s = some v ↔ v.IsProper ∧ s = v.text := by
  rw [← String.toList_inj, toList_text]
  constructor
  · intro read
    obtain ⟨⟨major, cs⟩, first, read⟩ := Option.bind_eq_some_iff.mp read
    obtain ⟨cs₁, dot, read⟩ := Option.bind_eq_some_iff.mp read
    obtain ⟨⟨minor, cs₂⟩, second, read⟩ := Option.bind_eq_some_iff.mp read
    obtain ⟨cs₃, dot', read⟩ := Option.bind_eq_some_iff.mp read
    obtain ⟨⟨patch, cs₄⟩, third, read⟩ := Option.bind_eq_some_iff.mp read
    obtain ⟨⟨pre, build⟩, last, read⟩ := Option.bind_eq_some_iff.mp read
    cases read
    obtain ⟨major_lt, text, -⟩ := number?_eq_some_iff.mp first
    obtain rfl := after?_eq_some_iff.mp dot
    obtain ⟨minor_lt, rfl, -⟩ := number?_eq_some_iff.mp second
    obtain rfl := after?_eq_some_iff.mp dot'
    obtain ⟨patch_lt, rfl, -⟩ := number?_eq_some_iff.mp third
    obtain ⟨hpre, hbuild, rfl⟩ := suffix?_eq_some_iff.mp last
    exact ⟨⟨major_lt, minor_lt, patch_lt, hpre, hbuild⟩, text⟩
  · rintro ⟨proper, text⟩
    have dotted (rest : List Char) : ∀ c ∈ ('.' :: rest).head?, isDigit c = false := by
      rintro c ⟨⟩
      decide
    have last := suffix?_eq_some_iff.mpr ⟨proper.pre, proper.build, rfl⟩
    -- Behind the numbers there is `-`, `+` or nothing.
    have ends : ∀ c ∈ (row '-' (v.pre.map String.toList) ++
        row '+' (v.build.map String.toList)).head?, isDigit c = false := by
      rcases v.pre with _ | ⟨id, ids⟩
      · rcases v.build with _ | ⟨id, ids⟩
        · rintro c ⟨⟩
        · rintro c ⟨⟩
          decide
      · rintro c ⟨⟩
        decide
    have third := number?_eq_some_iff.mpr ⟨proper.patch_lt, rfl, ends⟩
    have second (rest : List Char) := number?_eq_some_iff.mpr
      ⟨proper.minor_lt, rfl, dotted rest⟩
    have first (rest : List Char) := number?_eq_some_iff.mpr
      ⟨proper.major_lt, rfl, dotted rest⟩
    have skip (rest : List Char) : after? '.' ('.' :: rest) = some rest :=
      after?_eq_some_iff.mpr rfl
    simp [ofText?, text, spelled, first, second, third, skip, last]

/-- The texts that are read are those of the grammar. -/
theorem ofText?_isSome_iff : (ofText? s).isSome = true ↔ IsSemantic s.toList := by
  rw [Option.isSome_iff_exists]
  constructor
  · rintro ⟨v, read⟩
    obtain ⟨proper, rfl⟩ := ofText?_eq_some_iff.mp read
    exact ⟨_, _, _, _, _, isNumber_toDigits proper.major_lt, isNumber_toDigits proper.minor_lt,
      isNumber_toDigits proper.patch_lt, List.forall_mem_map.mpr proper.pre,
      List.forall_mem_map.mpr proper.build, toList_text v⟩
  · rintro ⟨major, minor, patch, pre, build, hmajor, hminor, hpatch, hpre, hbuild, text⟩
    have proper : IsProper ⟨decimal major, decimal minor, decimal patch, pre.map String.ofList,
        build.map String.ofList⟩ :=
      { major_lt := hmajor.small
        minor_lt := hminor.small
        patch_lt := hpatch.small
        pre := List.forall_mem_map.mpr fun part hpart => by
          rw [String.toList_ofList]
          exact hpre part hpart
        build := List.forall_mem_map.mpr fun part hpart => by
          rw [String.toList_ofList]
          exact hbuild part hpart }
    refine ⟨_, ofText?_eq_some_iff.mpr ⟨proper, ?_⟩⟩
    rw [← String.toList_inj, toList_text, spelled, text]
    simp only [map_toList_ofList, ← hmajor.eq_toDigits, ← hminor.eq_toDigits,
      ← hpatch.eq_toDigits]

end Versions

end PluginHost.Version
