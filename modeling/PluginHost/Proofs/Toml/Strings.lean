import Mathlib.Data.List.TakeWhile
import PluginHost.Toml.Style

/-!
# Strings that are read back

A string is written in a style that can hold it, and the reader of that style takes it back
from the front of any text that does not go on with a quote.

* `Written` is what may stand for one character between double quotes.
* `Style.Holds` says of a string that a style has means to write it.

Results:
1. `escapeChar_written`: a character is written in a way that stands for it.
2. `basic_escaped`, `literal_append`, `multiBasic_escaped` and `multiLiteral_append`: each
   style is read back.
3. `quoted_stringText`: so is a string, whatever style it is written in.
-/

namespace PluginHost.Toml

/-! ## Definitions -/

/-- What may stand for a character between double quotes. An escape is not taken for the end
of a line, whatever comes after it. -/
inductive Written (multi : Bool) (c : Char) : List Char → Prop
  | plain (control : isControl c = false) (slash : c ≠ '\\') : Written multi c [c]
  | newline (lines : multi = true) (end_ : c = '\n') : Written multi c [c]
  | escape (body : List Char) (stands : ∀ rest, escape (body ++ rest) = some (c, rest))
      (continues : ∀ rest, continued? (body ++ rest) = none) : Written multi c ('\\' :: body)

/-- A style can hold a string. -/
def Style.Holds : Style → List Char → Prop
  | .basic, _ => True
  | .literal, cs => ∀ c ∈ cs, c ≠ '\'' ∧ isControl c = false
  | .multiBasic, _ => True
  | .multiLiteral, cs =>
    longestRun '\'' 0 cs ≤ 2 ∧ ∀ c ∈ cs, isControl c = false ∨ c = '\n'

/-! ## Escapes -/

theorem charOf?_toNat (c : Char) : charOf? c.toNat = some c := by
  rw [charOf?, if_pos (show c.toNat.isValidChar from c.valid), Char.ofNat_toNat]

/-- Four digits that stand for a character of one byte. -/
theorem hexNumber?_byte : ∀ n < 256,
    hexNumber? ['0', '0', hexDigit (n / 16), hexDigit (n % 16)] = some n := by
  decide +kernel

theorem escape_numberEscape (c : Char) (byte : c.toNat < 256) (rest : List Char) :
    escape ('u' :: '0' :: '0' :: hexDigit (c.toNat / 16) :: hexDigit (c.toNat % 16) :: rest) =
      some (c, rest) := by
  have digits := hexNumber?_byte c.toNat byte
  simp [escape, numbered, digits, charOf?_toNat]

/-- A character is written in a way that stands for it. -/
theorem escapeChar_written (multi : Bool) (c : Char) : Written multi c (escapeChar multi c) := by
  have eq {n : Nat} (h : c.toNat = n) : c = Char.ofNat n := by rw [← h, Char.ofNat_toNat]
  unfold escapeChar
  split
  case h_1 h => exact eq h ▸ .escape ['b'] (fun _ => rfl) fun _ => rfl
  case h_2 h => exact eq h ▸ .escape ['t'] (fun _ => rfl) fun _ => rfl
  case h_3 h =>
    cases multi with
    | true => exact .newline rfl (eq h)
    | false => exact eq h ▸ .escape ['n'] (fun _ => rfl) fun _ => rfl
  case h_4 h => exact eq h ▸ .escape ['f'] (fun _ => rfl) fun _ => rfl
  case h_5 h => exact eq h ▸ .escape ['r'] (fun _ => rfl) fun _ => rfl
  case h_6 h =>
    obtain rfl := eq h
    exact .escape ['\\'] (fun _ => rfl) fun _ => rfl
  case h_7 _ _ _ _ _ slash =>
    cases control : isControl c with
    | false => exact .plain control fun same => slash (same ▸ rfl)
    | true =>
      have byte : c.toNat < 256 := by
        simp only [isControl, Bool.or_eq_true, Bool.and_eq_true, decide_eq_true_eq] at control
        omega
      exact .escape _ (escape_numberEscape c byte) fun _ => rfl

theorem Written.length_pos {multi : Bool} {c : Char} {t : List Char} (written : Written multi c t) :
    0 < t.length := by
  cases written <;> exact Nat.succ_pos _

/-! ## Strings of one line -/

/-- What a reader makes of the first character of a written text. -/
theorem basic_written {c : Char} {t : List Char} (written : Written false c t) (quote : c ≠ '"')
    (fuel : Nat) (rest : List Char) : basic (fuel + 1) (t ++ rest) =
      (basic fuel rest).bind fun r => some (c :: r.1, r.2) := by
  cases written with
  | plain control slash =>
    rw [List.singleton_append, basic, if_neg quote, if_neg slash, if_neg (by simp [control])]
    rfl
  | newline lines => cases lines
  | escape body stands =>
    rw [List.cons_append, basic, if_neg (by decide), if_pos rfl, stands]
    rfl

/-- A string between double quotes is read back. -/
theorem basic_escaped (cs rest : List Char) {fuel : Nat} (enough : cs.length < fuel) :
    basic fuel (escaped false 0 0 cs ++ '"' :: rest) = some (cs, rest) := by
  induction cs generalizing fuel with
  | nil =>
    obtain ⟨fuel, rfl⟩ := Nat.exists_eq_add_one_of_ne_zero (Nat.ne_zero_of_lt enough)
    rfl
  | cons c cs ih =>
    obtain ⟨fuel, rfl⟩ := Nat.exists_eq_add_one_of_ne_zero (Nat.ne_zero_of_lt enough)
    have others := ih (Nat.lt_of_succ_lt_succ enough)
    by_cases quote : c = '"'
    · subst quote
      have first : escape ('"' :: (escaped false 0 0 cs ++ '"' :: rest)) =
          some ('"', escaped false 0 0 cs ++ '"' :: rest) := rfl
      rw [escaped, if_pos rfl, if_neg (Nat.lt_irrefl 0), List.cons_append, List.cons_append,
        basic, if_neg (by decide), if_pos rfl, first]
      simp [others]
    · rw [escaped, if_neg quote, List.append_assoc,
        basic_written (escapeChar_written false c) quote, others]
      rfl

theorem length_le_escaped (multi : Bool) (allowed seen : Nat) (cs : List Char) :
    cs.length ≤ (escaped multi allowed seen cs).length := by
  induction cs generalizing seen with
  | nil => exact Nat.le_refl 0
  | cons c cs ih =>
    rw [escaped]
    split
    · split
      · exact Nat.succ_le_succ (ih _)
      · exact Nat.succ_le_succ ((ih _).trans (Nat.le_succ _))
    · have one := (escapeChar_written multi c).length_pos
      have others := ih 0
      rw [List.length_cons, List.length_append]
      omega

/-- A string between single quotes is read back. -/
theorem literal_append {cs : List Char} (rest : List Char)
    (fits : ∀ c ∈ cs, c ≠ '\'' ∧ isControl c = false) :
    literal (cs ++ '\'' :: rest) = some (cs, rest) := by
  induction cs with
  | nil => rfl
  | cons c cs ih =>
    obtain ⟨⟨quote, control⟩, others⟩ := List.forall_mem_cons.mp fits
    rw [List.cons_append, literal, if_neg quote, control, ih others]
    rfl

/-! ## Strings of several lines -/

/-- One or two quotes before the quotes that end a string belong to it. -/
theorem closing?_of_all {x : Char} {cs rest : List Char} (all : ∀ c ∈ cs, c = x)
    (few : cs.length ≤ 2) (other : rest.head? ≠ some x) :
    closing? x (cs ++ x :: x :: x :: rest) = some (cs, rest) := by
  have ends : rest.takeWhile (· = x) = [] := by
    cases rest with
    | nil => rfl
    | cons c rest =>
      exact List.takeWhile_cons_of_neg (by simpa using fun same => other (congrArg some same))
  have run : (cs ++ x :: x :: x :: rest).takeWhile (· = x) = cs ++ [x, x, x] := by
    rw [List.takeWhile_append_of_pos (by simpa using all)]
    simp [ends]
  have long : (cs ++ [x, x, x]).length = cs.length + 3 := by
    rw [List.length_append]
    rfl
  have taken : min (cs.length + 3) 5 = cs.length + 3 := by omega
  have quotes : List.replicate cs.length x = cs := (List.eq_replicate_of_mem all).symm
  have rest' : (cs ++ x :: x :: x :: rest).drop (cs.length + 3) = rest := by
    rw [← List.drop_drop, List.drop_left]
    rfl
  simp only [closing?, run, long, taken, rest', Nat.add_sub_cancel, quotes]
  exact if_neg (by omega)

/-- Where something other than a quote comes before the quotes that end a string, it goes on. -/
theorem closing?_of_not_all {x : Char} {cs : List Char} (rest : List Char)
    (other : ¬∀ c ∈ cs, c = x) (few : (cs.takeWhile (· = x)).length ≤ 2) :
    closing? x (cs ++ rest) = none := by
  have run : (cs ++ rest).takeWhile (· = x) = cs.takeWhile (· = x) := by
    rw [List.takeWhile_append, if_neg fun all => other fun c mem => ?_]
    rw [← (List.takeWhile_prefix _).eq_of_length all] at mem
    simpa using List.mem_takeWhile_imp mem
  rw [closing?, run, if_pos (by omega)]

theorem Written.takeWhile {multi : Bool} {c : Char} {t : List Char} (written : Written multi c t)
    (quote : c ≠ '"') (rest : List Char) : (t ++ rest).takeWhile (· = '"') = [] := by
  cases written with
  | plain => exact List.takeWhile_cons_of_neg (by simpa using quote)
  | newline => exact List.takeWhile_cons_of_neg (by simpa using quote)
  | escape => exact List.takeWhile_cons_of_neg (by decide)

/-- Between double quotes, only so many quotes follow each other. -/
theorem takeWhile_escaped (cs : List Char) {allowed seen : Nat} (few : seen ≤ allowed) :
    ((escaped true allowed seen cs).takeWhile (· = '"')).length + seen ≤ allowed := by
  induction cs generalizing seen with
  | nil => exact (Nat.zero_add seen).trans_le few
  | cons c cs ih =>
    rw [escaped]
    by_cases quote : c = '"'
    · rw [if_pos quote]
      subst quote
      split
      case isTrue less =>
        rw [List.takeWhile_cons_of_pos (by decide), List.length_cons, Nat.add_right_comm,
          Nat.add_assoc]
        exact ih less
      case isFalse =>
        rw [List.takeWhile_cons_of_neg (by decide)]
        exact (Nat.zero_add seen).trans_le few
    · rw [if_neg quote, (escapeChar_written true c).takeWhile quote]
      exact (Nat.zero_add seen).trans_le few

/-- A text of quotes alone is written as it is, if it is short enough. -/
theorem escaped_of_all (cs : List Char) {allowed seen : Nat}
    (all : ∀ c ∈ escaped true allowed seen cs, c = '"') : escaped true allowed seen cs = cs := by
  induction cs generalizing seen with
  | nil => rfl
  | cons c cs ih =>
    rw [escaped] at all ⊢
    by_cases quote : c = '"'
    · rw [if_pos quote] at all ⊢
      by_cases less : seen < allowed
      · rw [if_pos less] at all ⊢
        rw [ih (List.forall_mem_cons.mp all).2]
      · rw [if_neg less] at all
        exact absurd (List.forall_mem_cons.mp all).1 (by decide)
    · rw [if_neg quote] at all
      have some := (escapeChar_written true c).length_pos
      have none := (escapeChar_written true c).takeWhile quote []
      rw [List.append_nil, List.takeWhile_eq_self_iff.mpr] at none
      · rw [none] at some
        cases some
      · intro d hd
        simpa using all d (List.mem_append_left _ hd)

theorem plain_of_not_control {c : Char} (control : isControl c = false) (rest : List Char) :
    plain (c :: rest) = some ([c], rest) := by
  unfold plain
  split
  case h_1 eq => cases eq
  case h_2 eq =>
    obtain rfl := (List.cons.inj eq).1
    cases control
  case h_3 eq =>
    obtain rfl := (List.cons.inj eq).1
    cases control
  case h_4 eq =>
    obtain ⟨rfl, rfl⟩ := List.cons.inj eq
    rw [if_neg (by simp [control])]

theorem multiBasic_of_escape {cs rest : List Char} {c : Char}
    (goes : closing? '"' ('\\' :: cs) = none) (continues : continued? cs = none)
    (stands : escape cs = some (c, rest)) (fuel : Nat) : multiBasic (fuel + 1) ('\\' :: cs) =
      (multiBasic fuel rest).bind fun r => some (c :: r.1, r.2) := by
  simp only [multiBasic, goes, continues, stands]
  rfl

theorem multiBasic_of_plain {c : Char} {cs : List Char} (goes : closing? '"' (c :: cs) = none)
    (slash : c ≠ '\\') (one : plain (c :: cs) = some ([c], cs)) (fuel : Nat) :
    multiBasic (fuel + 1) (c :: cs) =
      (multiBasic fuel cs).bind fun r => some (c :: r.1, r.2) := by
  simp only [multiBasic, goes]
  split
  case h_1 eq => exact absurd (List.cons.inj eq).1 slash
  case h_2 =>
    rw [one]
    rfl

/-- What a reader makes of the first character of a written text. -/
theorem multiBasic_written {c : Char} {t : List Char} (written : Written true c t)
    (quote : c ≠ '"') (fuel : Nat) (rest : List Char) : multiBasic (fuel + 1) (t ++ rest) =
      (multiBasic fuel rest).bind fun r => some (c :: r.1, r.2) := by
  have goes : closing? '"' (t ++ rest) = none := by
    rw [closing?, written.takeWhile quote]
    rfl
  cases written with
  | plain control slash =>
    exact multiBasic_of_plain goes slash (plain_of_not_control control rest) fuel
  | newline lines end_ =>
    subst end_
    exact multiBasic_of_plain goes (by decide) rfl fuel
  | escape body stands continues =>
    exact multiBasic_of_escape goes (continues rest) (stands rest) fuel

/-- A string between triple double quotes is read back. -/
theorem multiBasic_escaped (cs : List Char) {rest : List Char} {fuel seen : Nat}
    (enough : cs.length < fuel) (few : seen ≤ 2) (other : rest.head? ≠ some '"') :
    multiBasic fuel (escaped true 2 seen cs ++ '"' :: '"' :: '"' :: rest) = some (cs, rest) := by
  have short := takeWhile_escaped cs few
  induction cs generalizing fuel seen with
  | nil =>
    obtain ⟨fuel, rfl⟩ := Nat.exists_eq_add_one_of_ne_zero (Nat.ne_zero_of_lt enough)
    have ends : closing? '"' ([] ++ '"' :: '"' :: '"' :: rest) = some ([], rest) :=
      closing?_of_all (by simp) (by decide) other
    rw [List.nil_append] at ends
    simp only [escaped, List.nil_append, multiBasic, ends]
  | cons c cs ih =>
    obtain ⟨fuel, rfl⟩ := Nat.exists_eq_add_one_of_ne_zero (Nat.ne_zero_of_lt enough)
    by_cases all : ∀ d ∈ escaped true 2 seen (c :: cs), d = '"'
    · -- The string ends in quotes that stand right before those that close it.
      have same := escaped_of_all (c :: cs) all
      rw [same] at all short
      rw [List.takeWhile_eq_self_iff.mpr (by simpa using all)] at short
      have ends := closing?_of_all all (by omega) other
      rw [same]
      simp only [multiBasic, ends]
    · have others {seen : Nat} (few : seen ≤ 2) :=
        ih (Nat.lt_of_succ_lt_succ enough) few (takeWhile_escaped cs few)
      have goes := closing?_of_not_all ('"' :: '"' :: '"' :: rest) all (by omega)
      rw [escaped] at goes ⊢
      by_cases quote : c = '"'
      · subst quote
        rw [if_pos rfl] at goes ⊢
        by_cases less : seen < 2
        · rw [if_pos less] at goes ⊢
          rw [List.cons_append] at goes ⊢
          rw [multiBasic_of_plain goes (by decide) rfl, others less]
          rfl
        · rw [if_neg less] at goes ⊢
          rw [List.cons_append, List.cons_append] at goes ⊢
          rw [multiBasic_of_escape goes rfl rfl, others (Nat.zero_le 2)]
          rfl
      · rw [if_neg quote, List.append_assoc,
          multiBasic_written (escapeChar_written true c) quote, others (Nat.zero_le 2)]
        rfl

/-- The quotes that a text starts with belong to its longest run. -/
theorem takeWhile_add_le_longestRun (x : Char) (seen : Nat) (cs : List Char) :
    (cs.takeWhile (· = x)).length + seen ≤ longestRun x seen cs := by
  induction cs generalizing seen with
  | nil => exact (Nat.zero_add seen).le
  | cons c cs ih =>
    rw [longestRun]
    by_cases same : c = x
    · rw [if_pos same, List.takeWhile_cons_of_pos (by simpa using same), List.length_cons,
        Nat.add_right_comm, Nat.add_assoc]
      exact ih (seen + 1)
    · rw [if_neg same, List.takeWhile_cons_of_neg (by simpa using same), List.length_nil,
        Nat.zero_add]
      exact Nat.le_max_left _ _

/-- A string between triple single quotes is read back. -/
theorem multiLiteral_append (cs : List Char) {rest : List Char} {fuel seen : Nat}
    (enough : cs.length < fuel) (few : longestRun '\'' seen cs ≤ 2)
    (fits : ∀ c ∈ cs, isControl c = false ∨ c = '\n') (other : rest.head? ≠ some '\'') :
    multiLiteral fuel (cs ++ '\'' :: '\'' :: '\'' :: rest) = some (cs, rest) := by
  have short := takeWhile_add_le_longestRun '\'' seen cs
  induction cs generalizing fuel seen with
  | nil =>
    obtain ⟨fuel, rfl⟩ := Nat.exists_eq_add_one_of_ne_zero (Nat.ne_zero_of_lt enough)
    have ends : closing? '\'' ([] ++ '\'' :: '\'' :: '\'' :: rest) = some ([], rest) :=
      closing?_of_all (by simp) (by decide) other
    rw [List.nil_append] at ends ⊢
    simp only [multiLiteral, ends]
  | cons c cs ih =>
    obtain ⟨fuel, rfl⟩ := Nat.exists_eq_add_one_of_ne_zero (Nat.ne_zero_of_lt enough)
    by_cases all : ∀ d ∈ c :: cs, d = '\''
    · rw [List.takeWhile_eq_self_iff.mpr (by simpa using all)] at short
      have ends := closing?_of_all all (by omega) other
      simp only [multiLiteral, ends]
    · have goes := closing?_of_not_all ('\'' :: '\'' :: '\'' :: rest) all (by omega)
      obtain ⟨one, fits⟩ := List.forall_mem_cons.mp fits
      have first (rest : List Char) : plain (c :: rest) = some ([c], rest) := by
        rcases one with control | rfl
        · exact plain_of_not_control control rest
        · rfl
      have others : multiLiteral fuel (cs ++ '\'' :: '\'' :: '\'' :: rest) = some (cs, rest) := by
        rw [longestRun] at few
        split at few
        · exact ih (Nat.lt_of_succ_lt_succ enough) few fits (takeWhile_add_le_longestRun _ _ cs)
        · exact ih (Nat.lt_of_succ_lt_succ enough) ((Nat.le_max_right _ _).trans few) fits
            (takeWhile_add_le_longestRun _ _ cs)
      rw [List.cons_append] at goes ⊢
      simp only [multiLiteral, goes, first]
      simp [others]

/-! ## Strings of any kind -/

/-- What a reader of several lines starts with is the string, and not the line end that may
stand before it. -/
theorem afterOpening_opening {cs text : List Char}
    (first : ∀ d ∈ text.head?, isControl d = true → '\n' ∈ cs) :
    afterOpening (opening cs ++ text) = text := by
  unfold opening
  split
  case isTrue => rfl
  case isFalse none =>
    rw [List.nil_append, afterOpening]
    have goes : lineEnd? text = .none := by
      unfold lineEnd?
      split
      · exact absurd (first _ rfl rfl) (by simpa using none)
      · exact absurd (first _ rfl rfl) (by simpa using none)
      · rfl
    rw [goes]
    rfl

/-- What is written for a character starts with a control character only if it is the end of
a line. -/
theorem Written.first {multi : Bool} {c : Char} {t : List Char} (written : Written multi c t)
    (rest : List Char) : ∀ d ∈ (t ++ rest).head?, isControl d = true → c = '\n' := by
  intro d first control
  cases written with
  | plain none =>
    obtain rfl := Option.some.inj first
    rw [none] at control
    cases control
  | newline _ end_ => exact end_
  | escape =>
    obtain rfl := Option.some.inj first
    cases control

theorem first_escaped (cs rest : List Char) :
    ∀ d ∈ (escaped true 2 0 cs ++ '"' :: rest).head?, isControl d = true → '\n' ∈ cs := by
  intro d first control
  cases cs with
  | nil =>
    obtain rfl := Option.some.inj first
    cases control
  | cons c cs =>
    rw [escaped] at first
    by_cases quote : c = '"'
    · rw [if_pos quote, if_pos (by decide)] at first
      obtain rfl := Option.some.inj first
      subst quote
      cases control
    · rw [if_neg quote, List.append_assoc] at first
      obtain rfl := (escapeChar_written true c).first _ d first control
      exact List.mem_cons_self

theorem first_append {cs : List Char} (fits : ∀ c ∈ cs, isControl c = false ∨ c = '\n')
    (rest : List Char) :
    ∀ d ∈ (cs ++ '\'' :: rest).head?, isControl d = true → '\n' ∈ cs := by
  intro d first control
  cases cs with
  | nil =>
    obtain rfl := Option.some.inj first
    cases control
  | cons c cs =>
    obtain rfl := Option.some.inj first
    rcases fits c List.mem_cons_self with none | rfl
    · rw [none] at control
      cases control
    · exact List.mem_cons_self

/-- A string of one line between double quotes does not start as one of several lines does. -/
theorem escaped_one_quote (cs : List Char) {rest : List Char} (other : rest.head? ≠ some '"') :
    ∀ more, escaped false 0 0 cs ++ '"' :: rest ≠ '"' :: '"' :: more := by
  intro more eq
  cases cs with
  | nil =>
    obtain rfl := (List.cons.inj eq).2
    exact other rfl
  | cons c cs =>
    rw [escaped] at eq
    by_cases quote : c = '"'
    · rw [if_pos quote, if_neg (Nat.lt_irrefl 0)] at eq
      cases eq
    · have none := (escapeChar_written false c).takeWhile quote
        (escaped false 0 0 cs ++ '"' :: rest)
      rw [if_neg quote, List.append_assoc] at eq
      rw [eq] at none
      cases none

theorem append_one_quote {x : Char} {cs rest : List Char} (none : ∀ c ∈ cs, c ≠ x)
    (other : rest.head? ≠ some x) : ∀ more, cs ++ x :: rest ≠ x :: x :: more := by
  intro more eq
  cases cs with
  | nil =>
    obtain rfl := (List.cons.inj eq).2
    exact other rfl
  | cons c cs => exact none c List.mem_cons_self (List.cons.inj eq).1

theorem quoted_basic {cs : List Char} (one : ∀ rest, cs ≠ '"' :: '"' :: rest) :
    quoted ('"' :: cs) = basic (cs.length + 2) cs := by
  unfold quoted
  split
  case h_1 rest eq => exact absurd (List.cons.inj eq).2 (one rest)
  case h_2 eq => cases eq
  case h_3 eq =>
    obtain rfl := (List.cons.inj eq).2
    rfl
  case h_4 eq => cases eq
  case h_5 other _ => exact absurd rfl (other cs)

theorem quoted_literal {cs : List Char} (one : ∀ rest, cs ≠ '\'' :: '\'' :: rest) :
    quoted ('\'' :: cs) = literal cs := by
  unfold quoted
  split
  case h_1 eq => cases eq
  case h_2 rest eq => exact absurd (List.cons.inj eq).2 (one rest)
  case h_3 eq => cases eq
  case h_4 eq =>
    obtain rfl := (List.cons.inj eq).2
    rfl
  case h_5 other => exact absurd rfl (other cs)

/-- A string is read back in any style that can hold it. -/
theorem Style.quoted_write (style : Style) {cs : List Char} (holds : style.Holds cs)
    {rest : List Char} (double : rest.head? ≠ some '"') (single : rest.head? ≠ some '\'') :
    quoted (style.write cs ++ rest) = some (cs, rest) := by
  cases style with
  | basic =>
    have long := length_le_escaped false 0 0 cs
    have enough : cs.length < (escaped false 0 0 cs ++ '"' :: rest).length + 2 := by
      rw [List.length_append]
      omega
    rw [write, List.cons_append, List.append_assoc, List.singleton_append,
      quoted_basic (escaped_one_quote cs double), basic_escaped cs rest enough]
  | literal =>
    have one := append_one_quote (fun c mem => (holds c mem).1) single
    rw [write, List.cons_append, List.append_assoc, List.singleton_append, quoted_literal one,
      literal_append rest holds]
  | multiBasic =>
    have opened := afterOpening_opening (first_escaped cs ('"' :: '"' :: rest))
    have text : Style.multiBasic.write cs ++ rest = '"' :: '"' :: '"' ::
        (opening cs ++ (escaped true 2 0 cs ++ '"' :: '"' :: '"' :: rest)) := by
      simp [write]
    have long := length_le_escaped true 2 0 cs
    rw [text, quoted, opened]
    refine multiBasic_escaped cs ?_ (Nat.zero_le 2) double
    simp only [List.length_cons, List.length_append]
    omega
  | multiLiteral =>
    obtain ⟨few, fits⟩ := holds
    have opened := afterOpening_opening (first_append fits ('\'' :: '\'' :: rest))
    have text : Style.multiLiteral.write cs ++ rest = '\'' :: '\'' :: '\'' ::
        (opening cs ++ (cs ++ '\'' :: '\'' :: '\'' :: rest)) := by
      simp [write]
    rw [text, quoted, opened]
    refine multiLiteral_append cs ?_ few fits single
    simp only [List.length_cons, List.length_append]
    omega

/-! ## The style of a string -/

theorem longestRun_eq_zero {x : Char} {cs : List Char} (none : longestRun x 0 cs = 0) :
    x ∉ cs := by
  induction cs with
  | nil => exact List.not_mem_nil
  | cons c cs ih =>
    rw [longestRun] at none
    split at none
    · have some := takeWhile_add_le_longestRun x (0 + 1) cs
      omega
    case isFalse other =>
      exact List.not_mem_cons_of_ne_of_not_mem (Ne.symm other) (ih (by omega))

/-- Without control characters but for the ends of lines. -/
theorem of_not_control {cs : List Char} (none : (Traits.ofText cs).control = false) :
    ∀ c ∈ cs, isControl c = false ∨ c = '\n' := by
  intro c hc
  have one := List.any_eq_false.mp none c hc
  cases control : isControl c with
  | false => exact .inl rfl
  | true => exact .inr (by simpa [control] using one)

/-- Single quotes hold a string without them, control characters and the ends of lines. -/
theorem Style.literal_holds {cs : List Char} (none : (Traits.ofText cs).control = false)
    (one : (Traits.ofText cs).newline = false) (quotes : (Traits.ofText cs).singles = 0) :
    Style.literal.Holds cs := by
  refine fun c hc => ⟨fun same => longestRun_eq_zero quotes (same ▸ hc), ?_⟩
  refine (of_not_control none c hc).resolve_right fun same => ?_
  simpa [same] using List.any_eq_false.mp one c hc

/-- The style that is chosen for a string can hold it. -/
theorem Style.ofText_holds (cs : List Char) : (Style.ofText cs).Holds cs := by
  simp only [ofText, Traits.plainStyle?]
  split
  · trivial
  split
  case isTrue h =>
    simp only [Bool.and_eq_true, Bool.not_eq_true', decide_eq_true_eq] at h
    exact literal_holds h.1.1 h.1.2 h.2
  split
  · trivial
  split
  case isTrue h =>
    simp only [Bool.and_eq_true, Bool.not_eq_true', decide_eq_true_eq] at h
    exact ⟨h.2, of_not_control h.1⟩
  · split <;> trivial

/-- So can the style that is chosen for a key. -/
theorem Style.ofKey_holds (cs : List Char) : (Style.ofKey cs).Holds cs := by
  simp only [ofKey]
  split
  · trivial
  split
  case isTrue h =>
    simp only [Bool.and_eq_true, Bool.not_eq_true', decide_eq_true_eq] at h
    exact literal_holds h.1.1 h.1.2 h.2
  · trivial

/-- A string is read back. -/
theorem quoted_stringText (s : String) {rest : List Char} (double : rest.head? ≠ some '"')
    (single : rest.head? ≠ some '\'') :
    quoted (stringText s ++ rest) = some (s.toList, rest) :=
  (Style.ofText s.toList).quoted_write (Style.ofText_holds s.toList) double single

end PluginHost.Toml
