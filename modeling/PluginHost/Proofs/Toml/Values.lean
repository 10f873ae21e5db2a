import PluginHost.Proofs.Text.Digits
import PluginHost.Proofs.Text.Split
import PluginHost.Proofs.Toml.Strings
import PluginHost.Proofs.Toml.Tables
import PluginHost.Toml.Reader

/-!
# Keys and values that are read back

A key, a path and a value are written so that their readers take them back from the front of
a text. What comes after them says where they end: a path is not followed by a dot or by what
a key without quotes could be made of, and a value is followed by the end of its line.

Results:
1. `keyPart_keyText` and `key_pathText`: keys and paths are read back.
2. `scalar?_toDigits`: so are numbers.
3. `items_itemLines`: so are the items of an array, each on a line of its own.
4. `value_text`: so is every value.
-/

namespace PluginHost.Toml

/-! ## Definitions -/

/-- The number of an entry is not too large to be read. -/
def Entry.Fits : Entry → Prop
  | .count n => (n : Int) < integerRange.2
  | _ => True

/-- More steps than this read an entry. -/
def Entry.steps : Entry → Nat
  | .strings ss => ss.length + 1
  | _ => 0

/-- A character that a key or a string may start with. -/
def isWord (c : Char) : Bool :=
  isBare c || c = '"' || c = '\''

/-! ## Blanks and words -/

theorem ne_of_isWord {c d : Char} (word : isWord c = true) (other : isWord d = false) : c ≠ d :=
  fun same => Bool.false_ne_true (other.symm.trans (same ▸ word))

theorem isBlank_of_isWord {c : Char} (word : isWord c = true) : isBlank c = false := by
  have blank := ne_of_isWord word (d := ' ') (by decide)
  have tab := ne_of_isWord word (d := '\t') (by decide)
  simp [isBlank, blank, tab]

@[simp] theorem skipBlanks_blank (cs : List Char) : skipBlanks (' ' :: cs) = skipBlanks cs := rfl

theorem skipBlanks_of_not_blank {c : Char} (other : isBlank c = false) (cs : List Char) :
    skipBlanks (c :: cs) = c :: cs :=
  List.dropWhile_cons_of_neg (by simp [other])

@[simp] theorem skipIdle_newline (cs : List Char) :
    skipIdle false ('\n' :: cs) = skipIdle false cs := by
  simp [skipIdle]

@[simp] theorem skipIdle_blank (cs : List Char) :
    skipIdle false (' ' :: cs) = skipIdle false cs := by
  simp [skipIdle, isBlank]

theorem skipIdle_of_other {c : Char} (newline : c ≠ '\n') (return_ : c ≠ '\r')
    (blank : isBlank c = false) (comment : c ≠ '#') (cs : List Char) :
    skipIdle false (c :: cs) = some (c :: cs) := by
  simp [skipIdle, newline, return_, blank, comment]

theorem skipIdle_of_isWord {c : Char} (word : isWord c = true) (cs : List Char) :
    skipIdle false (c :: cs) = some (c :: cs) :=
  skipIdle_of_other (ne_of_isWord word (by decide)) (ne_of_isWord word (by decide))
    (isBlank_of_isWord word) (ne_of_isWord word (by decide)) cs

/-! ## Keys -/

/-- A string starts with a quote. -/
theorem stringText_head (s : String) :
    ∃ q cs, stringText s = q :: cs ∧ (q = '"' ∨ q = '\'') := by
  unfold stringText Style.write
  split
  · exact ⟨_, _, rfl, .inl rfl⟩
  · exact ⟨_, _, rfl, .inr rfl⟩
  · exact ⟨_, _, rfl, .inl rfl⟩
  · exact ⟨_, _, rfl, .inr rfl⟩

theorem ofKey_eq (cs : List Char) : Style.ofKey cs = .basic ∨ Style.ofKey cs = .literal := by
  simp only [Style.ofKey]
  split
  · exact .inl rfl
  · split
    · exact .inr rfl
    · exact .inl rfl

/-- A key starts as a word does. -/
theorem keyText_head (s : String) : ∃ c cs, keyText s = c :: cs ∧ isWord c = true := by
  unfold keyText
  dsimp only
  split
  case isTrue bare =>
    obtain ⟨some, all⟩ := bare
    obtain ⟨c, cs, eq⟩ := List.exists_cons_of_ne_nil some
    rw [eq] at all ⊢
    refine ⟨c, cs, rfl, ?_⟩
    rw [isWord, (List.all_eq_true.mp all) c List.mem_cons_self]
    rfl
  case isFalse =>
    rcases ofKey_eq s.toList with eq | eq
    · rw [eq]
      exact ⟨_, _, rfl, rfl⟩
    · rw [eq]
      exact ⟨_, _, rfl, rfl⟩

/-- A key without quotes is read back. -/
theorem keyPart_of_bare {cs rest : List Char} (some : cs ≠ []) (bare : ∀ c ∈ cs, isBare c = true)
    (ends : ∀ c ∈ rest.head?, isBare c = false) :
    keyPart (cs ++ rest) = .some (String.ofList cs, rest) := by
  obtain ⟨word, left⟩ := takeWhile_of_ends bare ends
  obtain ⟨c, cs, rfl⟩ := List.exists_cons_of_ne_nil some
  have first := bare c List.mem_cons_self
  unfold keyPart
  split
  case h_1 eq =>
    obtain rfl := (List.cons.inj eq).1
    cases first
  case h_2 eq =>
    obtain rfl := (List.cons.inj eq).1
    cases first
  case h_3 =>
    rw [word, left]

/-- A key is read back. -/
theorem keyPart_keyText (s : String) {rest : List Char}
    (ends : ∀ c ∈ rest.head?, isBare c = false) :
    keyPart (keyText s ++ rest) = some (s, rest) := by
  unfold keyText
  dsimp only
  split
  case isTrue bare =>
    rw [keyPart_of_bare bare.1 (List.all_eq_true.mp bare.2) ends, String.ofList_toList]
  case isFalse =>
    have holds := Style.ofKey_holds s.toList
    rcases ofKey_eq s.toList with eq | eq
    · have long := length_le_escaped false 0 0 s.toList
      have enough : s.toList.length <
          ('"' :: (escaped false 0 0 s.toList ++ '"' :: rest)).length + 1 := by
        rw [List.length_cons, List.length_append]
        omega
      rw [eq, Style.write, List.cons_append, List.append_assoc, List.singleton_append, keyPart,
        basic_escaped s.toList rest enough, Option.map_some]
      simp only [String.ofList_toList]
    · rw [eq] at holds
      rw [eq, Style.write, List.cons_append, List.append_assoc, List.singleton_append, keyPart,
        literal_append rest holds, Option.map_some]
      simp only [String.ofList_toList]

theorem key_of_last {cs rest : List Char} {part : String} (read : keyPart cs = some (part, rest))
    (last : (skipBlanks rest).head? ≠ some '.') (fuel : Nat) :
    key (fuel + 1) cs = some ([part], skipBlanks rest) := by
  simp only [key, read, Option.bind_eq_bind, Option.bind_some]
  split
  case h_1 eq => exact absurd (congrArg List.head? eq) last
  case h_2 => rfl

theorem key_of_dot {cs rest more : List Char} {part : String}
    (read : keyPart cs = some (part, rest)) (dot : skipBlanks rest = '.' :: more) (fuel : Nat) :
    key (fuel + 1) cs =
      (key fuel (skipBlanks more)).bind fun r => some (part :: r.1, r.2) := by
  simp only [key, read, dot, Option.bind_eq_bind, Option.bind_some]

/-- A path starts as a word does. -/
theorem pathText_head {path : List String} (some : path ≠ []) :
    ∃ c cs, pathText path = c :: cs ∧ isWord c = true := by
  obtain ⟨part, parts, rfl⟩ := List.exists_cons_of_ne_nil some
  obtain ⟨c, cs, eq, word⟩ := keyText_head part
  cases parts with
  | nil => exact ⟨c, cs, eq, word⟩
  | cons next parts =>
    refine ⟨c, cs ++ '.' :: pathText (next :: parts), ?_, word⟩
    rw [pathText, eq, List.cons_append]
    exact List.cons_ne_nil _ _

/-- A path is read back, and so are the blanks after it. -/
theorem key_pathText (path : List String) (some : path ≠ []) {rest : List Char}
    (ends : ∀ c ∈ rest.head?, isBare c = false) (last : (skipBlanks rest).head? ≠ .some '.')
    {fuel : Nat} (enough : path.length ≤ fuel) :
    key fuel (pathText path ++ rest) = .some (path, skipBlanks rest) := by
  induction path generalizing fuel with
  | nil => exact absurd rfl some
  | cons part parts ih =>
    obtain ⟨fuel, rfl⟩ := Nat.exists_eq_add_one_of_ne_zero (Nat.ne_zero_of_lt enough)
    cases parts with
    | nil => exact key_of_last (keyPart_keyText part ends) last fuel
    | cons next parts =>
      have read : keyPart (keyText part ++ '.' :: (pathText (next :: parts) ++ rest)) =
          .some (part, '.' :: (pathText (next :: parts) ++ rest)) :=
        keyPart_keyText part fun c first => Option.some.inj first ▸ rfl
      obtain ⟨c, cs, eq, word⟩ := pathText_head (List.cons_ne_nil next parts)
      have skip : skipBlanks (pathText (next :: parts) ++ rest) =
          pathText (next :: parts) ++ rest := by
        rw [eq]
        exact skipBlanks_of_not_blank (isBlank_of_isWord word) _
      have others := ih (List.cons_ne_nil next parts) (Nat.le_of_succ_le_succ enough)
      rw [pathText, List.append_assoc, List.cons_append, key_of_dot read rfl, skip, others]
      · rfl
      · exact List.cons_ne_nil _ _

/-! ## Numbers and truth values -/

/-- A run of characters that is all of its line. -/
theorem scalar_line {word : List Char} (plain : ∀ c ∈ word, isDelimiter c = false)
    (rest : List Char) :
    scalar (word ++ '\n' :: rest) = (scalar? word).map fun v => (v, '\n' :: rest) := by
  have plain : ∀ c ∈ word, (!isDelimiter c) = true := by simpa using plain
  have ends : ∀ c ∈ ('\n' :: rest).head?, (!isDelimiter c) = false := by simp [isDelimiter]
  obtain ⟨taken, left⟩ := takeWhile_of_ends plain ends
  have whole : run (word ++ '\n' :: rest) = (word, '\n' :: rest) := by
    simp only [run, taken, left]
    split
    case h_1 eq => cases eq
    case h_2 => rfl
  rw [scalar, whole]

theorem toNat_ne_of_isDigit {c : Char} {m : Nat} (digit : Ascii.isDigit c = true)
    (other : Ascii.isDigit (Char.ofNat m) = false) : c.toNat ≠ m := fun same =>
  Ascii.ne_of_isDigit digit other (by rw [← same, Char.ofNat_toNat])

theorem isDelimiter_of_isDigit {c : Char} (digit : Ascii.isDigit c = true) :
    isDelimiter c = false := by
  have other {d : Char} (other : Ascii.isDigit d = false) : c ≠ d :=
    Ascii.ne_of_isDigit digit other
  have brace : c.toNat ≠ 0x7D := toNat_ne_of_isDigit digit (by decide)
  simp only [isDelimiter, isBlank, brace, other (d := ' ') (by decide),
    other (d := '\t') (by decide), other (d := '\n') (by decide), other (d := '\r') (by decide),
    other (d := ',') (by decide), other (d := ']') (by decide), other (d := '#') (by decide)]
  rfl

theorem digits?_toDigits (n : Nat) :
    digits? Ascii.isDigit (Nat.toDigits 10 n) = some (Nat.toDigits 10 n) := by
  have parts : splitOn '_' (Nat.toDigits 10 n) = [Nat.toDigits 10 n] :=
    splitOn_of_not_mem (Ascii.not_mem_toDigits (by decide))
  have all : (Nat.toDigits 10 n).all Ascii.isDigit = true :=
    List.all_eq_true.mpr Ascii.isDigit_of_mem_toDigits
  simp [digits?, parts, all, Nat.toDigits_ne_nil]

/-- The digits of a number are those of base ten, without a superfluous zero. -/
theorem decimalDigits?_toDigits (n : Nat) :
    decimalDigits? (Nat.toDigits 10 n) = some (Nat.toDigits 10 n) := by
  have tight : ¬((Nat.toDigits 10 n).length ≠ 1 ∧ (Nat.toDigits 10 n).head? = some '0') := by
    rintro ⟨long, zero⟩
    by_cases none : n = 0
    · exact long (none ▸ rfl)
    · exact Ascii.head_toDigits none zero
  rw [decimalDigits?, digits?_toDigits]
  exact if_neg tight

theorem decimal?_toDigits (n : Nat) : decimal? (Nat.toDigits 10 n) = some (n : Int) := by
  have first {d : Char} {rest : List Char} (other : Ascii.isDigit d = false) :
      Nat.toDigits 10 n ≠ d :: rest := fun eq =>
    Ascii.not_mem_toDigits (n := n) other (eq ▸ List.mem_cons_self)
  have unsigned : signed (Nat.toDigits 10 n) = (false, Nat.toDigits 10 n) := by
    unfold signed
    split
    case h_1 eq => exact absurd eq (first (by decide))
    case h_2 eq => exact absurd eq (first (by decide))
    case h_3 => rfl
  rw [decimal?, unsigned]
  simp [decimalDigits?_toDigits, Ascii.decimal_toDigits]

theorem integer?_toDigits (n : Nat) : integer? (Nat.toDigits 10 n) = some (n : Int) := by
  have no {d : Char} {rest : List Char} (other : Ascii.isDigit d = false) :
      Nat.toDigits 10 n ≠ '0' :: d :: rest := fun eq =>
    Ascii.not_mem_toDigits (n := n) other (eq ▸ List.mem_cons_of_mem _ List.mem_cons_self)
  unfold integer?
  split
  case h_1 eq => exact absurd eq (no (by decide))
  case h_2 eq => exact absurd eq (no (by decide))
  case h_3 eq => exact absurd eq (no (by decide))
  case h_4 => exact decimal?_toDigits n

/-- A number is read back. -/
theorem scalar?_toDigits {n : Nat} (small : (n : Int) < integerRange.2) :
    scalar? (Nat.toDigits 10 n) = some (.integer n) := by
  have word {w : List Char} (c : Char) (mem : c ∈ w) (other : Ascii.isDigit c = false) :
      Nat.toDigits 10 n ≠ w := fun eq => Ascii.not_mem_toDigits (n := n) other (eq ▸ mem)
  have large : integerRange.1 ≤ (n : Int) :=
    Int.le_trans (by decide) (Int.natCast_nonneg n)
  rw [scalar?, if_neg (word 'e' (by decide) (by decide)), if_neg (word 'e' (by decide) (by decide)),
    integer?_toDigits]
  exact if_pos ⟨large, small⟩

/-! ## Values -/

/-- A string is read back as a value. -/
theorem value_stringText (s : String) {rest : List Char} (double : rest.head? ≠ some '"')
    (single : rest.head? ≠ some '\'') (fuel depth : Nat) :
    value (fuel + 1) depth (stringText s ++ rest) = some (.string s, rest) := by
  obtain ⟨q, cs, eq, quote⟩ := stringText_head s
  have read := quoted_stringText s double single
  rw [eq, List.cons_append] at read ⊢
  rw [value.eq_def]
  dsimp only
  rw [if_pos quote, read, Option.map_some]
  simp only [String.ofList_toList]

theorem isWord_of_quote {q : Char} (quote : q = '"' ∨ q = '\'') : isWord q = true := by
  rcases quote with rfl | rfl <;> rfl

/-- An item of an array, where another may follow. -/
theorem items_of_comma {cs rest : List Char} {s : String}
    (start : skipIdle false cs = some (stringText s ++ ',' :: rest)) (fuel depth : Nat) :
    items (fuel + 2) depth cs =
      (items (fuel + 1) depth rest).map fun r => (.string s :: r.1, r.2) := by
  obtain ⟨q, t, eq, quote⟩ := stringText_head s
  have goes : (stringText s ++ ',' :: rest).head? ≠ some ']' := by
    rw [eq]
    exact fun same => ne_of_isWord (isWord_of_quote quote) (by decide) (Option.some.inj same)
  have one : value (fuel + 1) depth (stringText s ++ ',' :: rest) = some (.string s, ',' :: rest) :=
    value_stringText s (by simp) (by simp) fuel depth
  have comma : skipIdle false (',' :: rest) = some (',' :: rest) :=
    skipIdle_of_other (by decide) (by decide) (by decide) (by decide) rest
  rw [items.eq_def]
  simp only [start, Option.bind_eq_bind, Option.bind_some, if_neg goes, one, comma]
  cases items (fuel + 1) depth rest <;> rfl

/-- The last item of an array. -/
theorem items_of_bracket {cs rest : List Char} {s : String}
    (start : skipIdle false cs = some (stringText s ++ ']' :: rest)) (fuel depth : Nat) :
    items (fuel + 2) depth cs = some ([.string s], rest) := by
  obtain ⟨q, t, eq, quote⟩ := stringText_head s
  have goes : (stringText s ++ ']' :: rest).head? ≠ some ']' := by
    rw [eq]
    exact fun same => ne_of_isWord (isWord_of_quote quote) (by decide) (Option.some.inj same)
  have one : value (fuel + 1) depth (stringText s ++ ']' :: rest) = some (.string s, ']' :: rest) :=
    value_stringText s (by simp) (by simp) fuel depth
  have bracket : skipIdle false (']' :: rest) = some (']' :: rest) :=
    skipIdle_of_other (by decide) (by decide) (by decide) (by decide) rest
  rw [items.eq_def]
  simp only [start, Option.bind_eq_bind, Option.bind_some, if_neg goes, one, bracket]

/-- An array ends. -/
theorem items_of_none {cs rest : List Char} (start : skipIdle false cs = some (']' :: rest))
    (fuel depth : Nat) : items (fuel + 1) depth cs = some ([], rest) := by
  rw [items.eq_def]
  simp only [start, Option.bind_eq_bind, Option.bind_some, List.head?_cons, if_pos]
  rfl

/-- A string is what comes next. -/
theorem skipIdle_stringText (s : String) (rest : List Char) :
    skipIdle false (stringText s ++ rest) = some (stringText s ++ rest) := by
  obtain ⟨q, t, eq, quote⟩ := stringText_head s
  rw [eq]
  exact skipIdle_of_isWord (isWord_of_quote quote) _

/-- The items of an array are read back, each on a line of its own. -/
theorem items_itemLines (ss : List String) (rest : List Char) {fuel : Nat}
    (enough : ss.length < fuel) (depth : Nat) :
    items fuel depth ('\n' :: (ss.flatMap itemLine ++ ']' :: rest)) =
      some (ss.map .string, rest) := by
  induction ss generalizing fuel with
  | nil =>
    obtain ⟨fuel, rfl⟩ := Nat.exists_eq_add_one_of_ne_zero (Nat.ne_zero_of_lt enough)
    have start : skipIdle false ('\n' :: ([].flatMap itemLine ++ ']' :: rest)) =
        some (']' :: rest) := by
      rw [skipIdle_newline]
      exact skipIdle_of_other (by decide) (by decide) (by decide) (by decide) rest
    exact items_of_none start fuel depth
  | cons s ss ih =>
    have two : 2 ≤ fuel := Nat.lt_of_le_of_lt (Nat.le_add_left 1 ss.length) enough
    obtain ⟨fuel, rfl⟩ := Nat.exists_eq_add_of_le' two
    have start : skipIdle false ('\n' :: ((s :: ss).flatMap itemLine ++ ']' :: rest)) =
        some (stringText s ++ ',' :: '\n' :: (ss.flatMap itemLine ++ ']' :: rest)) := by
      simp only [skipIdle_newline, List.flatMap_cons, itemLine, List.append_assoc,
        List.replicate_succ, List.replicate_zero, List.cons_append, List.nil_append,
        skipIdle_blank]
      exact skipIdle_stringText s _
    rw [items_of_comma start, ih (by simpa using enough)]
    rfl

theorem value_bracket (cs : List Char) (fuel depth : Nat) :
    value (fuel + 1) (depth + 1) ('[' :: cs) =
      (items fuel depth cs).map fun r => (.array r.1, r.2) := by
  rw [value.eq_def]
  rfl

/-- An array of strings is read back. -/
theorem value_arrayText (ss : List String) (rest : List Char) {fuel : Nat}
    (enough : ss.length + 1 ≤ fuel) (depth : Nat) :
    value (fuel + 1) (depth + 1) (arrayText ss ++ rest) =
      some (.array (ss.map .string), rest) := by
  match ss, enough with
  | [], enough =>
    obtain ⟨fuel, rfl⟩ := Nat.exists_eq_add_one_of_ne_zero (Nat.ne_zero_of_lt enough)
    have start : skipIdle false (']' :: rest) = some (']' :: rest) :=
      skipIdle_of_other (by decide) (by decide) (by decide) (by decide) rest
    rw [arrayText, List.cons_append, value_bracket, List.singleton_append,
      items_of_none start]
    rfl
  | [s], enough =>
    have two : 2 ≤ fuel := enough
    obtain ⟨fuel, rfl⟩ := Nat.exists_eq_add_of_le' two
    rw [arrayText, List.cons_append, value_bracket, List.append_assoc, List.singleton_append,
      items_of_bracket (skipIdle_stringText s _)]
    rfl
  | s :: s' :: ss, enough =>
    have text : arrayText (s :: s' :: ss) ++ rest =
        '[' :: '\n' :: ((s :: s' :: ss).flatMap itemLine ++ ']' :: rest) := by
      simp [arrayText]
    rw [text, value_bracket, items_itemLines _ rest (Nat.lt_of_succ_le enough)]
    rfl

theorem value_of_scalar {c : Char} (quote : ¬(c = '"' ∨ c = '\'')) (bracket : c ≠ '[')
    (brace : c.toNat ≠ 0x7B) (cs : List Char) (fuel depth : Nat) :
    value (fuel + 1) depth (c :: cs) = scalar (c :: cs) := by
  rw [value.eq_def]
  dsimp only
  rw [if_neg quote, if_neg bracket, if_neg brace]

/-- A number is read back as a value. -/
theorem value_toDigits {n : Nat} (small : (n : Int) < integerRange.2) (rest : List Char)
    (fuel depth : Nat) : value (fuel + 1) depth (Nat.toDigits 10 n ++ '\n' :: rest) =
      some (.integer n, '\n' :: rest) := by
  have digits := Ascii.isDigit_of_mem_toDigits (n := n)
  have plain : ∀ c ∈ Nat.toDigits 10 n, isDelimiter c = false := fun c hc =>
    isDelimiter_of_isDigit (digits c hc)
  have read := scalar_line plain rest
  rw [scalar?_toDigits small] at read
  obtain ⟨c, cs, eq⟩ := List.exists_cons_of_ne_nil (Nat.toDigits_ne_nil (b := 10) (n := n))
  rw [eq] at digits read ⊢
  have digit := digits c List.mem_cons_self
  have quote : ¬(c = '"' ∨ c = '\'') :=
    not_or.mpr ⟨Ascii.ne_of_isDigit digit (by decide), Ascii.ne_of_isDigit digit (by decide)⟩
  rw [List.cons_append] at read ⊢
  rw [value_of_scalar quote (Ascii.ne_of_isDigit digit (by decide))
    (toNat_ne_of_isDigit digit (by decide)), read]
  rfl

/-- Every value is read back from its line. -/
theorem value_text (e : Entry) (fits : e.Fits) (rest : List Char) {fuel : Nat}
    (enough : e.steps < fuel) (depth : Nat) :
    value fuel (depth + 1) (e.text ++ '\n' :: rest) = some (e.value, '\n' :: rest) := by
  obtain ⟨fuel, rfl⟩ := Nat.exists_eq_add_one_of_ne_zero (Nat.ne_zero_of_lt enough)
  cases e with
  | boolean b =>
    cases b with
    | true =>
      have plain : ∀ c ∈ "true".toList, isDelimiter c = false := by simp [isDelimiter, isBlank]
      exact (value_of_scalar (by decide) (by decide) (by decide) _ fuel _).trans
        (scalar_line plain rest)
    | false =>
      have plain : ∀ c ∈ "false".toList, isDelimiter c = false := by simp [isDelimiter, isBlank]
      exact (value_of_scalar (by decide) (by decide) (by decide) _ fuel _).trans
        (scalar_line plain rest)
  | count n => exact value_toDigits fits rest fuel _
  | string s => exact value_stringText s (by simp) (by simp) fuel (depth + 1)
  | strings ss => exact value_arrayText ss _ (Nat.le_of_lt_succ enough) depth

end PluginHost.Toml
