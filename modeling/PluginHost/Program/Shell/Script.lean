import PluginHost.Text.Ascii

/-!
# Reading shell scripts

A script is a row of simple commands joined by `;`, `&&` and `||`; each may be
negated, may send its output to a file, and may follow one of the words that make
a choice between commands. Words are quoted with `'`, `"` and a backslash, and `$`
stands for parameters, their number, the last status and the shell itself.

* `stepsOfScript` cuts a script into its commands.
-/

namespace PluginHost.Program.Shell

/-- A piece of a word. A quoted piece is never cut at blanks. -/
inductive Piece
  | text (s : String) (quoted : Bool)
  | parameter (name : Char) (quoted : Bool)
  deriving DecidableEq, Repr, Inhabited

/-- A piece of a script. -/
inductive Token
  | word (pieces : List Piece)
  | semicolon
  | andIf
  | orIf
  | ampersand
  | bar
  | output (descriptor : Nat) (append : Bool)
  | input
  deriving DecidableEq, Repr, Inhabited

/-- Where the reader of a script stands. -/
inductive Mode
  | plain
  | escaped
  | dollar
  | single
  | double
  | doubleEscaped
  | doubleDollar
  | comment
  deriving DecidableEq, Repr, Inhabited

/-- A script that has been read up to some point: the tokens in reverse, and the
pieces of the word that is being read in reverse, if one is. `atOperator` says
that the last character belongs to an operator. -/
structure Scan where
  mode : Mode := .plain
  tokens : List Token := []
  pieces : Option (List Piece) := none
  atOperator : Bool := false
  deriving DecidableEq, Repr, Inhabited

namespace Scan

def close (s : Scan) : Scan :=
  match s.pieces with
  | none => s
  | some ps => { s with tokens := .word ps.reverse :: s.tokens, pieces := none }

def push (s : Scan) (p : Piece) : Scan :=
  { s with pieces := some (p :: s.pieces.getD []) }

/-- Adds a character to the word. -/
def pushChar (s : Scan) (c : Char) (quoted : Bool) : Scan :=
  match s.pieces with
  | some (.text t q :: ps) =>
    if q = quoted then { s with pieces := some (.text (t.push c) q :: ps) }
    else s.push (.text c.toString quoted)
  | _ => s.push (.text c.toString quoted)

def enter (s : Scan) (m : Mode) : Scan :=
  { s with mode := m }

/-- The output that a word before `>` names. -/
def descriptor? (pieces : Option (List Piece)) : Option Nat :=
  match pieces with
  | some [.text "1" false] => some 1
  | some [.text "2" false] => some 2
  | _ => none

def add (s : Scan) (t : Token) : Scan :=
  { s with tokens := t :: s.tokens, atOperator := true }

/-- The token that a character makes with the operator just before it. -/
def joined? (c : Char) : Token → Option Token
  | .ampersand => if c = '&' then some .andIf else none
  | .bar => if c = '|' then some .orIf else none
  | .output d false => if c = '>' then some (.output d true) else none
  | _ => none

/-- Ends the word and adds the operator of one character. -/
def single (s : Scan) (c : Char) : Scan :=
  match c with
  | '&' => s.close.add .ampersand
  | '|' => s.close.add .bar
  | '<' => s.close.add .input
  | '>' =>
    match descriptor? s.pieces with
    | some d => { s with pieces := none }.add (.output d false)
    | none => s.close.add (.output 1 false)
  | _ => s.close.add .semicolon

/-- Takes a character of an operator. -/
def operator (s : Scan) (c : Char) : Scan :=
  match s.atOperator, s.tokens with
  | true, t :: ts =>
    match joined? c t with
    | some t => { s with tokens := t :: ts }
    | none => s.single c
  | _, _ => s.single c

/-- A character outside quotes. -/
def plainChar (s : Scan) (c : Char) : Scan :=
  if [';', '\n', '>', '<', '&', '|'].contains c then s.operator c
  else
    let s := { s with atOperator := false }
    if c = ' ' || c = '\t' then s.close
    else if c = '\'' then (s.push (.text "" true)).enter .single
    else if c.toNat = 0x22 then (s.push (.text "" true)).enter .double
    else if c.toNat = 0x5C then s.enter .escaped
    else if c = '$' then s.enter .dollar
    else if c = '#' && s.pieces.isNone then s.enter .comment
    else s.pushChar c false

/-- A `$` and the character after it. -/
def parameter (s : Scan) (c : Char) (quoted : Bool) : Scan :=
  if Ascii.isDigit c || c = '#' || c = '*' || c = '@' || c = '?' || c = '$' then
    s.push (.parameter c quoted)
  else (s.pushChar '$' quoted).pushChar c quoted

/-- One more character. -/
def next (s : Scan) (c : Char) : Scan :=
  match s.mode with
  | .plain => s.plainChar c
  | .escaped => (s.pushChar c true).enter .plain
  | .dollar => (s.parameter c false).enter .plain
  | .single => if c = '\'' then s.enter .plain else s.pushChar c true
  | .double =>
    if c.toNat = 0x22 then s.enter .plain
    else if c.toNat = 0x5C then s.enter .doubleEscaped
    else if c = '$' then s.enter .doubleDollar
    else s.pushChar c true
  | .doubleEscaped => (s.pushChar c true).enter .double
  | .doubleDollar => (s.parameter c true).enter .double
  | .comment => if c = '\n' then (s.enter .plain).operator c else s

end Scan

/-- When a command is run. -/
inductive Link
  | always
  | ifDone
  | ifFailed
  deriving DecidableEq, Repr, Inhabited

/-- Where output goes, or input comes from. -/
structure Redirect where
  append : Bool
  isInput : Bool
  target : List Piece
  deriving DecidableEq, Repr, Inhabited

/-- A word that makes a choice between commands. -/
inductive Keyword
  | ifWord
  | thenWord
  | elifWord
  | elseWord
  | fiWord
  deriving DecidableEq, Repr, Inhabited

/-- A command with the condition under which it is run, and the words of choice in
front of it. -/
structure Step where
  link : Link
  keywords : List Keyword := []
  negated : Bool := false
  words : List (List Piece) := []
  redirects : List Redirect := []
  deriving DecidableEq, Repr, Inhabited

def Step.isEmpty (s : Step) : Bool :=
  s.words.isEmpty && s.redirects.isEmpty

/-- The word is `s` without quotes. -/
def isBare (s : String) (word : List Piece) : Bool :=
  word == [.text s false]

/-- The word of choice that a word is. -/
def Keyword.of? (word : List Piece) : Option Keyword :=
  match word with
  | [.text "if" false] => some .ifWord
  | [.text "then" false] => some .thenWord
  | [.text "elif" false] => some .elifWord
  | [.text "else" false] => some .elseWord
  | [.text "fi" false] => some .fiWord
  | _ => none

/-- Adds a word to a command that has some, or starts one with it. -/
def Step.addWord (s : Step) (w : List Piece) : Step :=
  if s.words.isEmpty then
    match Keyword.of? w with
    | some k => { s with keywords := s.keywords ++ [k] }
    | none =>
      if isBare "!" w then { s with negated := !s.negated } else { s with words := [w] }
  else { s with words := s.words ++ [w] }

/-- Adds where output goes; only the first output is of interest. -/
def Step.addOutput (s : Step) (descriptor : Nat) (append : Bool) (w : List Piece) : Step :=
  if descriptor = 1 then { s with redirects := s.redirects ++ [⟨append, false, w⟩] } else s

/-- The commands of a row of tokens, or nothing if it is not well formed. -/
def stepsOf : Step → List Token → Option (List Step)
  | s, [] => some [s]
  | s, .word w :: rest => stepsOf (s.addWord w) rest
  | s, .semicolon :: rest => (stepsOf { link := .always } rest).map (s :: ·)
  | s, .andIf :: rest => (stepsOf { link := .ifDone } rest).map (s :: ·)
  | s, .orIf :: rest => (stepsOf { link := .ifFailed } rest).map (s :: ·)
  | s, .output _ _ :: .ampersand :: .word _ :: rest => stepsOf s rest
  | s, .output d append :: .word w :: rest => stepsOf (s.addOutput d append w) rest
  | s, .input :: .word w :: rest =>
    stepsOf { s with redirects := s.redirects ++ [⟨false, true, w⟩] } rest
  | _, _ :: _ => none

/-- The commands of a script. -/
def stepsOfScript (script : String) : Option (List Step) :=
  let s := (script.toList.foldl Scan.next {}).close
  if s.mode = .plain ∨ s.mode = .comment then
    stepsOf { link := .always } s.tokens.reverse
  else none

end PluginHost.Program.Shell
