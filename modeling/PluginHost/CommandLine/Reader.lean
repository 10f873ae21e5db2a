import PluginHost.CommandLine.Basic

/-!
# Understanding command lines

Arguments are taken from left to right. An option that takes a value has it in the
same argument, after `=` or after its letter, or in the next one, which then may
not look like an option. After `--` nothing is an option any more. An option may
stand once on each side of the command, and what stands after the command counts.

Whoever asks for help or for the version gets it as soon as this is read, unless
something to its left was wrong and has been noticed by then. What an option is
given in an argument of its own is looked at when the next one is dealt with, and
what stands before a command only after all that stands behind it.

* `Invocation.ofArguments` understands a command line.
-/

namespace PluginHost.CommandLine

/-- Why a command line is not carried out: it asks for help or for the version, or
it is not understood. -/
inductive Stop
  | shown
  | misused
  deriving DecidableEq, Repr, Inhabited

def Stop.exitCode : Stop → Nat
  | .shown => 0
  | .misused => 2

/-- An option that is being read, and its value as far as it is there. -/
structure Pending where
  switch : Switch
  value : Option String
  deriving DecidableEq, Repr, Inhabited

/-- A level as far as it has been read: what was given, by long names, what is
being read, whether the next argument may be its value, whether options have
ended, and whether there is an operand. -/
structure Level where
  given : List (String × String) := []
  pending : Option Pending := none
  awaiting : Bool := false
  ended : Bool := false
  filled : Bool := false
  deriving DecidableEq, Repr, Inhabited

namespace Level

def get? (l : Level) (name : String) : Option String :=
  (l.given.find? fun g => g.1 == name).map (·.2)

def has (l : Level) (name : String) : Bool :=
  (l.get? name).isSome

/-- The level with one more thing given. Nothing is given twice. -/
def record (l : Level) (s : Switch) (value : String) : Except Stop Level :=
  if l.has s.long ∨ (s.takes = .path ∧ value = "") then .error .misused
  else .ok { l with given := (s.long, value) :: l.given }

/-- The level once what is being read is complete. -/
def settle (l : Level) : Except Stop Level :=
  match l.pending with
  | none => .ok l
  | some ⟨_, none⟩ => .error .misused
  | some ⟨s, some value⟩ => ({ l with pending := none, awaiting := false }).record s value

def accept (l : Level) (s : Switch) (value : String) : Except Stop Level := do
  let l ← l.settle
  if s = helpSwitch ∨ s = versionSwitch then .error .shown
  else l.record s value

def await (l : Level) (s : Switch) : Except Stop Level := do
  let l ← l.settle
  .ok { l with pending := some ⟨s, none⟩, awaiting := true }

/-- A text without an `=` in front. -/
def withoutEquals : List Char → List Char
  | '=' :: rest => rest
  | cs => cs

/-- The level after options given by letters in one argument. -/
def letters (g : Grammar) (l : Level) : List Char → Except Stop Level
  | [] => .ok l
  | c :: rest =>
    match g.switches.find? fun s => s.short = some c with
    | none => .error .misused
    | some s =>
      if s.takes ≠ .nothing then
        if rest = [] then l.await s
        else l.accept s (String.ofList (withoutEquals rest))
      else do
        let l ← l.accept s ""
        letters g l rest

/-- The level after an option given by its long name. -/
def word (g : Grammar) (l : Level) (cs : List Char) : Except Stop Level :=
  let name := String.ofList (cs.takeWhile (· ≠ '='))
  let value : Option String :=
    match cs.dropWhile (· ≠ '=') with
    | [] => none
    | _ :: rest => some (String.ofList rest)
  match g.switches.find? fun s => s.long == name with
  | none => .error .misused
  | some s =>
    match s.takes, value with
    | .nothing, none => l.accept s ""
    | .nothing, some _ => .error .misused
    | _, some v => l.accept s v
    | _, none => l.await s

/-- The level after an argument that is no option. -/
def operand (g : Grammar) (l : Level) (arg : String) : Except Stop Level :=
  match g.operand with
  | none => .error .misused
  | some name =>
    if l.filled then .error .misused
    else do
      let l ← l.settle
      .ok { l with pending := some ⟨{ long := name, takes := .path }, some arg⟩, filled := true }

/-- The level after an argument that is not the name of a command. -/
def step (g : Grammar) (l : Level) (arg : String) : Except Stop Level :=
  if l.ended then l.operand g arg
  else match arg.toList with
    | ['-', '-'] => .ok { l with ended := true, awaiting := false }
    | '-' :: '-' :: name => { l with awaiting := false }.word g name
    | '-' :: c :: rest => { l with awaiting := false }.letters g (c :: rest)
    | _ =>
      match l.awaiting, l.pending with
      | true, some p =>
        .ok { l with pending := some { p with value := some arg }, awaiting := false }
      | _, _ => l.operand g arg

def names (g : Grammar) (l : Level) (arg : String) : Bool :=
  !l.ended && !l.awaiting && g.commands.contains arg

/-- Takes arguments up to the name of a command: the level, and the command with
the arguments after it, if there is one. -/
def scan (g : Grammar) (l : Level) :
    List String → Except Stop (Level × Option (String × List String))
  | [] => .ok (l, none)
  | arg :: rest =>
    if l.names g arg then .ok (l, some (arg, rest))
    else do
      let l ← l.step g arg
      scan g l rest

/-- The level when all of it has been read: what has to be there is there, and
nothing that excludes something else. -/
def finish (g : Grammar) (l : Level) : Except Stop Level := do
  let l ← l.settle
  if (l.has "verbose" && l.has "quiet") || !g.required.all l.has then .error .misused
  else .ok l

end Level

/-- The command of a name with what was given after it. -/
def Command.ofLevel? (name : String) (l : Level) : Option Command :=
  let value (key : String) : String := (l.get? key).getD ""
  match name with
  | "start" => some (.start (l.has "headless"))
  | "verify" => some (.verify (value "manifest") (value "sig") (value "pubkey"))
  | "validate" => some (.validate (value "manifest"))
  | "plugins" => some (.plugins (l.has "json"))
  | "config" => some (.config (l.has "json"))
  | "version" => some .version
  | _ => none

/-- The arguments after the command that explains others: the name of another
command or nothing. -/
def explain : List String → Stop
  | [] => .shown
  | [name] => if topGrammar.commands.contains name then .shown else .misused
  | _ => .misused

/-- What was given after the command, or else before it. -/
def Invocation.ofLevels (before behind : Level) (command : Command) : Invocation :=
  { config := behind.get? "config" <|> before.get? "config"
    logLevel := behind.get? "log-level" <|> before.get? "log-level"
    verbose := behind.has "verbose" || before.has "verbose"
    quiet := behind.has "quiet" || before.has "quiet"
    command }

/-- The level after a command. -/
def behind (name : String) (args : List String) : Except Stop (Level × Command) :=
  if name = helpName then .error (explain args)
  else match commandGrammars.find? fun g => g.1 == name with
    | none => .error .misused
    | some (_, g) => do
      let (l, _) ← Level.scan g.withGlobals {} args
      let l ← l.finish g.withGlobals
      match Command.ofLevel? name l with
      | some command => .ok (l, command)
      | none => .error .misused

/-- The invocation that arguments stand for. -/
def Invocation.ofArguments (args : List String) : Except Stop Invocation := do
  let (before, named) ← Level.scan topGrammar {} args
  match named with
  | none => .error .misused
  | some (name, args) =>
    let (after, command) ← behind name args
    let before ← before.finish topGrammar
    .ok (Invocation.ofLevels before after command)

end PluginHost.CommandLine
