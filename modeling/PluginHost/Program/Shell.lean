import PluginHost.Program.Basic
import PluginHost.Program.Shell.Command
import PluginHost.Program.Shell.Script

/-!
# Shell scripts

A small command language for verifiers that are written as one-line scripts. The
commands of a script are run from left to right: a command after `&&` is passed
over when the last status is not zero, and one after `||` when it is.

* `sh` is the shell as a program.
* `programs` is what every system has.
-/

namespace PluginHost.Program.Shell

/-- A choice that has been opened: `live` says that commands are run at present, and
`settled` that no further branch will be taken. -/
structure Choice where
  live : Bool
  settled : Bool
  deriving DecidableEq, Repr, Inhabited

/-- The state of a run, with the choices that are open, the innermost first. -/
structure State where
  name : String
  parameters : List String
  status : Nat
  files : Files
  choices : List Choice := []
  deriving Inhabited

/-- The value of a parameter. -/
def State.value (s : State) (c : Char) : String :=
  if c = '#' then toString s.parameters.length
  else if c = '*' ∨ c = '@' then " ".intercalate s.parameters
  else if c = '?' then toString s.status
  else if c = '$' then "$$"
  else if c = '0' then s.name
  else s.parameters.getD (Ascii.digitValue c - 1) ""

/-- The blank characters at which an unquoted value is cut. -/
def isCut (c : Char) : Bool :=
  c = ' ' || c = '\t' || c = '\n'

/-- Adds an unquoted value to the fields of a word, of which the last is open if
there is one. -/
def addUnquoted (fields : List String × Option String) (value : String) :
    List String × Option String :=
  value.toList.foldl (fun (done, current) c =>
    if isCut c then
      match current with
      | none => (done, none)
      | some w => (done ++ [w], none)
    else (done, some ((current.getD "").push c))) fields

/-- The fields that a word stands for: as a rule one. -/
def State.expand (s : State) (word : List Piece) : List String :=
  let (done, current) := word.foldl (fun fields p =>
    match p with
    | .text t _ => (fields.1, some (fields.2.getD "" ++ t))
    | .parameter c true => (fields.1, some (fields.2.getD "" ++ s.value c))
    | .parameter c false => addUnquoted fields (s.value c)) ([], none)
  done ++ current.toList

/-- The file that swallows all that is written to it. -/
def sink : String := "/dev/null"

/-- Writes a command's output to a file. -/
def send (fs : Files) (append : Bool) (path : String) (data : List UInt8) : Option Files :=
  if path = sink then some fs
  else
    let before := if append then (fs.read path).toOption.getD [] else []
    (fs.write path (before ++ data)).toOption

/-- Opens the files of a command's redirections; the last that takes output is
given back with the files, and nothing if one of them cannot be opened. -/
def openAll (s : State) (fs : Files) : List Redirect → Option (Bool × String) →
    Option (Files × Option (Bool × String))
  | [], out => some (fs, out)
  | r :: rest, out =>
    let path := " ".intercalate (s.expand r.target)
    if r.isInput then
      if path = sink ∨ fs.present path then openAll s fs rest out else none
    else
      match send fs r.append path [] with
      | some fs => openAll s fs rest (some (r.append, path))
      | none => none

/-- What became of the script after a command. -/
inductive Progress
  | going (s : State)
  | ended (exit : Exit) (files : Files)
  deriving Inhabited

/-- The exit that `exit` asks for. -/
def exitOf (s : State) (args : List String) : Exit :=
  match args with
  | [] => .status s.status
  | n :: _ =>
    if n.toList ≠ [] ∧ n.toList.all Ascii.isDigit then .status (Ascii.decimal n.toList % 256)
    else .status 2

/-- Runs a command that has its files open, and sends what it wrote where it goes. -/
def runCommand (fs : Files) (sent : Option (Bool × String)) (words : List String) :
    Nat × Files :=
  let out := command fs words
  match sent with
  | none => (out.status, out.files)
  | some (_, path) => (out.status, (send out.files true path out.written).getD out.files)

/-- Drops the first parameters. -/
def State.shift (s : State) (args : List String) : State :=
  let n := ((args.head?.bind number?).getD 1).toNat
  if s.parameters.length < n then { s with status := 2 }
  else { s with parameters := s.parameters.drop n, status := 0 }

/-- Runs one command, whatever came before it. -/
def runStep (s : State) (step : Step) : Progress :=
  let words := step.words.flatMap s.expand
  match openAll s s.files step.redirects none with
  | none => .going { s with status := 2 }
  | some (fs, sent) =>
    match words with
    | "exit" :: args => .ended (exitOf s args) fs
    | "exec" :: name :: args =>
      let (status, fs) := runCommand fs sent (name :: args)
      .ended (.status status) fs
    | "kill" :: args =>
      if args.getLast? = some "$$" then .ended .signalled fs
      else .going { s with status := 1, files := fs }
    | "shift" :: args => .going ({ s with files := fs }.shift args)
    | _ =>
      let (status, fs) := runCommand fs sent words
      .going { s with status := if step.negated then statusOf (status ≠ 0) else status, files := fs }

/-- All choices that are open are at a branch that is taken. -/
def State.isLive (s : State) : Bool :=
  s.choices.all (·.live)

/-- What a word of choice does; `due` says that its command is due. -/
def State.turn (due : Bool) (s : State) (k : Keyword) : State :=
  match k, s.choices with
  | .ifWord, cs =>
    let live := due && s.isLive
    { s with choices := ⟨live, !live⟩ :: cs }
  | _, [] => s
  | .thenWord, c :: cs =>
    let taken := c.live && s.status = 0
    { s with choices := ⟨taken, taken || c.settled⟩ :: cs }
  | .elifWord, c :: cs => { s with choices := ⟨!c.settled, c.settled⟩ :: cs }
  | .elseWord, c :: cs => { s with choices := ⟨!c.settled, true⟩ :: cs }
  | .fiWord, c :: cs => { s with choices := cs, status := if c.settled then s.status else 0 }

/-- The step is due, given the last status. -/
def isDue (link : Link) (status : Nat) : Bool :=
  match link with
  | .always => true
  | .ifDone => status = 0
  | .ifFailed => status ≠ 0

/-- Runs commands to the end of the script. -/
def runSteps (s : State) : List Step → Exit × Files
  | [] => (.status s.status, s.files)
  | step :: rest =>
    let due := isDue step.link s.status
    let s := step.keywords.foldl (State.turn due) s
    if due && s.isLive && !step.isEmpty then
      match runStep s step with
      | .going s => runSteps s rest
      | .ended exit fs => (exit, fs)
    else runSteps s rest

/-- Runs a script. -/
def runScript (script name : String) (parameters : List String) (fs : Files) : Exit × Files :=
  match stepsOfScript script with
  | none => (.status 2, fs)
  | some steps => runSteps { name, parameters, status := 0, files := fs } steps

/-- The shell as a program: `-c` and a script, or a file that holds one. A directory
is a file that holds none. -/
def sh : Behaviour := fun args fs =>
  match args with
  | "-c" :: script :: rest => runScript script (rest.headD "sh") (rest.drop 1) fs
  | "-c" :: _ => (.status 2, fs)
  | path :: rest =>
    match fs.readText path with
    | .ok script => runScript script path rest fs
    | .error _ => (.status (if fs.isDir path then 0 else 2), fs)
  | [] => (.status 0, fs)

/-- The programs every system has. -/
def programs : Installed := fun name =>
  if ["sh", "/bin/sh", "/usr/bin/sh"].contains name then some sh
  else if ["true", "/bin/true", "/usr/bin/true"].contains name then
    some fun _ fs => (.status 0, fs)
  else if ["false", "/bin/false", "/usr/bin/false"].contains name then
    some fun _ fs => (.status 1, fs)
  else none

end PluginHost.Program.Shell
