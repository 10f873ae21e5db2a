import PluginHost.Files.Basic
import PluginHost.Text.Ascii
import PluginHost.Text.Split

/-!
# Commands of the shell

Commands that a shell has built in, and small programs that every system has.

* `test` asks questions about texts, numbers and files.
* `command` is what a command comes to, given its name and arguments.
-/

namespace PluginHost.Program.Shell

def number? (s : String) : Option Int :=
  match s.toList with
  | '-' :: ds => if ds ≠ [] ∧ ds.all Ascii.isDigit then some (-(Ascii.decimal ds : Int)) else none
  | ds => if ds ≠ [] ∧ ds.all Ascii.isDigit then some (Ascii.decimal ds : Int) else none

/-- Zero for yes and one for no. -/
def statusOf (b : Bool) : Nat :=
  if b then 0 else 1

/-- A comparison of two numbers. -/
def compareNumbers (op : String) (a b : Int) : Option Bool :=
  match op with
  | "-eq" => some (a == b)
  | "-ne" => some (a != b)
  | "-lt" => some (decide (a < b))
  | "-le" => some (decide (a ≤ b))
  | "-gt" => some (decide (a > b))
  | "-ge" => some (decide (a ≥ b))
  | _ => none

/-- A question about one text or file. -/
def testOne (fs : Files) (op x : String) : Option Bool :=
  match op with
  | "-n" => some (x ≠ "")
  | "-z" => some (x = "")
  | "-e" => some (fs.present x)
  | "-f" => some (fs.read x).toOption.isSome
  | "-r" => some (fs.present x)
  | "-w" => some (fs.present x)
  | "-d" => some (fs.isDir x)
  | "-s" => some ((fs.read x).toOption.any (· ≠ []))
  | "-x" => some (fs.isDir x)
  | _ => none

/-- The status of a question without `-a` or `-o`. -/
def testPlain (fs : Files) : List String → Nat
  | [] => 1
  | "!" :: rest =>
    match testPlain fs rest with
    | 0 => 1
    | 1 => 0
    | n => n
  | [x] => statusOf (x ≠ "")
  | [op, x] => ((testOne fs op x).map statusOf).getD 2
  | [a, op, b] =>
    if op = "=" then statusOf (a = b)
    else if op = "!=" then statusOf (a ≠ b)
    else match number? a, number? b with
      | some m, some n => ((compareNumbers op m n).map statusOf).getD 2
      | _, _ => 2
  | _ => 2

/-- The questions between the occurrences of a word. -/
def questions (word : String) (args : List String) : List (List String) :=
  args.foldr (fun a groups =>
    match groups with
    | [] => [[a]]
    | g :: gs => if a = word then [] :: g :: gs else (a :: g) :: gs) [[]]

/-- The status of `test`: zero for yes, one for no, two for a question it does
not understand. Questions joined by `-a` bind closer than those joined by `-o`. -/
def test (fs : Files) (args : List String) : Nat :=
  if args.length ≤ 3 then testPlain fs args
  else
    let status := (questions "-o" args).map fun q =>
      ((questions "-a" q).map (testPlain fs)).foldl max 0
    status.foldl min 2

/-- What a command came to: a status, what it wrote, and the files. -/
structure Outcome where
  status : Nat
  written : List UInt8
  files : Files
  deriving Inhabited

/-- The bytes of several files one after the other, and whether all could be read. -/
def concatenate (fs : Files) (paths : List String) : Nat × List UInt8 :=
  paths.foldl (fun (status, out) p =>
    match fs.read p with
    | .ok data => (status, out ++ data)
    | .error _ => (1, out)) (0, [])

/-- Removes files one after the other. -/
def removeAll (force : Bool) (fs : Files) (paths : List String) : Nat × Files :=
  paths.foldl (fun (status, fs) p =>
    match fs.remove p with
    | .ok fs => (status, fs)
    | .error _ => (if force then status else 1, fs)) (0, fs)

/-- Copies a file. -/
def copy (fs : Files) (source target : String) : Nat × Files :=
  match fs.read source with
  | .error _ => (1, fs)
  | .ok data =>
    match fs.write target data with
    | .ok fs => (0, fs)
    | .error _ => (1, fs)

def occursIn (wanted : List Char) : List Char → Bool
  | [] => wanted.isEmpty
  | c :: rest => wanted.isPrefixOf (c :: rest) || occursIn wanted rest

/-- Looks for a text in the lines of files: the status is zero if it is there, one if
it is not, and two if a file cannot be read. -/
def find (fs : Files) (wanted : String) (paths : List String) : Nat :=
  let (status, out) := concatenate fs paths
  if status ≠ 0 then 2
  else
    let lines := splitOn '\n' (Utf8.lossy out).toList
    statusOf (lines.any fun l => occursIn wanted.toList l)

def compareFiles (fs : Files) (a b : String) : Nat :=
  match fs.read a, fs.read b with
  | .ok x, .ok y => statusOf (x == y)
  | _, _ => 2

/-- A command other than those that end the script. -/
def command (fs : Files) : List String → Outcome
  | [] => ⟨0, [], fs⟩
  | name :: args =>
    match name, args with
    | ":", _ => ⟨0, [], fs⟩
    | "true", _ => ⟨0, [], fs⟩
    | "false", _ => ⟨1, [], fs⟩
    | "sleep", _ => ⟨0, [], fs⟩
    | "read", _ => ⟨1, [], fs⟩
    | "test", _ => ⟨test fs args, [], fs⟩
    | "[", _ => ⟨if args.getLast? = some "]" then test fs args.dropLast else 2, [], fs⟩
    | "echo", "-n" :: rest => ⟨0, Utf8.bytesOf (" ".intercalate rest), fs⟩
    | "echo", _ => ⟨0, Utf8.bytesOf (" ".intercalate args ++ "\n"), fs⟩
    | "printf", format :: _ => ⟨0, Utf8.bytesOf format, fs⟩
    | "cat", _ =>
      let (status, out) := concatenate fs args
      ⟨status, out, fs⟩
    | "rm", "-f" :: rest =>
      let (status, fs) := removeAll true fs rest
      ⟨status, [], fs⟩
    | "rm", _ =>
      let (status, fs) := removeAll false fs args
      ⟨status, [], fs⟩
    | "cp", [source, target] =>
      let (status, fs) := copy fs source target
      ⟨status, [], fs⟩
    | "mv", [source, target] =>
      let (status, fs) := copy fs source target
      if status = 0 then ⟨0, [], (fs.remove source).toOption.getD fs⟩ else ⟨status, [], fs⟩
    | "grep", "-q" :: wanted :: paths => ⟨find fs wanted paths, [], fs⟩
    | "grep", wanted :: paths => ⟨find fs wanted paths, [], fs⟩
    | "cmp", "-s" :: [a, b] => ⟨compareFiles fs a b, [], fs⟩
    | "cmp", [a, b] => ⟨compareFiles fs a b, [], fs⟩
    | _, _ => ⟨if name.toList.contains '/' ∧ fs.present name then 126 else 127, [], fs⟩

end PluginHost.Program.Shell
