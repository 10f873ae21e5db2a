import PluginHost.CommandLine.Reach
import PluginHost.CommandLine.Run
import PluginHost.Time.Epoch
import Std.Time.DateTime.Timestamp

/-!
# The program

Takes in what the command may look at, carries the command out, prints what it
has to say, and writes what it has written.
-/

namespace PluginHost.Console

open CommandLine (Invocation Command Reach Setting Outcome)

/-- The bytes of a file, if the path is one that can be read. -/
def bytes? (path : String) : IO (Option (List UInt8)) := do
  match ← (IO.FS.readBinFile path).toBaseIO with
  | .ok data => return some data.toList
  | .error _ => return none

def place (fs : Files) (path : String) (data : List UInt8) : Files :=
  let above := ((Path.parent? path).bind fun p => (fs.makeDirs p).toOption).getD fs
  (above.write path data).toOption.getD above

def takeFile (fs : Files) (path : String) : IO Files := do
  return ((← bytes? path).map (place fs path)).getD fs

/-- Takes in a directory with all that is in it. A link is taken in as a link to
what it denotes. -/
partial def takeTree (fs : Files) (path : String) : IO Files := do
  match ← (do (← IO.FS.realPath path).readDir).toBaseIO with
  | .error _ => takeFile fs path
  | .ok entries =>
    let mut fs := (fs.makeDirs path).toOption.getD fs
    for entry in entries do
      let inner := Path.join path entry.fileName
      if (← entry.path.symlinkMetadata).type == .symlink then
        match ← (IO.FS.realPath entry.path).toBaseIO with
        | .error _ => fs := (fs.makeLink inner "").toOption.getD fs
        | .ok target =>
          fs ← takeFile fs target.toString
          fs := (fs.makeLink inner target.toString).toOption.getD fs
      else
        fs ← takeTree fs inner
    return fs

def take (fs : Files) (r : Reach) : IO Files := do
  let fs ← r.files.foldlM takeFile fs
  r.trees.foldlM takeTree fs

def nothing : IO Files := do
  let parts := (splitOn '/' (← IO.currentDir).toString.toList).filter (· ≠ [])
  let empty : Files := ⟨.dir [], parts.map String.ofList⟩
  return (empty.makeDirs (← IO.currentDir).toString).toOption.getD empty

def environment : IO Environment := do
  let vars ← Config.variableNames.filterMapM fun name => do
    return (← IO.getEnv name).map fun value => (name, value)
  return { vars }

def clock : IO Instant := do
  let nanos := (← Std.Time.Timestamp.now).toNanosecondsSinceUnixEpoch.val
  return Instant.ofEpoch (nanos / 1000000000) (nanos % 1000000000).toNat

/-- Writes a file that the command has written. -/
def keep (path : String) (fs : Files) : IO Unit := do
  match fs.read path with
  | .error _ => return ()
  | .ok data =>
    if let some dir := Path.parent? path then
      if dir ≠ "" then IO.FS.createDirAll dir
    IO.FS.writeBinFile path (ByteArray.mk data.toArray)

/-- Prints what a command has to say; its exit code. -/
def report (o : Outcome) : IO UInt32 := do
  IO.print o.output
  if let some complaint := o.complaint then IO.eprintln complaint
  return o.exitCode.toUInt32

/-- Carries out an invocation. -/
def carryOut (i : Invocation) : IO UInt32 := do
  let env ← environment
  let named ← take (← nothing) (i.reach env)
  let config : Config :=
    ((Snapshot.load i.config env named).toOption.map (·.config)).getD {}
  let files ← take named (i.command.reach config env)
  let o := i.run { files, environment := env, now := ← clock }
  if let some marker := i.command.marker? config env then
    if !files.present marker then keep marker o.files
  report o

end PluginHost.Console

/-- The program. -/
def main (args : List String) : IO UInt32 := do
  match PluginHost.CommandLine.Invocation.ofArguments args with
  | .ok i => PluginHost.Console.carryOut i
  | .error stop =>
    let out ← if stop = .shown then IO.getStdout else IO.getStderr
    out.putStrLn PluginHost.CommandLine.usage
    return stop.exitCode.toUInt32
