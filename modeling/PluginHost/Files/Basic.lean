import PluginHost.Files.Path
import PluginHost.Files.Resolve

/-!
# Operations on files

Reading, writing, making and removing. Each is given the files as they are and
gives back the files as they are afterwards, or a fault and no change.
-/

namespace PluginHost.Files

/-- A path denotes something, links followed. -/
def present (fs : Files) (path : String) : Bool :=
  (fs.node true path).toOption.isSome

/-- A path denotes a directory, links followed. -/
def isDir (fs : Files) (path : String) : Bool :=
  match fs.node true path with
  | .ok n => n.isDir
  | .error _ => false

/-- The bytes of a file. -/
def read (fs : Files) (path : String) : Except Fault (List UInt8) :=
  match fs.node true path with
  | .ok (.file data) => .ok data
  | .ok _ => .error .isDirectory
  | .error f => .error f

/-- The text of a file that is UTF-8 throughout. -/
def readText (fs : Files) (path : String) : Except Fault String := do
  let data ← fs.read path
  match Utf8.text? data with
  | some s => .ok s
  | none => .error .notText

def place (fs : Files) (location : List String) (n : Node) : Files :=
  { fs with root := n.put fs.root location }

/-- Writes a file, in the place of its former bytes if it exists. -/
def write (fs : Files) (path : String) (data : List UInt8) : Except Fault Files :=
  match fs.resolve true path with
  | .ok (.found location (.file _)) => .ok (fs.place location (.file data))
  | .ok (.found _ _) => .error .isDirectory
  | .ok (.vacant dir name) => .ok (fs.place (dir ++ [name]) (.file data))
  | .error f => .error f

/-- The path without the `/` at its end. -/
def withoutSlash (path : String) : String :=
  let kept := (path.toList.reverse.dropWhile (· = '/')).reverse
  if kept = [] then path else String.ofList kept

/-- Makes a directory in a directory that exists. -/
def makeDir (fs : Files) (path : String) : Except Fault Files :=
  match fs.resolve false (withoutSlash path) with
  | .ok (.found _ _) => .error .alreadyExists
  | .ok (.vacant dir name) => .ok (fs.place (dir ++ [name]) (.dir []))
  | .error f => .error f

/-- Makes a directory, or finds one there. -/
def ensureDir (fs : Files) (path : String) : Except Fault Files :=
  match fs.makeDir path with
  | .ok fs => .ok fs
  | .error f => if fs.isDir path then .ok fs else .error f

/-- Makes a directory and the directories above it. `levels` bounds how many of
these may be missing. -/
def makeDirsFrom : (levels : Nat) → Files → String → Except Fault Files
  | 0, _, _ => .error .notFound
  | levels + 1, fs, path =>
    if path = "" then .ok fs
    else match fs.makeDir path with
      | .ok fs => .ok fs
      | .error .notFound =>
        match Path.parent? path with
        | none => .error (.other "failed to create whole tree")
        | some above =>
          match makeDirsFrom levels fs above with
          | .ok fs => fs.ensureDir path
          | .error f => .error f
      | .error f => if fs.isDir path then .ok fs else .error f

/-- Makes a directory and the directories above it that are missing. -/
def makeDirs (fs : Files) (path : String) : Except Fault Files :=
  makeDirsFrom (path.length + 1) fs path

/-- Makes a symbolic link. -/
def makeLink (fs : Files) (path target : String) : Except Fault Files :=
  match fs.resolve false path with
  | .ok (.found _ _) => .error .alreadyExists
  | .ok (.vacant dir name) => .ok (fs.place (dir ++ [name]) (.link target))
  | .error f => .error f

/-- Removes an entry; a directory goes with all that is in it, and a link goes
without its target. -/
def remove (fs : Files) (path : String) : Except Fault Files :=
  match fs.resolve false path with
  | .ok (.found location _) => .ok { fs with root := fs.root.cut location }
  | .ok (.vacant _ _) => .error .notFound
  | .error f => .error f

end PluginHost.Files
