import PluginHost.Text.Utf8
import PluginHost.Text.Terminated
import PluginHost.Text.Split
import PluginHost.Files.Fault
import PluginHost.Files.Node

/-!
# What a path denotes

A path is followed from the root or from the working directory, one part at a
time. A symbolic link on the way is replaced by its target; one at the end is
replaced if the caller wants to follow it. Forty links are followed, and no
more.

* `Files.resolve` gives the location a path denotes, and what is there.
-/

namespace PluginHost

/-- A directory tree and the location of the working directory in it. -/
structure Files where
  root : Files.Node
  cwd : List String
  deriving Repr, Inhabited

namespace Files

/-- What a path denotes: a node, or a name that is free in a directory. -/
inductive Spot
  | found (location : List String) (node : Node)
  | vacant (dir : List String) (name : String)
  deriving Repr, Inhabited

def nameLimit : Nat := 255

def pathLimit : Nat := 4095

def linkLimit : Nat := 40

/-- The parts of a path that are stepped through; a `/` at the end stands for a
step that needs a directory. -/
def stepsOf (path : String) : List String :=
  let parts := splitOn '/' path.toList
  let named := (parts.filter (· ≠ [])).map String.ofList
  if parts.length > 1 ∧ parts.getLast? = some [] then named ++ ["."] else named

/-- Steps through parts from a location. A link is left to `expand`, with the
directory it stands in, its target, and the parts after it. -/
def stepWith (root : Node) (follow : Bool)
    (expand : List String → String → List String → Except Fault Spot) :
    List String → List String → Except Fault Spot
  | here, [] =>
    match root.at? here with
    | some node => .ok (.found here node)
    | none => .error .notFound
  | here, part :: rest =>
    match root.at? here with
    | some (.dir entries) =>
      if part = "." then stepWith root follow expand here rest
      else if part = ".." then stepWith root follow expand here.dropLast rest
      else if nameLimit < part.utf8ByteSize then .error .nameTooLong
      else match find? part entries with
        | none => if rest = [] then .ok (.vacant here part) else .error .notFound
        | some (.link target) =>
          if rest = [] ∧ !follow then .ok (.found (here ++ [part]) (.link target))
          else expand here target rest
        | some _ => stepWith root follow expand (here ++ [part]) rest
    | some _ => .error .notDirectory
    | none => .error .notFound

/-- Where a path starts. -/
def origin (here : List String) (path : String) : List String :=
  if path.toList.head? = some '/' then [] else here

/-- Follows a link, as many more of them as `budget` says. -/
def expandLink (root : Node) (follow : Bool) :
    (budget : Nat) → List String → String → List String → Except Fault Spot
  | 0, _, _, _ => .error .tooManyLinks
  | budget + 1, here, target, rest =>
    if target = "" then .error .notFound
    else
      stepWith root follow (expandLink root follow budget) (origin here target)
        (stepsOf target ++ rest)

/-- What a path denotes. -/
def resolve (fs : Files) (follow : Bool) (path : String) : Except Fault Spot :=
  if Terminated.hasNul path then .error .nulInName
  else if path = "" then .error .notFound
  else if pathLimit < path.utf8ByteSize then .error .nameTooLong
  else
    stepWith fs.root follow (expandLink fs.root follow linkLimit) (origin fs.cwd path)
      (stepsOf path)

/-- The node that a path denotes. -/
def node (fs : Files) (follow : Bool) (path : String) : Except Fault Node :=
  match fs.resolve follow path with
  | .ok (.found _ n) => .ok n
  | .ok (.vacant _ _) => .error .notFound
  | .error f => .error f

end Files

end PluginHost
