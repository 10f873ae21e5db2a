/-!
# Directory trees

A tree of files, symbolic links and directories. A directory's entries are
stored in some order that nothing depends on.
-/

namespace PluginHost.Files

/-- A file with its bytes, a symbolic link with its target, or a directory. -/
inductive Node
  | file (data : List UInt8)
  | link (target : String)
  | dir (entries : List (String × Node))
  deriving Repr, Inhabited

def find? (name : String) : List (String × Node) → Option Node
  | [] => none
  | (n, node) :: rest => if n = name then some node else find? name rest

/-- The entries with one set, in the place of an earlier one. -/
def set (name : String) (node : Node) : List (String × Node) → List (String × Node)
  | [] => [(name, node)]
  | (n, old) :: rest => if n = name then (n, node) :: rest else (n, old) :: set name node rest

def unset (name : String) (entries : List (String × Node)) : List (String × Node) :=
  entries.filter fun e => e.1 ≠ name

namespace Node

/-- The node below a node, along the names of directory entries. -/
def at? : Node → List String → Option Node
  | node, [] => some node
  | .dir entries, name :: rest =>
    match find? name entries with
    | some below => below.at? rest
    | none => none
  | _, _ :: _ => none

/-- The tree with a node at a location whose directory exists; any other tree
stays as it is. -/
def put (node : Node) : Node → List String → Node
  | _, [] => node
  | .dir entries, [name] => .dir (set name node entries)
  | .dir entries, name :: rest =>
    match find? name entries with
    | some below => .dir (set name (put node below rest) entries)
    | none => .dir entries
  | old, _ :: _ => old

/-- The tree without the entry at a location. -/
def cut : Node → List String → Node
  | .dir entries, [name] => .dir (unset name entries)
  | .dir entries, name :: rest =>
    match find? name entries with
    | some below => .dir (set name (below.cut rest) entries)
    | none => .dir entries
  | old, _ => old

def isDir : Node → Bool
  | .dir _ => true
  | _ => false

end Node

end PluginHost.Files
