import PluginHost.Files.Basic

/-!
# Candidates

The files below a directory that have a given extension, at any depth. A
directory's entries are visited in the order of their names' bytes, and what is
below an entry is visited before the next entry. Links below the directory are
neither files nor followed; the directory itself may be given by a link.
-/

namespace PluginHost.Files

def insertByName {α : Type} (name : String) (x : α) : List (String × α) → List (String × α)
  | [] => [(name, x)]
  | (n, y) :: rest =>
    if name < n then (name, x) :: (n, y) :: rest else (n, y) :: insertByName name x rest

def sortByName {α : Type} (entries : List (String × α)) : List (String × α) :=
  entries.foldr (fun e sorted => insertByName e.1 e.2 sorted) []

mutual

/-- The paths of the files of a tree that stands at `path`. -/
def Node.filesAt (path : String) : Node → List String
  | .file _ => [path]
  | .link _ => []
  | .dir entries => (sortByName (filesOfEntries path entries)).flatMap (·.2)

/-- For each entry of the directory `path`, the paths of its files. -/
def filesOfEntries (path : String) : List (String × Node) → List (String × List String)
  | [] => []
  | (name, node) :: rest =>
    (name, node.filesAt (Path.join path name)) :: filesOfEntries path rest

end

/-- The files at and below a path, in order. -/
def filesBelow (fs : Files) (path : String) : List String :=
  match fs.node false path with
  | .error _ => []
  | .ok (.link _) =>
    match fs.node true path with
    | .ok (.dir entries) => (Node.dir entries).filesAt path
    | _ => []
  | .ok n => n.filesAt path

/-- The files at and below a path that have the extension, in order. -/
def candidates (fs : Files) (dir extension : String) : List String :=
  (fs.filesBelow dir).filter fun path => Path.extension? path = some extension

end PluginHost.Files
