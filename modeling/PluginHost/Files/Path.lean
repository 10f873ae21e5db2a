import PluginHost.Text.Split

/-!
# Paths

A path is a text whose parts are separated by `/`. Where a path is only taken
apart or put together, an empty part and a part `.` count for nothing, except a
`.` in front.

* `parent?` and `fileName?` take off the last part.
* `stem?` and `extension?` split a file name at its last dot.
* `join` puts a path below another.
-/

namespace PluginHost.Path

/-- The part has no bearing on what the path denotes. -/
def isIdle (part : List Char) : Bool :=
  part = [] || part = ['.']

/-- What stands before the parts: the root, a leading `.`, or nothing. -/
def start : List Char → List Char
  | '/' :: _ => ['/']
  | ['.'] => ['.']
  | '.' :: '/' :: _ => ['.']
  | _ => []

/-- The parts after the start, idle ones at the end left out. -/
def parts (path : List Char) : List (List Char) :=
  let body := splitOn '/' (path.drop (start path).length)
  (body.reverse.dropWhile isIdle).reverse

/-- The path above, without idle parts at its end. A path that has no part but
its start has only the empty path above it, and the root has none. -/
def parent? (path : String) : Option String :=
  let cs := path.toList
  match (parts cs).reverse with
  | _ :: above =>
    some (String.ofList (start cs ++ joinWith '/' (above.dropWhile isIdle).reverse))
  | [] => if start cs = ['.'] then some "" else none

/-- The last part, if it names an entry of a directory. -/
def fileName? (path : String) : Option String :=
  match (parts path.toList).getLast? with
  | some part => if part = ['.', '.'] then none else some (String.ofList part)
  | none => none

/-- A name cut at its last dot; a name that has no dot but in front is not cut. -/
def cutAtDot (name : List Char) : List Char × Option (List Char) :=
  match (splitOn '.' name).reverse with
  | last :: before :: more =>
    let stem := joinWith '.' (before :: more).reverse
    if stem = [] then (name, none) else (stem, some last)
  | _ => (name, none)

def stem? (path : String) : Option String :=
  (fileName? path).map fun name => String.ofList (cutAtDot name.toList).1

def extension? (path : String) : Option String :=
  (fileName? path).bind fun name => (cutAtDot name.toList).2.map String.ofList

def isAbsolute (path : String) : Bool :=
  path.toList.head? == some '/'

/-- The second path as it is seen from the first. -/
def join (base path : String) : String :=
  if isAbsolute path ∨ base = "" then path
  else if base.toList.getLast? = some '/' then base ++ path
  else base ++ "/" ++ path

end PluginHost.Path
