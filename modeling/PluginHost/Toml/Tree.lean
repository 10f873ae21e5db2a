import PluginHost.Toml.Basic

/-!
# Tables under construction

A document is read line by line, and each line adds to tables that lines before
it have made. Which lines may add to a table depends on how it came about.

* A table that a header names is *stated*. It may be stated once.
* A table on the way to what a header names is *implied*. It may still be stated.
* A table on the way to what a dotted key names is *dotted*. Only dotted keys add
  members to it, and no header may state it, though headers may state tables in it.
* Items of an array of tables are added by headers, and a header that passes
  through the array goes on in its last item.

No key is given a value twice, and nothing is added to a value.

* `assign` gives a key a value.
* `state` and `addItem` are what the two kinds of headers do.
-/

namespace PluginHost.Toml

/-- How a table came about. -/
inductive Origin
  | stated
  | implied
  | dotted
  deriving DecidableEq, Repr, Inhabited

/-- What a key stands for while the document is read. -/
inductive Node
  | leaf (v : Value)
  | table (origin : Origin) (members : List (String × Node))
  | tables (items : List (List (String × Node)))
  deriving Repr, Inhabited

/-- The members of a table that is still open. -/
abbrev Members := List (String × Node)

namespace Members

/-- What a key stands for. -/
def get? (key : String) : Members → Option Node
  | [] => none
  | (k, n) :: rest => if k = key then some n else get? key rest

/-- A key stands for something else, or for something at last. -/
def set (key : String) (n : Node) : Members → Members
  | [] => [(key, n)]
  | (k, m) :: rest => if k = key then (key, n) :: rest else (k, m) :: set key n rest

/-- Gives a key a value. The key may be dotted: the tables on the way to its last
part are made, or are dotted themselves. -/
def assign : (path : List String) → Value → Members → Option Members
  | [], _, _ => none
  | [key], v, ms => if (ms.get? key).isSome then none else some (ms.set key (.leaf v))
  | key :: next :: rest, v, ms =>
    match ms.get? key with
    | none => (assign (next :: rest) v []).map fun inner => ms.set key (.table .dotted inner)
    | some (.table origin inner) =>
      if origin = .stated ∨ (rest = [] ∧ origin ≠ .dotted) then none
      else (assign (next :: rest) v inner).map fun inner => ms.set key (.table origin inner)
    | some (.tables items) =>
      if rest = [] then none
      else (assign (next :: rest) v (items.getLast?.getD [])).map fun last =>
        ms.set key (.tables (items.dropLast ++ [last]))
    | some (.leaf _) => none

/-- Does something to the table at the end of a path, and makes the tables on the
way that are not there. -/
def below : (path : List String) → (Members → Option Members) → Members → Option Members
  | [], f, ms => f ms
  | key :: rest, f, ms =>
    match ms.get? key with
    | none => (below rest f []).map fun inner => ms.set key (.table .implied inner)
    | some (.table origin inner) =>
      (below rest f inner).map fun inner => ms.set key (.table origin inner)
    | some (.tables items) =>
      (below rest f (items.getLast?.getD [])).map fun last =>
        ms.set key (.tables (items.dropLast ++ [last]))
    | some (.leaf _) => none

/-- States the table of a key. -/
def stateKey (key : String) (ms : Members) : Option Members :=
  match ms.get? key with
  | none => some (ms.set key (.table .stated []))
  | some (.table .implied inner) => some (ms.set key (.table .stated inner))
  | some _ => none

/-- Adds an item to the array of tables of a key. -/
def addItemKey (key : String) (ms : Members) : Option Members :=
  match ms.get? key with
  | none => some (ms.set key (.tables [[]]))
  | some (.tables items) => some (ms.set key (.tables (items ++ [[]])))
  | some _ => none

/-- What a header of a table does. -/
def state (path : List String) (ms : Members) : Option Members :=
  match path.getLast? with
  | none => none
  | some key => below path.dropLast (stateKey key) ms

/-- What a header of an item does. -/
def addItem (path : List String) (ms : Members) : Option Members :=
  match path.getLast? with
  | none => none
  | some key => below path.dropLast (addItemKey key) ms

end Members

mutual

def Node.value : Node → Value
  | .leaf v => v
  | .table _ members => .table (inOrder (memberValues members))
  | .tables items => .array (itemValues items)

def memberValues : List (String × Node) → List (String × Value)
  | [] => []
  | (key, n) :: rest => (key, n.value) :: memberValues rest

def itemValues : List (List (String × Node)) → List Value
  | [] => []
  | item :: rest => .table (inOrder (memberValues item)) :: itemValues rest

end

/-- The members of a table that is complete, in the order of their keys. -/
def Members.values (ms : Members) : List (String × Value) :=
  inOrder (memberValues ms)

end PluginHost.Toml
