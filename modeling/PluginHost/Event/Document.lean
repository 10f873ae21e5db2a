import PluginHost.Event.Basic
import PluginHost.Json.Reader
import PluginHost.Json.Printer
import PluginHost.Manifest.Reader
import PluginHost.Time.Reader
import PluginHost.Time.Printer

/-!
# Events as documents

An event is written as an object whose member `kind` says what kind of event it
is; the other members are the event's fields. It is read from such an object,
with the members in any order, or from an array that starts with the kind.

Reading goes in two rounds. The first takes the document as it is and looks at
nothing but the kind; its errors have a place. The second looks at the fields,
and its errors have none.

* `Event.toValue` writes an event.
* `Event.ofBytes` reads one.
-/

namespace PluginHost.Event

open Json (Value Cursor Fault)

def kindKey : String := "kind"

/-- The values of an event's fields, in order. -/
def fieldValues : Event → List String
  | .pluginLoaded id version => [id, version]
  | .pluginInitialized id => [id]
  | .pluginUnloaded id => [id]
  | .pluginError id error => [id, error]
  | .plugin source type payload time => [source, type, payload, time.text]
  | .shutdown => []

/-- The fields as members, in order. -/
def fieldMembers (e : Event) : List (String × Value) :=
  e.kind.fields.zip (e.fieldValues.map .string)

def toValue (e : Event) : Value :=
  .object ((kindKey, .string e.kind.name) :: e.fieldMembers)

def text (e : Event) : String :=
  e.toValue.text

/-- The document of an event without its kind. -/
inductive Body
  | members (ms : List (String × Value))
  | items (vs : List Value)
  deriving Repr, Inhabited

/-- Reads the kind. -/
def readKind (c : Cursor) : Except Json.Error (Kind × Cursor) := do
  let (s, c) ← c.text "variant identifier"
  match Kind.ofName? s with
  | some k => .ok (k, c)
  | none => .error (c.fail (.unknownVariant s (Kind.all.map Kind.name)))

/-- Reads the members of an event's object and its closing brace. -/
def membersFrom : (fuel : Nat) → (first : Bool) → Option Kind → Cursor →
    Except Json.Error (Option Kind × List (String × Value) × Cursor)
  | 0, _, _, c => .error (c.fail .endOfObject)
  | fuel + 1, first, kind, c => do
    let (more, c) ← c.nextKey first
    if !more then .ok (kind, [], c.advance)
    else
      let (key, c) ← c.string
      if key = kindKey then
        if kind.isSome then .error (c.leaveObject.fail (.repeatedField kindKey))
        else
          let c ← c.colon
          let (k, c) ← readKind c
          membersFrom fuel false (some k) c
      else
        let c ← c.colon
        let (v, c) ← c.value 1
        let (kind, ms, c) ← membersFrom fuel false kind c
        .ok (kind, (key, v) :: ms, c)

/-- Reads the object form; the cursor is after the opening brace. -/
def ofObject (c : Cursor) : Except Json.Error (Kind × Body × Cursor) := do
  let (kind, ms, c) ← membersFrom c.steps true none c
  match kind with
  | some k => .ok (k, .members ms, c)
  | none => .error (c.fail (.missingField kindKey))

/-- Reads the array form; the cursor is after the opening bracket. -/
def ofArray (c : Cursor) : Except Json.Error (Kind × Body × Cursor) := do
  let (more, c) ← c.nextItem true
  if !more then .error (c.leaveArray.fail (.missingField kindKey))
  else
    let (k, c) ← readKind c
    let (vs, c) ← Cursor.itemsFrom c.steps (Json.depthLimit - 1) false c
    .ok (k, .items vs, c)

/-- Takes the document as it is, and the kind. -/
def readBody (c : Cursor) : Except Json.Error (Kind × Body × Cursor) :=
  let c := c.skipSpace
  if c.peek? = some '[' then ofArray c.advance
  else if c.peek?.any (·.toNat = 0x7B) then ofObject c.advance
  else .error (c.wrongType "internally tagged enum Event")

/-- What stands in the place of something else. -/
def foundOf : Value → Json.Found
  | .null => .null
  | .bool b => .bool b
  | .number n => .number n
  | .string s => .string s
  | .array _ => .array
  | .object _ => .object

/-- The fields that have been looked at. -/
structure Parts where
  texts : List (String × String) := []
  time : Option Instant := none
  deriving DecidableEq, Repr, Inhabited

def timeKey : String := "timestamp"

def Parts.has (p : Parts) (key : String) : Bool :=
  if key = timeKey then p.time.isSome else p.texts.any fun t => t.1 == key

/-- Looks at a field. -/
def Parts.read (p : Parts) (key : String) (v : Value) : Except Fault Parts :=
  match v with
  | .string s =>
    if key = timeKey then
      match Instant.ofText s with
      | .ok i => .ok { p with time := some i }
      | .error f => .error (.badText f.message)
    else .ok { p with texts := (key, s) :: p.texts }
  | other =>
    .error (.wrongType (foundOf other)
      (if key = timeKey then "an RFC 3339 formatted date and time string" else "a string"))

/-- Looks at members, those that are no field of the kind left aside. -/
def Parts.ofMembers (k : Kind) (p : Parts) : List (String × Value) → Except Fault Parts
  | [] => .ok p
  | (key, v) :: rest =>
    if !k.fields.contains key then p.ofMembers k rest
    else if p.has key then .error (.repeatedField key)
    else do
      let p ← p.read key v
      p.ofMembers k rest

/-- Looks at items in the order of the fields. -/
def Parts.ofItems (p : Parts) : List String → List Value → Except Fault Parts
  | key :: keys, v :: vs => do
    let p ← p.read key v
    p.ofItems keys vs
  | _, _ => .ok p

def Parts.get (p : Parts) (key : String) : Except Fault String :=
  match p.texts.find? fun t => t.1 == key with
  | some t => .ok t.2
  | none => .error (.missingField key)

def Parts.getTime (p : Parts) : Except Fault Instant :=
  match p.time with
  | some i => .ok i
  | none => .error (.missingField timeKey)

/-- The event of a kind with these fields. -/
def Parts.toEvent (p : Parts) : Kind → Except Fault Event
  | .pluginLoaded => do .ok (.pluginLoaded (← p.get "plugin_id") (← p.get "version"))
  | .pluginInitialized => do .ok (.pluginInitialized (← p.get "plugin_id"))
  | .pluginUnloaded => do .ok (.pluginUnloaded (← p.get "plugin_id"))
  | .pluginError => do .ok (.pluginError (← p.get "plugin_id") (← p.get "error"))
  | .plugin => do
    .ok (.plugin (← p.get "source") (← p.get "event_type") (← p.get "payload") (← p.getTime))
  | .shutdown => .ok .shutdown

def elements (n : Nat) : String :=
  if n = 1 then "1 element" else s!"{n} elements"

def tooShort (k : Kind) (n : Nat) : Fault :=
  .wrongLength n ("struct variant Event::" ++ k.symbol ++ " with " ++ elements k.fields.length)

def tooLong (k : Kind) (n : Nat) : Fault :=
  .wrongLength n (elements k.fields.length ++ " in sequence")

/-- The event that a body stands for. -/
def ofBody (k : Kind) : Body → Except Fault Event
  | .members ms => do (← Parts.ofMembers k {} ms).toEvent k
  | .items vs => do
    let p ← Parts.ofItems {} k.fields vs
    if vs.length < k.fields.length then .error (tooShort k vs.length)
    else if k.fields.length < vs.length then .error (tooLong k vs.length)
    else p.toEvent k

/-- The event that the bytes are. -/
def ofBytes (bytes : List UInt8) : Except Json.Error Event := do
  let (k, body, c) ← readBody (Cursor.ofBytes bytes)
  match ofBody k body with
  | .error f => .error ⟨f, none⟩
  | .ok e =>
    c.finish
    .ok e

end PluginHost.Event
