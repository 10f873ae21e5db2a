import PluginHost.Manifest.Basic
import PluginHost.Json.Reader

/-!
# Reading manifests

A manifest is a JSON object, in any order of members, or a JSON array of the
fields in their order. Members that are no field of a manifest are passed over,
and a field may stand only once. The id and the version have to be there.

The document is read in one go: the first thing that is wrong, be it with the
text or with a field, is the error. A fault of the object as a whole is placed
where the reader stands once it has left the object.

* `Manifest.ofBytes` reads a manifest.
-/

namespace PluginHost

namespace Manifest

/-- A field of a manifest. -/
inductive Field
  | id
  | name
  | version
  | description
  | capabilities
  deriving DecidableEq, Repr, Inhabited

/-- The key of a field. -/
def Field.key : Field → String
  | .id => "id"
  | .name => "name"
  | .version => "version"
  | .description => "description"
  | .capabilities => "capabilities"

def Field.all : List Field :=
  [.id, .name, .version, .description, .capabilities]

def Field.ofKey? (key : String) : Option Field :=
  Field.all.find? fun f => f.key == key

/-- The fields that have been read. -/
structure Draft where
  id : Option String := none
  name : Option String := none
  version : Option String := none
  description : Option (Option String) := none
  capabilities : Option (List String) := none
  deriving DecidableEq, Repr, Inhabited

namespace Draft

/-- The field has been read. -/
def has (d : Draft) : Field → Bool
  | .id => d.id.isSome
  | .name => d.name.isSome
  | .version => d.version.isSome
  | .description => d.description.isSome
  | .capabilities => d.capabilities.isSome

/-- The manifest, or the first field that is missing. -/
def toManifest (d : Draft) : Except Field Manifest :=
  match d.id, d.version with
  | none, _ => .error .id
  | some _, none => .error .version
  | some id, some version =>
    .ok { id, version, name := d.name.getD "", description := d.description.getD none,
          capabilities := d.capabilities.getD [] }

end Draft

end Manifest

namespace Json.Cursor

/-- Where a reader stands that has left an object before its end. -/
def leaveObject (c : Cursor) : Cursor :=
  let c := c.skipSpace
  if c.peek?.any (·.toNat = 0x7D) then c.advance else c

/-- Where a reader stands that has left an array before its end. -/
def leaveArray (c : Cursor) : Cursor :=
  let c := c.skipSpace
  match c.peek? with
  | some ']' => c.advance
  | some ',' => c.advance.skipSpace
  | _ => c

/-- Reads null or a string. -/
def text? (c : Cursor) (wanted : String) : Except Error (Option String × Cursor) :=
  let c := c.skipSpace
  if c.peek? = some 'n' then
    (c.advance.word ['u', 'l', 'l']).map fun c => (none, c)
  else (c.text wanted).map fun (s, c) => (some s, c)

/-- Reads the strings of an array and its closing bracket. -/
def textsFrom (wanted : String) : (fuel : Nat) → (first : Bool) → Cursor →
    Except Error (List String × Cursor)
  | 0, _, c => .error (c.fail .endOfArray)
  | fuel + 1, first, c => do
    let (more, c) ← c.nextItem first
    if !more then .ok ([], c.advance)
    else
      let (s, c) ← c.text wanted
      let (ss, c) ← textsFrom wanted fuel false c
      .ok (s :: ss, c)

def texts (c : Cursor) : Except Error (List String × Cursor) :=
  let c := c.skipSpace
  if c.peek? = some '[' then textsFrom "a string" c.steps true c.advance
  else .error (c.wrongType "a sequence")

end Json.Cursor

namespace Manifest

open Json (Cursor)

/-- Reads the value of a field. -/
def Draft.read (d : Draft) (f : Field) (c : Cursor) : Except Json.Error (Draft × Cursor) :=
  match f with
  | .id => (c.text "a string").map fun (s, c) => ({ d with id := some s }, c)
  | .name => (c.text "a string").map fun (s, c) => ({ d with name := some s }, c)
  | .version => (c.text "a string").map fun (s, c) => ({ d with version := some s }, c)
  | .description => (c.text? "a string").map fun (s, c) => ({ d with description := some s }, c)
  | .capabilities => c.texts.map fun (ss, c) => ({ d with capabilities := some ss }, c)

/-- Reads the members of the object and its closing brace. -/
def membersFrom : (fuel : Nat) → (first : Bool) → Draft → Cursor →
    Except Json.Error (Draft × Cursor)
  | 0, _, _, c => .error (c.fail .endOfObject)
  | fuel + 1, first, d, c => do
    let (more, c) ← c.nextKey first
    if !more then .ok (d, c.advance)
    else
      let (key, c) ← c.string
      match Field.ofKey? key with
      | none =>
        let c ← c.colon
        let c ← c.skip
        membersFrom fuel false d c
      | some f =>
        if d.has f then .error (c.leaveObject.fail (.repeatedField f.key))
        else
          let c ← c.colon
          let (d, c) ← d.read f c
          membersFrom fuel false d c

/-- Reads fields by their places. The reader stops before the closing bracket,
or after the last field. -/
def placesFrom : List Field → (first : Bool) → Draft → Cursor →
    Except Json.Error (Draft × Cursor)
  | [], _, d, c => .ok (d, c)
  | f :: fs, first, d, c => do
    let (more, c) ← c.nextItem first
    if !more then .ok (d, c)
    else
      let (d, c) ← d.read f c
      placesFrom fs false d c

/-- Reads the object form; the cursor is after the opening brace. -/
def ofMembers (c : Cursor) : Except Json.Error (Manifest × Cursor) := do
  let (d, c) ← membersFrom c.steps true {} c
  match d.toManifest with
  | .ok m => .ok (m, c)
  | .error f => .error (c.fail (.missingField f.key))

/-- Reads the array form; the cursor is after the opening bracket. -/
def ofPlaces (c : Cursor) : Except Json.Error (Manifest × Cursor) := do
  let (d, c) ← placesFrom Field.all true {} c
  match d.toManifest with
  | .ok m => (c.endArray).map fun c => (m, c)
  | .error f =>
    let length := if f = .id then 0 else 2
    .error (c.leaveArray.fail (.wrongLength length "struct PluginManifest with 5 elements"))

/-- The manifest that the bytes are. -/
def ofBytes (bytes : List UInt8) : Except Json.Error Manifest := do
  let c := (Cursor.ofBytes bytes).skipSpace
  let (m, c) ←
    if c.peek? = some '[' then ofPlaces c.advance
    else if c.peek?.any (·.toNat = 0x7B) then ofMembers c.advance
    else .error (c.wrongType "struct PluginManifest")
  c.finish
  .ok m

end Manifest

end PluginHost
