import PluginHost.Error
import PluginHost.PluginId
import PluginHost.Plugin.Hook
import PluginHost.Text.Blank

/-!
# Plugin tables

A module hands over a table of seven functions, and any of its slots may be
empty. A table with all of them is an interface, and only an interface is ever
called.

* `Table.toInterface` checks the slots.
* `Interface.metadata` asks a plugin who it is.
-/

namespace PluginHost

/-- The table of a module. -/
structure Table (σ : Type) where
  id : Option (σ → Terminated)
  name : Option (σ → Terminated)
  version : Option (σ → Terminated)
  capabilities : Option (σ → Mask)
  start : Option ((bound : Bool) → Hook σ Bool)
  stop : Option (Hook σ Unit)
  event : Option (Terminated → Terminated → Hook σ Unit)

/-- A table without an empty slot. -/
structure Interface (σ : Type) where
  id : σ → Terminated
  name : σ → Terminated
  version : σ → Terminated
  capabilities : σ → Mask
  start : (bound : Bool) → Hook σ Bool
  stop : Hook σ Unit
  event : Terminated → Terminated → Hook σ Unit

/-- Why a table is not good enough. -/
inductive TableFault
  | emptySlot (slot : String)
  | null (field : String)
  | notText (field : String) (fault : Utf8.Fault)
  | badId (id : String)
  | blankVersion
  deriving DecidableEq, Repr

/-- The text of a fault. -/
def TableFault.message : TableFault → String
  | .emptySlot slot => "table slot `" ++ slot ++ "` is null"
  | .null field => s!"get_{field} returned null"
  | .notText field fault => s!"{field} is not valid UTF-8: " ++ fault.message
  | .badId id => s!"id '{id}' is not a reverse-domain identifier"
  | .blankVersion => "version is empty"

namespace Table

variable {σ : Type}

/-- What fills a slot. -/
def slot {α : Type} (name : String) (content : Option α) : Except TableFault α :=
  match content with
  | some f => .ok f
  | none => .error (.emptySlot name)

/-- The interface of a table, or the first slot that is empty. -/
def toInterface (t : Table σ) : Except TableFault (Interface σ) := do
  let id ← slot "get_id" t.id
  let name ← slot "get_name" t.name
  let version ← slot "get_version" t.version
  let capabilities ← slot "get_capabilities" t.capabilities
  let start ← slot "initialize" t.start
  let stop ← slot "shutdown" t.stop
  let event ← slot "on_event" t.event
  .ok { id, name, version, capabilities, start, stop, event }

end Table

/-- Who a plugin says it is, and what it asks for. -/
structure Metadata where
  id : String
  name : String
  version : String
  requested : Mask
  deriving DecidableEq, Repr, Inhabited

namespace Interface

variable {σ : Type}

/-- The text that a plugin gives for a field. -/
def textOf (field : String) (t : Terminated) : Except TableFault String :=
  match t with
  | none => .error (.null field)
  | some bytes =>
    match Utf8.text bytes with
    | .ok s => .ok s
    | .error f => .error (.notText field f)

/-- Asks a plugin for a text about itself. -/
def ask (h : Handle) (what : Identity) (field : String) (f : σ → Terminated) (w : World σ) :
    Except TableFault String × World σ :=
  (textOf field (f w.outside), w.note (.asked h what))

/-- Asks a plugin who it is. Its id has to be a plugin id, and its version not
blank. -/
def metadata (i : Interface σ) (h : Handle) (w : World σ) :
    Except TableFault Metadata × World σ :=
  match ask h .id "id" i.id w with
  | (.error f, w) => (.error f, w)
  | (.ok id, w) =>
    match ask h .name "name" i.name w with
    | (.error f, w) => (.error f, w)
    | (.ok name, w) =>
      match ask h .version "version" i.version w with
      | (.error f, w) => (.error f, w)
      | (.ok version, w) =>
        if !PluginId.isValid id then (.error (.badId id), w)
        else if Blank.allBlank version then (.error .blankVersion, w)
        else
          let requested := i.capabilities w.outside
          (.ok ⟨id, name, version, requested⟩, w.note (.asked h .capabilities))

/-- Starts a plugin, which may be handed a host: whether it accepts, the grant it
was bound to, and the world. -/
def runStart (i : Interface σ) (host : Host) (h : Handle) (caller : Caller) (w : World σ) :
    Bool × Caller × World σ :=
  let (accepted, caller, w) :=
    (i.start caller.isSome).run host h caller (w.note (.starting h caller.isSome))
  (accepted, caller, w.note (.started h accepted))

/-- Stops a plugin. -/
def runStop (i : Interface σ) (host : Host) (h : Handle) (caller : Caller) (w : World σ) :
    Caller × World σ :=
  (i.stop.run host h caller (w.note (.stopped h))).2

/-- Hands an event to a plugin. An event whose text holds a NUL is not handed
over. -/
def runEvent (i : Interface σ) (host : Host) (h : Handle) (type payload : String)
    (caller : Caller) (w : World σ) : Caller × World σ :=
  match Terminated.ofText? type, Terminated.ofText? payload with
  | some t, some p =>
    ((i.event (some t) (some p)).run host h caller (w.note (.event h type payload))).2
  | _, _ => (caller, w)

end Interface

end PluginHost
