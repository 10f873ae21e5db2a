import PluginHost.Plugin.Table

/-!
# Plugins

A plugin as its author writes it: texts are whole, and a hook may crash, which
ends it without a result. As a table it keeps both to itself. A text that cannot
cross, because of a NUL in it, is not sent at all, and for a text about the
plugin itself the empty text is given. A start that crashes is a refusal.

* `Plugin.toTable` is the table of a plugin.
* `Hook.log` and `Hook.emit` are the calls with text, as authors use them.
-/

namespace PluginHost

/-- A plugin; a hook without a result has crashed. -/
structure Plugin (σ : Type) where
  id : String
  name : String
  version : String
  capabilities : Mask := 0#64
  start : Hook σ (Option Bool)
  stop : Hook σ (Option Unit) := .done (some ())
  event : (type payload : String) → Hook σ (Option Unit) := fun _ _ => .done (some ())

namespace Hook

variable {σ α : Type}

/-- Makes a call with two texts, unless one of them cannot cross. -/
def send (call : Terminated → Terminated → Call) (first second : String) (next : Hook σ α) :
    Hook σ α :=
  match Terminated.ofText? first, Terminated.ofText? second with
  | some a, some b => .ask (call (some a) (some b)) fun _ => next
  | _, _ => next

def log (level message : String) (next : Hook σ α) : Hook σ α :=
  send .log level message next

def emit (type payload : String) (next : Hook σ α) : Hook σ α :=
  send .emit type payload next

end Hook

namespace Plugin

variable {σ : Type}

/-- A text about the plugin as it crosses. -/
def crossing (s : String) : Terminated :=
  some ((Terminated.ofText? s).getD [])

/-- A text that arrives; an absent one is empty. -/
def arriving (t : Terminated) : String :=
  (Terminated.lossy t).getD ""

/-- The table of a plugin. Without a host it refuses to start. -/
def toTable (p : Plugin σ) : Table σ where
  id := some fun _ => crossing p.id
  name := some fun _ => crossing p.name
  version := some fun _ => crossing p.version
  capabilities := some fun _ => p.capabilities
  start := some fun bound => if bound then p.start.map (·.getD false) else .done false
  stop := some (p.stop.map fun _ => ())
  event := some fun type payload => (p.event (arriving type) (arriving payload)).map fun _ => ()

end Plugin

end PluginHost
