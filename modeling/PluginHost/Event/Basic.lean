import PluginHost.Time.Instant

/-!
# Events

What happens in the host: a plugin is loaded, started or unloaded, a candidate
fails, a plugin says something, or the host shuts down.
-/

namespace PluginHost

/-- An event. -/
inductive Event
  | pluginLoaded (id version : String)
  | pluginInitialized (id : String)
  | pluginUnloaded (id : String)
  | pluginError (id error : String)
  | plugin (source type payload : String) (time : Instant)
  | shutdown
  deriving DecidableEq, Repr, Inhabited

namespace Event

/-- A kind of event. -/
inductive Kind
  | pluginLoaded
  | pluginInitialized
  | pluginUnloaded
  | pluginError
  | plugin
  | shutdown
  deriving DecidableEq, Repr, Inhabited

namespace Kind

/-- Every kind, in order. -/
def all : List Kind :=
  [.pluginLoaded, .pluginInitialized, .pluginUnloaded, .pluginError, .plugin, .shutdown]

/-- The name of a kind in documents. -/
def name : Kind → String
  | .pluginLoaded => "plugin_loaded"
  | .pluginInitialized => "plugin_initialized"
  | .pluginUnloaded => "plugin_unloaded"
  | .pluginError => "plugin_error"
  | .plugin => "plugin"
  | .shutdown => "shutdown"

/-- The name of a kind in diagnostics. -/
def symbol : Kind → String
  | .pluginLoaded => "PluginLoaded"
  | .pluginInitialized => "PluginInitialized"
  | .pluginUnloaded => "PluginUnloaded"
  | .pluginError => "PluginError"
  | .plugin => "Plugin"
  | .shutdown => "Shutdown"

def ofName? (s : String) : Option Kind :=
  all.find? fun k => k.name == s

/-- The keys of the fields that events of a kind have, in order. -/
def fields : Kind → List String
  | .pluginLoaded => ["plugin_id", "version"]
  | .pluginInitialized => ["plugin_id"]
  | .pluginUnloaded => ["plugin_id"]
  | .pluginError => ["plugin_id", "error"]
  | .plugin => ["source", "event_type", "payload", "timestamp"]
  | .shutdown => []

@[simp] theorem ofName?_name (k : Kind) : ofName? k.name = some k := by
  cases k <;> decide

end Kind

/-- The kind of an event. -/
def kind : Event → Kind
  | .pluginLoaded _ _ => .pluginLoaded
  | .pluginInitialized _ => .pluginInitialized
  | .pluginUnloaded _ => .pluginUnloaded
  | .pluginError _ _ => .pluginError
  | .plugin _ _ _ _ => .plugin
  | .shutdown => .shutdown

end Event

end PluginHost
