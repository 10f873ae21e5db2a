import PluginHost.Manager.Basic

/-!
# Releasing plugins

A plugin that was started is stopped, then its module is closed, and then its end
is published. Several are released in reverse load order, one wholly before the
next.
-/

namespace PluginHost.Manager

variable {σ : Type}

/-- Stops a plugin, if it was started. -/
def stopIfStarted (host : Host) (p : Managed σ) (w : World σ) : World σ :=
  if p.state = .initialized then (p.interface.runStop host p.handle (some p.grant) w).2 else w

/-- Releases a plugin that is no longer managed. -/
def release (host : Host) (p : Managed σ) (w : World σ) : World σ :=
  ((stopIfStarted host p w).closeHandle p.handle).publish (.pluginUnloaded p.id)

def releaseEach (host : Host) (ps : List (Managed σ)) (w : World σ) : World σ :=
  ps.foldl (fun w p => release host p w) w

/-- Unloads a plugin. -/
def unload (m : Manager σ) (id : String) (w : World σ) : Except Error Unit × Manager σ × World σ :=
  match m.find? id with
  | none => (.error (.pluginNotFound id), m, w)
  | some p => (.ok (), m.without id, release m.host p w)

/-- Unloads every plugin that was not started; their ids, the last loaded first. -/
def unloadUnstarted (m : Manager σ) (w : World σ) : List String × Manager σ × World σ :=
  let idle := (m.plugins.filter fun p => p.state = .loaded).reverse
  let kept := m.plugins.filter fun p => p.state ≠ .loaded
  (idle.map (·.id), { m with plugins := kept }, releaseEach m.host idle w)

/-- Unloads every plugin, the last loaded first. -/
def shutdown (m : Manager σ) (w : World σ) : Manager σ × World σ :=
  ({ m with plugins := [] }, releaseEach m.host m.plugins.reverse w)

end PluginHost.Manager
