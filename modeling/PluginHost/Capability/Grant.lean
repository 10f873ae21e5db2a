import PluginHost.Capability.Basic
import PluginHost.Text.Quoted

/-!
# Grants

What one plugin holds, under a ceiling that is fixed when the plugin is loaded.
A plugin may ask for more at any time. It gets all it asks for or nothing, and
what it has been given it keeps.

* `Grant.new` clips the first request to the ceiling.
* `Grant.request` decides a later one.
-/

namespace PluginHost

/-- The plugin's id, the most it may hold, and what it holds. -/
structure Grant where
  plugin : String
  ceiling : Mask
  granted : Mask
  deriving DecidableEq, Repr, Inhabited

namespace Grant

/-- A grant of what is known and allowed of the first request. -/
def new (plugin : String) (requested ceiling : Mask) : Grant :=
  ⟨plugin, ceiling, requested.knownPart &&& ceiling⟩

/-- Whether a request for `m` is accepted: all its bits are known and under the
ceiling. What is granted already plays no part. -/
def accepts (g : Grant) (m : Mask) : Bool :=
  m.isKnown && g.ceiling.satisfies m

/-- Asks for the bits of `m`: the answer, and the grant afterwards. -/
def request (g : Grant) (m : Mask) : Bool × Grant :=
  if g.accepts m then (true, { g with granted := g.granted ||| m }) else (false, g)

/-- Any bit of `m` is granted. -/
def hasAny (g : Grant) (m : Mask) : Bool :=
  g.granted.meets m

def has (g : Grant) (c : Capability) : Bool :=
  g.granted.has c

/-- Every bit of `m` is granted. -/
def satisfies (g : Grant) (m : Mask) : Bool :=
  g.granted.satisfies m

/-- The text of a grant in diagnostics, where it is bound to a host. -/
def debug (g : Grant) : String :=
  "HostBinding \x7b plugin: " ++ Quoted.quote g.plugin ++ ", granted: " ++ g.granted.debug
    ++ " \x7d"

@[simp] theorem request_fst (g : Grant) (m : Mask) : (g.request m).1 = g.accepts m := by
  unfold request; split <;> simp_all

@[simp] theorem request_ceiling (g : Grant) (m : Mask) : (g.request m).2.ceiling = g.ceiling := by
  unfold request; split <;> rfl

@[simp] theorem request_plugin (g : Grant) (m : Mask) : (g.request m).2.plugin = g.plugin := by
  unfold request; split <;> rfl

theorem request_denied {g : Grant} {m : Mask} (h : g.accepts m = false) :
    g.request m = (false, g) := by
  simp [request, h]

theorem request_accepted {g : Grant} {m : Mask} (h : g.accepts m = true) :
    g.request m = (true, { g with granted := g.granted ||| m }) := by
  simp [request, h]

end Grant

end PluginHost
