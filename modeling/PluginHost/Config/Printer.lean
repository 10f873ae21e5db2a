import PluginHost.Config.Basic
import PluginHost.Json.Printer
import PluginHost.Toml.Writer

/-!
# Writing configurations

A configuration is written in full, default values included, as TOML or as JSON.
In TOML a setting that is absent is left out; in JSON it is null.

* `Config.toml` is the TOML text.
* `Config.toValue` is the JSON document.
-/

namespace PluginHost

namespace Config

open Json (Value)

def optional (key : String) (s : Option String) : List (String × Toml.Entry) :=
  (s.map fun s => (key, Toml.Entry.string s)).toList

def pluginSection (s : PluginSettings) : Toml.Section :=
  ⟨["plugins"], [("dir", .string s.dir), ("extension", .string s.extension),
      ("require_signatures", .boolean s.requireSignatures)]
    ++ optional "trusted_key" s.trustedKey ++ [("policy", .string s.policy.name)]⟩

def grantSection (grants : List (String × List String)) : Toml.Section :=
  ⟨["plugins", "grants"], grants.map fun g => (g.1, .strings g.2)⟩

def verifierSection (s : VerifierSettings) : Toml.Section :=
  ⟨["plugins", "verifier"], [("kind", .string s.kind.name)]
    ++ optional "command" s.command ++ [("args", .strings s.args)]⟩

def runtimeSection (s : RuntimeSettings) : Toml.Section :=
  ⟨["runtime"], [("headless", .boolean s.headless)] ++ optional "config_dir" s.configDir
    ++ [("event_capacity", .count s.eventCapacity)]⟩

def loggingSection (s : LoggingSettings) : Toml.Section :=
  ⟨["logging"], [("level", .string s.level), ("format", .string s.format)]⟩

/-- The tables of a configuration, in order. -/
def sections (c : Config) : List Toml.Section :=
  [pluginSection c.plugins, grantSection c.plugins.grants, verifierSection c.plugins.verifier,
    runtimeSection c.runtime, loggingSection c.logging]

def toml (c : Config) : String :=
  String.ofList (Toml.sectionsText c.sections)

def verifierValue (s : VerifierSettings) : Value :=
  .object [("kind", .string s.kind.name), ("command", .string? s.command),
    ("args", .strings s.args)]

/-- The settings of plugins as a document. -/
def pluginValue (s : PluginSettings) : Value :=
  .object [("dir", .string s.dir), ("extension", .string s.extension),
    ("require_signatures", .bool s.requireSignatures), ("trusted_key", .string? s.trustedKey),
    ("policy", .string s.policy.name),
    ("grants", .object (s.grants.map fun g => (g.1, .strings g.2))),
    ("verifier", verifierValue s.verifier)]

def runtimeValue (s : RuntimeSettings) : Value :=
  .object [("headless", .bool s.headless), ("config_dir", .string? s.configDir),
    ("event_capacity", .number (.whole s.eventCapacity))]

def loggingValue (s : LoggingSettings) : Value :=
  .object [("level", .string s.level), ("format", .string s.format)]

def toValue (c : Config) : Value :=
  .object [("plugins", pluginValue c.plugins), ("runtime", runtimeValue c.runtime),
    ("logging", loggingValue c.logging)]

end Config

end PluginHost
