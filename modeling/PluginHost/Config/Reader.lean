import PluginHost.Config.Basic
import PluginHost.Text.Quoted
import PluginHost.Toml.Reader

/-!
# Reading configurations

A configuration is a TOML document with the tables `plugins`, `runtime` and
`logging`. What is not given has the value of the default configuration, and what
is not known is passed over. A table of settings may also be given as an array of
their values in order.

Members are looked at in the order of their keys, and the first that does not fit
is what the fault is about.

* `Config.ofText` reads a configuration.
-/

namespace PluginHost

namespace Config

open Toml (Value)

/-- Why a document is no configuration. -/
inductive Fault
  | notToml
  | wrongType (found : Value) (wanted : String)
  | negative (n : Int)
  | noVariant
  | unknownVariant (name : String) (variants : List String)
  | variantCount (found : Nat)
  | variantNotEmpty (found : Value)
  deriving Repr, Inhabited

/-- An integer in diagnostics; one that does not fit 64 bits is marked. -/
def integerText (n : Int) : String :=
  "integer `" ++ toString n ++ "`"
    ++ (if n < -(Nat.pow 2 63 : Nat) then " as i128"
      else if n < (Nat.pow 2 64 : Nat) then ""
      else if n < (Nat.pow 2 127 : Nat) then " as i128"
      else " as u128")

/-- What was found, in diagnostics. -/
def foundText : Value → String
  | .boolean b => "boolean `" ++ (if b then "true" else "false") ++ "`"
  | .integer n => integerText n
  | .float bits => "floating point `" ++ Toml.floatText bits ++ "`"
  | .string s => "string " ++ Quoted.quote s
  | .array _ => "sequence"
  | .table _ => "map"
  | .time _ => "map"

def notEmptyText : Value → String
  | .array _ => "expected empty array"
  | .table _ => "expected empty table"
  | other => "expected table, found " ++ other.kind

/-- The reason, where there is one to give. -/
def Fault.reason? : Fault → Option String
  | .notToml => none
  | .wrongType found wanted => some ("invalid type: " ++ foundText found ++ ", expected " ++ wanted)
  | .negative n => some ("invalid value: " ++ integerText n ++ ", expected usize")
  | .noVariant => some "wanted string or table"
  | .unknownVariant name variants =>
    some ("unknown variant `" ++ name ++ "`, expected "
      ++ " or ".intercalate (variants.map fun v => "`" ++ v ++ "`"))
  | .variantCount found =>
    some ("wanted exactly 1 element, "
      ++ (if found = 0 then "found 0 elements" else "more than 1 element"))
  | .variantNotEmpty found => some (notEmptyText found)

def lastLine (s : String) : String :=
  String.ofList ((splitOn '\n' s.toList).getLast?.getD [])

/-- The text of a fault. Of a reason that runs over several lines the last is given. -/
def Fault.message (f : Fault) : String :=
  match f.reason? with
  | none => "TOML parse error"
  | some reason => "TOML parse error: " ++ lastLine reason

def boolean : Value → Except Fault Bool
  | .boolean b => .ok b
  | v => .error (.wrongType v "a boolean")

def text : Value → Except Fault String
  | .string s => .ok s
  | v => .error (.wrongType v "a string")

def path : Value → Except Fault String
  | .string s => .ok s
  | v => .error (.wrongType v "path string")

/-- A number of things. -/
def count : Value → Except Fault Nat
  | .integer n =>
    if 0 ≤ n ∧ n < (Nat.pow 2 64 : Nat) then .ok n.toNat
    else if n < 0 ∧ -(Nat.pow 2 63 : Nat) ≤ n then .error (.negative n)
    else .error (.wrongType (.integer n) "usize")
  | v => .error (.wrongType v "usize")

def texts : Value → Except Fault (List String)
  | .array items => items.mapM text
  | v => .error (.wrongType v "a sequence")

/-- A list of texts for each key. -/
def textsByKey : Value → Except Fault (List (String × List String))
  | .table members => members.mapM fun m => do .ok (m.1, ← texts m.2)
  | .time s => do
    let ss ← texts (.string s)
    .ok [(s, ss)]
  | v => .error (.wrongType v "a map")

def variant {α : Type} (variants : List (String × α)) (name : String) : Except Fault α :=
  match variants.find? fun v => v.1 == name with
  | some v => .ok v.2
  | none => .error (.unknownVariant name (variants.map (·.1)))

def noContent : Value → Except Fault Unit
  | .array [] => .ok ()
  | .table [] => .ok ()
  | v => .error (.variantNotEmpty v)

/-- One of several variants: its name, or a table with its name for its only key. -/
def choice {α : Type} (variants : List (String × α)) : Value → Except Fault α
  | .string name => variant variants name
  | .table [(name, content)] => do
    let a ← variant variants name
    noContent content
    .ok a
  | .table members => .error (.variantCount members.length)
  | _ => .error .noVariant

/-- A setting: its key, and what a value does to the settings it belongs to. -/
structure Setting (α : Type) where
  key : String
  set : α → Value → Except Fault α

/-- Settings from a table, or from an array of their values in order. `name` is
what the settings are called in diagnostics. -/
def settings {α : Type} (name : String) (known : List (Setting α)) (a : α) : Value → Except Fault α
  | .table members => members.foldlM (fun a m =>
      match known.find? fun s => s.key == m.1 with
      | some s => s.set a m.2
      | none => .ok a) a
  | .array items => (known.zip items).foldlM (fun a s => s.1.set a s.2) a
  | .time _ => .ok a
  | v => .error (.wrongType v ("struct " ++ name))

def verifierKinds : List (String × VerifierKind) :=
  [VerifierKind.builtin, .command].map fun k => (k.name, k)

def policyModes : List (String × PolicyMode) :=
  [PolicyMode.leastPrivilege, .permissive].map fun m => (m.name, m)

def verifierSettings : List (Setting VerifierSettings) :=
  [⟨"kind", fun s v => do .ok { s with kind := ← choice verifierKinds v }⟩,
    ⟨"command", fun s v => do .ok { s with command := some (← path v) }⟩,
    ⟨"args", fun s v => do .ok { s with args := ← texts v }⟩]

/-- The settings of plugins. -/
def pluginSettings : List (Setting PluginSettings) :=
  [⟨"dir", fun s v => do .ok { s with dir := ← path v }⟩,
    ⟨"extension", fun s v => do .ok { s with extension := ← text v }⟩,
    ⟨"require_signatures", fun s v => do .ok { s with requireSignatures := ← boolean v }⟩,
    ⟨"trusted_key", fun s v => do .ok { s with trustedKey := some (← path v) }⟩,
    ⟨"policy", fun s v => do .ok { s with policy := ← choice policyModes v }⟩,
    ⟨"grants", fun s v => do .ok { s with grants := ← textsByKey v }⟩,
    ⟨"verifier", fun s v => do
      .ok { s with verifier := ← settings "VerifierConfig" verifierSettings {} v }⟩]

def runtimeSettings : List (Setting RuntimeSettings) :=
  [⟨"headless", fun s v => do .ok { s with headless := ← boolean v }⟩,
    ⟨"config_dir", fun s v => do .ok { s with configDir := some (← path v) }⟩,
    ⟨"event_capacity", fun s v => do .ok { s with eventCapacity := ← count v }⟩]

def loggingSettings : List (Setting LoggingSettings) :=
  [⟨"level", fun s v => do .ok { s with level := ← text v }⟩,
    ⟨"format", fun s v => do .ok { s with format := ← text v }⟩]

/-- The tables of a configuration. -/
def tables : List (Setting Config) :=
  [⟨"plugins", fun c v => do
      .ok { c with plugins := ← settings "PluginsConfig" pluginSettings {} v }⟩,
    ⟨"runtime", fun c v => do
      .ok { c with runtime := ← settings "RuntimeConfig" runtimeSettings {} v }⟩,
    ⟨"logging", fun c v => do
      .ok { c with logging := ← settings "LoggingConfig" loggingSettings {} v }⟩]

def ofText (s : String) : Except Fault Config :=
  match Toml.document? s with
  | none => .error .notToml
  | some members => settings "KeelConfig" tables {} (.table members)

end Config

end PluginHost
