import PluginHost.Files.Fault
import PluginHost.Json.Error

/-!
# Errors of the host

Each error names its cause. Errors are of six kinds: a candidate is skipped on a
load error, a plugin is left out on an init error, and a verification error
keeps a module from being opened at all.
-/

namespace PluginHost

/-- A cause of failure. -/
inductive Error
  | moduleOpen (path reason : String)
  | missingEntry (path symbol : String)
  | nullTable (path : String)
  | invalidMetadata (path reason : String)
  | duplicateId (id : String)
  | manifestMismatch (path reason : String)
  | initRefused (id : String)
  | verification (path reason : String)
  | pluginNotFound (id : String)
  | invalidState (id expected found : String)
  | alreadyRunning
  | notRunning
  | config (reason : String)
  | configValidation (field reason : String)
  | io (fault : Files.Fault)
  | malformed (error : Json.Error)
  | other (text : String)
  deriving DecidableEq, Repr, Inhabited

/-- What an error means for the host. -/
inductive ErrorKind
  | load
  | init
  | verification
  | lifecycle
  | config
  | internal
  deriving DecidableEq, Repr, Inhabited

namespace Error

/-- The text of an error. -/
def message : Error → String
  | .moduleOpen path reason => s!"failed to open module {path}: {reason}"
  | .missingEntry path symbol => s!"module {path} does not export " ++ "`" ++ symbol ++ "`"
  | .nullTable path => s!"entry point of {path} returned a null plugin table"
  | .invalidMetadata path reason => s!"module {path} returned invalid metadata: {reason}"
  | .duplicateId id => s!"plugin id already loaded: {id}"
  | .manifestMismatch path reason => s!"manifest does not match module {path}: {reason}"
  | .initRefused id => s!"plugin refused to initialize: {id}"
  | .verification path reason => s!"manifest verification failed for {path}: {reason}"
  | .pluginNotFound id => s!"plugin not found: {id}"
  | .invalidState id expected found => s!"plugin {id} is {found}, expected {expected}"
  | .alreadyRunning => "core is already initialized"
  | .notRunning => "core is not initialized"
  | .config reason => s!"config error: {reason}"
  | .configValidation field reason => s!"config validation failed: {field}: {reason}"
  | .io fault => "io error: " ++ fault.message
  | .malformed error => "serialization error: " ++ error.message
  | .other text => text

/-- The kind of an error. -/
def kind : Error → ErrorKind
  | .moduleOpen _ _ => .load
  | .missingEntry _ _ => .load
  | .nullTable _ => .load
  | .invalidMetadata _ _ => .load
  | .duplicateId _ => .load
  | .manifestMismatch _ _ => .load
  | .initRefused _ => .init
  | .verification _ _ => .verification
  | .pluginNotFound _ => .lifecycle
  | .invalidState _ _ _ => .lifecycle
  | .alreadyRunning => .lifecycle
  | .notRunning => .lifecycle
  | .config _ => .config
  | .configValidation _ _ => .config
  | .io _ => .internal
  | .malformed _ => .internal
  | .other _ => .internal

def isLoad (e : Error) : Bool :=
  e.kind == .load

def cause? : Error → Option String
  | .io fault => some fault.message
  | .malformed error => some error.message
  | _ => none

/-- The text of an error, followed by what lies behind it. -/
def fullMessage (e : Error) : String :=
  match e.cause? with
  | some cause => e.message ++ ": " ++ cause
  | none => e.message

theorem isLoad_iff {e : Error} : e.isLoad = true ↔ e.kind = .load := by
  simp [isLoad]

end Error

end PluginHost
