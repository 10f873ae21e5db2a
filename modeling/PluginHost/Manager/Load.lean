import PluginHost.Files.Walk
import PluginHost.Manager.Basic

/-!
# Loading plugins

A module is loaded in stages: the trust gate, opening it, its entry symbol, its
table, who it is, whether its id is free and its manifest agrees, and last its
grant. Whatever stage fails, nothing is kept of the module, and if it was open it
is closed.

* `Manager.load` loads one module.
* `Manager.discover` loads every candidate of a directory.
-/

namespace PluginHost.Manager

variable {σ : Type}

/-- Asks an open module who it is. -/
def identify (path : String) (code : Code σ) (h : Handle) (w : World σ) :
    Except Error (Interface σ × Metadata) × World σ :=
  match code with
  | .noEntry => (.error (.missingEntry path entrySymbol), w)
  | .noTable => (.error (.nullTable path), w)
  | .table t =>
    match t.toInterface with
    | .error f => (.error (.invalidMetadata path f.message), w)
    | .ok i =>
      let (r, w) := i.metadata h w
      match r with
      | .error f => (.error (.invalidMetadata path f.message), w)
      | .ok who => (.ok (i, who), w)

/-- The reason that is given when a manifest and a module disagree. -/
def disagreement (declared : Manifest) (found : Metadata) : String :=
  "manifest declares " ++ declared.id ++ "@" ++ declared.version ++ ", module reports "
    ++ found.id ++ "@" ++ found.version

/-- A module may be taken in: its id is free, and its manifest, if it is
verified, names the same id and version. -/
def vet (m : Manager σ) (path : String) (trust : Trust) (who : Metadata) : Except Error Unit :=
  if (m.find? who.id).isSome then .error (.duplicateId who.id)
  else match trust.manifest? with
    | none => .ok ()
    | some declared =>
      if declared.id ≠ who.id ∨ declared.version ≠ who.version then
        .error (.manifestMismatch path (disagreement declared who))
      else .ok ()

def firstGrant (p : Policy) (trust : Trust) (who : Metadata) : Grant :=
  Grant.new who.id who.requested (p.ceiling who.id (trust.manifest?.map Manifest.flags))

/-- The record of a plugin that has been loaded. -/
def newcomer (p : Policy) (path : String) (trust : Trust) (i : Interface σ) (who : Metadata)
    (h : Handle) : Managed σ :=
  { id := who.id, name := who.name, version := who.version, path,
    requested := who.requested, verified := trust.isVerified, state := .loaded,
    grant := firstGrant p trust who, interface := i, handle := h }

/-- Takes in a module that has been opened, or closes it again. -/
def take (m : Manager σ) (path : String) (trust : Trust) (code : Code σ) (h : Handle)
    (w : World σ) : Except Error String × Manager σ × World σ :=
  match identify path code h w with
  | (.error e, w) => (.error e, m, w.closeHandle h)
  | (.ok (i, who), w) =>
    match m.vet path trust who with
    | .error e => (.error e, m, w.closeHandle h)
    | .ok () =>
      (.ok who.id, { m with plugins := m.plugins ++ [newcomer m.policy path trust i who h] },
        w.publish (.pluginLoaded who.id who.version))

/-- Loads a module: the id of the plugin, or why it was not loaded. -/
def load (m : Manager σ) (path : String) (w : World σ) :
    Except Error String × Manager σ × World σ :=
  match m.gate.check path w.files with
  | (.error e, files) => (.error e, m, { w with files })
  | (.ok trust, files) =>
    let w := { w with files }
    match m.loader path w.files w.outside with
    | .error reason => (.error (.moduleOpen path reason), m, w)
    | .ok code =>
      let (h, w) := w.openHandle path
      m.take path trust code h w

/-- A candidate that was not loaded. -/
structure LoadFailure where
  path : String
  error : Error
  deriving DecidableEq, Repr, Inhabited

/-- What became of the candidates of a directory. -/
structure Report where
  loaded : List String := []
  failures : List LoadFailure := []
  deriving DecidableEq, Repr, Inhabited

def Report.isClean (r : Report) : Bool :=
  r.failures.isEmpty

/-- Loads candidates one after the other. A failure is published and does not
keep the others from being tried. -/
def loadEach (m : Manager σ) (w : World σ) : List String → Report × Manager σ × World σ
  | [] => ({}, m, w)
  | path :: rest =>
    match m.load path w with
    | (.ok id, m, w) =>
      let (r, m, w) := m.loadEach w rest
      ({ r with loaded := id :: r.loaded }, m, w)
    | (.error e, m, w) =>
      let (r, m, w) := m.loadEach (w.publish (.pluginError path e.message)) rest
      ({ r with failures := ⟨path, e⟩ :: r.failures }, m, w)

/-- Loads every candidate of a directory. -/
def discover (m : Manager σ) (dir extension : String) (w : World σ) :
    Report × Manager σ × World σ :=
  if w.files.present dir then m.loadEach w (w.files.candidates dir extension)
  else ({}, m, w)

end PluginHost.Manager
