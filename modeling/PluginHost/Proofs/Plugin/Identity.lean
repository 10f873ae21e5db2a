import PluginHost.Plugin.Table
import PluginHost.Proofs.Result
import PluginHost.Proofs.Text.Bytes

/-!
# Who a plugin is

A plugin is asked for its id, its name and its version, up to the first that it has no text for,
and for its capabilities if the others will do. What it answers depends on nothing but the state
outside the host, and of the questions nothing is left but the journal of them.

Results:
1. `Interface.metadata_eq`: what it comes to that a plugin is asked.
2. `Interface.told_eq_ok_iff`: when a plugin has said who it is.
-/

namespace PluginHost

variable {σ : Type}

/-! ## Definitions -/

/-- The world after a module was asked some questions about itself. -/
def World.inquired (w : World σ) (h : Handle) (questions : List Identity) : World σ :=
  { w with journal := w.journal ++ questions.map (.asked h) }

namespace Interface

/-- Who a plugin says it is. -/
def told (i : Interface σ) (outside : σ) : Except TableFault Metadata := do
  let id ← textOf "id" (i.id outside)
  let name ← textOf "name" (i.name outside)
  let version ← textOf "version" (i.version outside)
  if !PluginId.isValid id then .error (.badId id)
  else if Blank.allBlank version then .error .blankVersion
  else .ok ⟨id, name, version, i.capabilities outside⟩

/-- What a plugin is asked until it has said who it is, or failed to. -/
def questions (i : Interface σ) (outside : σ) : List Identity :=
  match textOf "id" (i.id outside), textOf "name" (i.name outside),
    textOf "version" (i.version outside) with
  | .error _, _, _ => [.id]
  | _, .error _, _ => [.id, .name]
  | _, _, .error _ => [.id, .name, .version]
  | .ok id, _, .ok version =>
    if !PluginId.isValid id || Blank.allBlank version then [.id, .name, .version]
    else [.id, .name, .version, .capabilities]

end Interface

/-! ## Questions -/

namespace World

theorem inquired_nil (w : World σ) (h : Handle) : w.inquired h [] = w := by
  simp [inquired]

theorem inquired_cons (w : World σ) (h : Handle) (what : Identity) (rest : List Identity) :
    w.inquired h (what :: rest) = (w.note (.asked h what)).inquired h rest := by
  simp [inquired, note]

end World

namespace Interface

variable (i : Interface σ) (h : Handle) (w : World σ)

/-- What it comes to that a plugin is asked who it is. -/
theorem metadata_eq :
    i.metadata h w = (i.told w.outside, w.inquired h (i.questions w.outside)) := by
  unfold metadata ask told questions
  cases textOf "id" (i.id w.outside) with
  | error f => simp only [World.inquired_cons, World.inquired_nil]; rfl
  | ok id =>
    cases name : textOf "name" (i.name w.outside) with
    | error f => simp only [World.inquired_cons, World.inquired_nil, World.note, name]; rfl
    | ok n =>
      cases version : textOf "version" (i.version w.outside) with
      | error f =>
        simp only [World.inquired_cons, World.inquired_nil, World.note, name, version]; rfl
      | ok v =>
        simp only [World.note, name, version]
        cases valid : PluginId.isValid id <;> cases shown : Blank.allBlank v <;>
          simp [bind, Except.bind, valid, shown, World.inquired_cons, World.inquired_nil,
            World.note]

/-! ## Answers -/

theorem textOf_eq_ok_iff (field : String) {t : Terminated} {s : String} :
    textOf field t = .ok s ↔ t = some (Utf8.bytesOf s) := by
  cases t with
  | none => simp [textOf]
  | some bytes =>
    rw [Option.some.injEq, ← Utf8.text?_eq_some_iff_bytesOf, Utf8.text?, textOf]
    cases Utf8.text bytes <;> simp [Except.toOption]

/-- A plugin says who it is if its texts are UTF-8, its id is a plugin id and its version not
blank, and it is taken for just this. -/
theorem told_eq_ok_iff {i : Interface σ} {outside : σ} {who : Metadata} :
    i.told outside = .ok who ↔
      (i.id outside = some (Utf8.bytesOf who.id) ∧ i.name outside = some (Utf8.bytesOf who.name) ∧
        i.version outside = some (Utf8.bytesOf who.version)) ∧
      PluginId.isValid who.id = true ∧ Blank.allBlank who.version = false ∧
      who.requested = i.capabilities outside := by
  rw [told, ← textOf_eq_ok_iff "id", ← textOf_eq_ok_iff "name", ← textOf_eq_ok_iff "version"]
  simp only [bind_eq_ok_iff]
  constructor
  · rintro ⟨id, hid, name, hname, version, hversion, ok⟩
    split at ok
    · cases ok
    · next valid =>
      split at ok
      · cases ok
      · next shown =>
        cases ok
        exact ⟨⟨hid, hname, hversion⟩, by simpa using valid, by simpa using shown, rfl⟩
  · rintro ⟨⟨hid, hname, hversion⟩, valid, shown, requested⟩
    refine ⟨who.id, hid, who.name, hname, who.version, hversion, ?_⟩
    simp [valid, shown, ← requested]

/-- A plugin that has no text for its id, its name or its version does not say who it is. -/
theorem told_of_noText {i : Interface σ} {outside : σ}
    (missing : (i.id outside).NoText ∨ (i.name outside).NoText ∨ (i.version outside).NoText) :
    ∃ fault, i.told outside = .error fault := by
  cases said : i.told outside with
  | error fault => exact ⟨fault, rfl⟩
  | ok who =>
    obtain ⟨⟨id, name, version⟩, -⟩ := told_eq_ok_iff.mp said
    rcases missing with none | none | none
    · exact absurd id (none _)
    · exact absurd name (none _)
    · exact absurd version (none _)

end Interface

end PluginHost
