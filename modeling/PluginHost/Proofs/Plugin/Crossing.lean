import PluginHost.Plugin.Basic
import PluginHost.Proofs.Plugin.Identity
import PluginHost.Proofs.PluginId
import PluginHost.Proofs.Session.Dispatch

/-!
# Texts between plugins and the host

A text goes over a plugin table as bytes that end with a NUL, and is made a text again on the
other side. It goes four ways: an event and a line of the log from a plugin to the host, an event
from the host to a plugin, and what a plugin says about itself. On each of them it arrives as it
was, or not at all: what cannot cross is left out before it is sent.

Results:
1. `Hook.run_emit` and `Hook.run_log`: what an author's plugin says to the host.
2. `Plugin.runEvent_interface` and `Manager.dispatch_split`: what such a plugin hears.
3. `Plugin.metadata_interface_iff`: who such a plugin is taken for.
4. `texts_cross_whole`: all of it, and what comes of the bytes of other tables.
-/

namespace PluginHost

open Terminated (hasNul)

/-! ## Definitions -/

namespace Plugin

variable {σ : Type}

/-- The interface of a plugin: its table has no empty slot. -/
def interface (p : Plugin σ) : Interface σ where
  id _ := crossing p.id
  name _ := crossing p.name
  version _ := crossing p.version
  capabilities _ := p.capabilities
  start bound := if bound then p.start.map (·.getD false) else .done false
  stop := p.stop.map fun _ => ()
  event type payload := (p.event (arriving type) (arriving payload)).map fun _ => ()

/-- What happens when a plugin hears an event, the texts as they are: it is not called if one of
them has a NUL. -/
def hear (p : Plugin σ) (host : Host) (h : Handle) (type payload : String) (caller : Caller)
    (w : World σ) : Caller × World σ :=
  if hasNul type ∨ hasNul payload then (caller, w)
  else ((p.event type payload).run host h caller (w.note (.event h type payload))).2

end Plugin

/-! ## Texts -/

namespace Plugin

/-- What a plugin says about itself is left out if it cannot cross. -/
theorem crossing_eq (s : String) :
    crossing s = some (Utf8.bytesOf (if hasNul s then "" else s)) := by
  by_cases nul : hasNul s = true
  · rw [crossing, Terminated.ofText?_eq_none_iff.mpr nul, if_pos nul]
    rfl
  · rw [crossing, Terminated.ofText?_of_text (Bool.eq_false_iff.mpr nul), if_neg nul]
    rfl

theorem arriving_bytesOf (s : String) : arriving (some (Utf8.bytesOf s)) = s := by
  rw [arriving, Terminated.lossy_bytesOf]
  rfl

end Plugin

/-! ## What a plugin says -/

namespace Hook

variable {σ α β : Type} (host : Host) (h : Handle)

theorem send_eq (call : Terminated → Terminated → Call) (first second : String)
    (next : Hook σ α) : send call first second next =
      if hasNul first ∨ hasNul second then next
      else .ask (call (some (Utf8.bytesOf first)) (some (Utf8.bytesOf second))) fun _ => next := by
  unfold send Terminated.ofText?
  cases hasNul first <;> cases hasNul second <;> rfl

/-- An event is published with its texts as they are, unless one of them has a NUL. -/
theorem run_emit (type payload : String) (next : Hook σ α) (g : Grant) (w : World σ) :
    (emit type payload next).run host h (some g) w = next.run host h (some g)
      (if hasNul type ∨ hasNul payload then w
        else w.publish (.plugin g.plugin type payload w.now)) := by
  rw [emit, send_eq]
  split
  · rfl
  · simp only [run, Host.answer, noteAnswer, isQuestion, Option.elim, World.emit,
      Terminated.lossy_bytesOf, Option.getD_some]
    rfl

/-- A line is logged with its texts as they are, unless one of them has a NUL. -/
theorem run_log (level message : String) (next : Hook σ α) (g : Grant) (w : World σ) :
    (log level message next).run host h (some g) w = next.run host h (some g)
      (if hasNul level ∨ hasNul message then w
        else { w with logs := w.logs ++ [⟨Severity.ofLevel level, g.plugin, level, message⟩] }) := by
  rw [log, send_eq]
  split
  · rfl
  · simp only [run, Host.answer, noteAnswer, isQuestion, Option.elim, World.log,
      Terminated.lossy_bytesOf, Option.getD_some]
    rfl

/-- Only the result of a hook is changed. -/
theorem run_map (f : α → β) (t : Hook σ α) (caller : Caller) (w : World σ) :
    (t.map f).run host h caller w =
      (f (t.run host h caller w).1, (t.run host h caller w).2) := by
  induction t generalizing caller w with
  | done a => rfl
  | ask call next ih =>
    cases caller with
    | none => exact ih false none w
    | some g => exact ih _ _ _
  | read next ih => exact ih w.outside caller w
  | write s next ih => exact ih caller { w with outside := s }

end Hook

/-! ## What a plugin hears -/

section hearing

variable {σ : Type}

theorem Plugin.toInterface_toTable (p : Plugin σ) : p.toTable.toInterface = .ok p.interface := rfl

/-- A plugin that is handed an event hears its texts as they are. -/
theorem Plugin.runEvent_interface (p : Plugin σ) (host : Host) (h : Handle)
    (type payload : String) (caller : Caller) (w : World σ) :
    p.interface.runEvent host h type payload caller w = p.hear host h type payload caller w := by
  unfold hear
  by_cases nul : hasNul type ∨ hasNul payload
  · rw [if_pos nul, p.interface.runEvent_of_nul host h w nul]
  · rw [if_neg nul, p.interface.runEvent_of_text host h w nul]
    simp only [interface, Hook.run_map, arriving_bytesOf]

namespace Manager

variable {host : Host} {source : Option String} {type payload : String}

/-- Some plugins get an event before others. -/
theorem dispatchTo_append (ps qs : List (Managed σ)) (w : World σ) :
    let first := dispatchTo host source type payload ps w
    let rest := dispatchTo host source type payload qs first.2.2
    dispatchTo host source type payload (ps ++ qs) w =
      (first.1 + rest.1, first.2.1 ++ rest.2.1, rest.2.2) := by
  induction ps generalizing w with
  | nil => simp [dispatchTo]
  | cons p ps ih =>
    by_cases receives : receives source p = true
    · simp only [List.cons_append, dispatchTo_of_receives receives, ih, Nat.add_right_comm]
    · simp only [List.cons_append, dispatchTo_of_not_receives receives, ih]

/-- One of the plugins that an event is handed to, with those before it and those behind it. -/
theorem dispatch_split {m : Manager σ} {before after : List (Managed σ)} {q : Managed σ}
    (here : m.plugins = before ++ q :: after) (receives : receives source q = true) (w : World σ) :
    let first := dispatchTo m.host source type payload before w
    let heard := q.interface.runEvent m.host q.handle type payload (some q.grant) first.2.2
    let rest := dispatchTo m.host source type payload after heard.2
    m.dispatch source type payload w = (first.1 + (rest.1 + 1),
      { m with plugins := first.2.1 ++
          { q with grant := grantAfter q.grant heard.1 } :: rest.2.1 }, rest.2.2) := by
  simp only [dispatch, here, dispatchTo_append, dispatchTo_of_receives receives]

end Manager

end hearing

/-! ## Who a plugin is -/

/-- There is no NUL in an id. -/
theorem PluginId.hasNul_of_isValid {s : String} (valid : isValid s = true) : hasNul s = false := by
  rw [hasNul, List.any_eq_false]
  intro c hc
  rw [decide_eq_true_eq]
  rintro rfl
  rcases mem_of_isValid valid _ hc with inner | dot
  · exact absurd inner (by decide)
  · exact absurd dot (by decide)

namespace Plugin

variable {σ : Type} (p : Plugin σ) (h : Handle) (w : World σ)

theorem crossing_eq_iff {s t : String} :
    crossing s = some (Utf8.bytesOf t) ↔ (if hasNul s then "" else s) = t := by
  rw [crossing_eq, Option.some.injEq]
  exact ⟨Utf8.bytesOf_injective, congrArg Utf8.bytesOf⟩

/-- A plugin is taken for what it is, with an empty name if its own cannot cross. It is not taken
for anything if its id is not one, or if there is nothing in its version or a NUL. -/
theorem metadata_interface_iff {who : Metadata} : (p.interface.metadata h w).1 = .ok who ↔
    (PluginId.isValid p.id = true ∧ hasNul p.version = false ∧
      Blank.allBlank p.version = false) ∧
    who = ⟨p.id, if hasNul p.name then "" else p.name, p.version, p.capabilities⟩ := by
  rw [Interface.metadata_eq, Interface.told_eq_ok_iff]
  simp only [interface, crossing_eq_iff]
  constructor
  · rintro ⟨⟨id, name, version⟩, valid, shown, requested⟩
    -- The empty text is given for an id or a version that cannot cross, and is neither.
    have whole : hasNul p.id = false := by
      by_contra nul
      rw [if_pos (Bool.eq_true_of_not_eq_false nul)] at id
      rw [← id] at valid
      exact absurd valid (by decide)
    have written : hasNul p.version = false := by
      by_contra nul
      rw [if_pos (Bool.eq_true_of_not_eq_false nul)] at version
      rw [← version] at shown
      exact absurd shown (by decide)
    rw [whole] at id
    rw [written] at version
    obtain ⟨whoId, whoName, whoVersion, whoRequested⟩ := who
    obtain rfl : p.id = whoId := id
    obtain rfl : p.version = whoVersion := version
    obtain rfl : whoRequested = p.capabilities := requested
    exact ⟨⟨valid, written, shown⟩, by rw [name]⟩
  · rintro ⟨⟨valid, written, shown⟩, rfl⟩
    simp [valid, written, shown, PluginId.hasNul_of_isValid valid]

end Plugin

/-! ## Bytes on the bus -/

/-- What bytes come to on the bus, whoever sends them. -/
theorem Hook.run_emit_bytes {σ α : Type} (host : Host) (h : Handle) (type : List UInt8)
    (payload : Terminated) (next : Bool → Hook σ α) (g : Grant) (w : World σ) :
    (Hook.ask (.emit (some type) payload) next).run host h (some g) w =
      (next true).run host h (some g) (w.publish (.plugin g.plugin (Utf8.lossy type)
        ((Terminated.lossy payload).getD "") w.now)) := rfl

/-! ## The whole of it -/

/-- **Texts cross whole or not at all.** For a plugin as its author writes it, which stands behind
a table without an empty slot, and for all texts:
* what it emits is published as one event with just its texts, and a line that it logs is kept with
  just its texts; if there is a NUL in one of them, the plugin goes on as if it had said nothing;
* a dispatch of which it is one of the receivers comes, between those before and those behind it,
  to its hook with just the texts of the event, and with a NUL in one of them to no call of it;
* it is taken for what it is, with its name empty if there is a NUL in it, or refused.

And for tables of whichever make:
* of bytes that are emitted, those up to the NUL are published as their text where they have one;
* who has no text for its id, its name or its version, as the pointer is null or the bytes are not
  UTF-8, is refused.

In between, the bytes of a text that crosses are in memory with a NUL behind them, and all of them
are read back. -/
theorem texts_cross_whole {σ α : Type} (p : Plugin σ) (host : Host) (h : Handle) :
    p.toTable.toInterface = .ok p.interface ∧
    (∀ (type payload : String) (next : Hook σ α) (g : Grant) (w : World σ),
      (Hook.emit type payload next).run host h (some g) w = next.run host h (some g)
        (if hasNul type ∨ hasNul payload then w
          else w.publish (.plugin g.plugin type payload w.now))) ∧
    (∀ (level message : String) (next : Hook σ α) (g : Grant) (w : World σ),
      (Hook.log level message next).run host h (some g) w = next.run host h (some g)
        (if hasNul level ∨ hasNul message then w else
          { w with logs := w.logs ++ [⟨Severity.ofLevel level, g.plugin, level, message⟩] })) ∧
    (∀ (m : Manager σ) (before after : List (Managed σ)) (q : Managed σ),
      m.plugins = before ++ q :: after → q.interface = p.interface → q.state = .initialized →
      ∀ (source : Option String), source ≠ some q.id → ∀ (type payload : String) (w : World σ),
      let first := Manager.dispatchTo m.host source type payload before w
      let heard := p.hear m.host q.handle type payload (some q.grant) first.2.2
      let rest := Manager.dispatchTo m.host source type payload after heard.2
      m.dispatch source type payload w = (first.1 + (rest.1 + 1),
        { m with plugins := first.2.1 ++
            { q with grant := Manager.grantAfter q.grant heard.1 } :: rest.2.1 }, rest.2.2)) ∧
    (∀ (w : World σ) (who : Metadata), (p.interface.metadata h w).1 = .ok who ↔
      (PluginId.isValid p.id = true ∧ hasNul p.version = false ∧
        Blank.allBlank p.version = false) ∧
      who = ⟨p.id, if hasNul p.name then "" else p.name, p.version, p.capabilities⟩) ∧
    (∀ (type : List UInt8) (payload : Option (List UInt8)) (next : Bool → Hook σ α) (g : Grant)
      (w : World σ), ∃ t d,
      (Hook.ask (.emit (some (Terminated.upToNul type)) (payload.map Terminated.upToNul)) next).run
        host h (some g) w =
          (next true).run host h (some g) (w.publish (.plugin g.plugin t d w.now)) ∧
      (∀ s, Utf8.text? (Terminated.upToNul type) = some s → t = s) ∧
      (∀ bytes s, payload = some bytes → Utf8.text? (Terminated.upToNul bytes) = some s → d = s)) ∧
    (∀ (i : Interface σ) (w : World σ),
      (i.id w.outside).NoText ∨ (i.name w.outside).NoText ∨ (i.version w.outside).NoText →
      ∃ fault, (i.metadata h w).1 = .error fault) ∧
    (∀ (s : String) (bytes : List UInt8), Terminated.ofText? s = some bytes →
      ∀ behind, Terminated.upToNul (bytes ++ 0 :: behind) = bytes) := by
  refine ⟨p.toInterface_toTable, Hook.run_emit host h, Hook.run_log host h, ?_,
    fun w who => p.metadata_interface_iff h w, ?_, fun i w missing => ?_, ?_⟩
  · intro m before after q here own started source other type payload w
    have receives : Manager.receives source q = true := Manager.receives_iff.mpr ⟨started, other⟩
    simp only [Manager.dispatch_split here receives, own, Plugin.runEvent_interface]
  · intro type payload next g w
    refine ⟨_, _, Hook.run_emit_bytes host h _ _ next g w, fun s text => ?_,
      fun bytes s sent text => ?_⟩
    · rw [Utf8.lossy_of_text text]
    · rw [sent, Option.map_some, Terminated.lossy, Option.map_some, Utf8.lossy_of_text text]
      rfl
  · rw [Interface.metadata_eq]
    exact Interface.told_of_noText missing
  · intro s bytes crosses behind
    have text : hasNul s = false := by
      by_contra nul
      rw [Terminated.ofText?_eq_none_iff.mpr (Bool.eq_true_of_not_eq_false nul)] at crosses
      cases crosses
    rw [Terminated.ofText?_of_text text, Option.some.injEq] at crosses
    rw [← crosses, Terminated.upToNul_bytesOf text]

namespace Cut

/-- A plugin with a NUL in its name, which keeps what it hears. -/
def plugin : Plugin (List (String × String)) where
  id := "org.cut"
  name := "one\x00two"
  version := "1.0"
  start := .done (some true)
  event type payload := .read fun heard => .write (heard ++ [(type, payload)]) (.done (some ()))

def handle : Handle := ⟨0, "cut.so"⟩

/-- A manager that has started the plugin. -/
def manager : Manager (List (String × String)) where
  loader _ _ _ := .ok (.table plugin.toTable)
  plugins := [{
    id := "org.cut", name := "", version := "1.0", path := "cut.so", requested := 0#64
    verified := false, state := .initialized, grant := .new "org.cut" 0#64 0#64
    interface := plugin.interface, handle }]

/-- A world in which nothing has been heard. -/
def world : World (List (String × String)) where
  files := ⟨.dir [], []⟩
  bus := { slots := 4 }
  now := ⟨⟨2024, 1, 1⟩, 0, 0⟩
  outside := []

end Cut

/-- An event with an umlaut in it is heard as it is, and one with a NUL not at all. The plugin is
taken for what it is, but for its name. A plugin with half a character for a name is refused. -/
theorem cut_name_is_empty :
    (Cut.manager.dispatch none "größe" "5" Cut.world).2.2.outside = [("größe", "5")] ∧
    (Cut.manager.dispatch none "größe" "5\x00" Cut.world).2.2.outside = [] ∧
    (Cut.plugin.interface.metadata Cut.handle Cut.world).1 = .ok ⟨"org.cut", "", "1.0", 0#64⟩ ∧
    (∃ fault, ({ Cut.plugin.interface with name := fun _ => some [0xC3] }.metadata
      Cut.handle Cut.world).1 = .error fault) ∧
    Terminated.upToNul ([0x67, 0x72, 0xC3, 0xB6] ++ 0 :: [0x67]) = [0x67, 0x72, 0xC3, 0xB6] := by
  obtain ⟨-, -, -, dispatch, identity, -, raw, memory⟩ :=
    texts_cross_whole (α := Unit) Cut.plugin {} Cut.handle
  have heard := dispatch Cut.manager [] [] _ rfl rfl rfl none nofun "größe"
  refine ⟨?_, ?_, ?_, raw _ _ (.inr (.inl fun s half => ?_)), memory "grö" _ (by decide +kernel) _⟩
  · rw [heard "5"]
    decide +kernel
  · rw [heard "5\x00"]
    decide +kernel
  · exact (identity _ _).mpr (by decide +kernel)
  · have text := Utf8.text?_eq_some_iff_bytesOf.mpr (Option.some.inj half)
    exact absurd text (by simp [show Utf8.text? [0xC3] = none by decide +kernel])

end PluginHost
