import PluginHost.Config.Loader
import PluginHost.Config.Printer
import PluginHost.Proofs.Result
import PluginHost.Proofs.Toml.Documents
import PluginHost.Proofs.Toml.Order

/-!
# Configurations that are read back

A configuration that was read, and overridden by variables or not, is written as a document
that is read as the same configuration.

* `Config.Regular` is what every configuration has that was read: its grants are in the order
  of the plugin ids, and its capacity is a number of 64 bits.

Results:
1. `Config.regular_of_ofText`: what is read is regular.
2. `Config.ofText_toml`: what is regular is read back.
3. `printed_config_reads_back`: what is read from a file and then overridden is read back.
-/

namespace PluginHost

namespace Config

open Toml (Value written)

/-! ## Definitions -/

/-- The grants are in the order of the plugin ids, and the capacity is a number of 64 bits. -/
structure Regular (c : Config) : Prop where
  grants : c.plugins.grants.Pairwise fun g h => g.1 < h.1
  capacity : c.runtime.eventCapacity < Nat.pow 2 64

/-! ## What is read is regular -/

/-- What every setting keeps is kept by settings, in whatever form they are given. -/
theorem settings_keep {α : Type} {P : α → Prop} {a a' : α} {name : String}
    {known : List (Setting α)} {v : Value}
    (each : ∀ s ∈ known, ∀ a a' v, v.Ordered → P a → s.set a v = .ok a' → P a')
    (ordered : v.Ordered) (start : P a) (done : settings name known a v = .ok a') : P a' := by
  cases ordered with
  | table _ values =>
    refine foldlM_keeps (fun m mem a a' kept one => ?_) start done
    split at one
    case h_1 s found =>
      exact each s (List.mem_of_find?_eq_some found) a a' m.2 (values m mem) kept one
    case h_2 => exact Except.ok.inj one ▸ kept
  | array values =>
    refine foldlM_keeps (fun m mem a a' kept one => ?_) start done
    obtain ⟨there, value⟩ := List.of_mem_zip mem
    exact each m.1 there a a' m.2 (values m.2 value) kept one
  | time => exact Except.ok.inj done ▸ start
  | boolean | integer | float | string => cases done

/-- A number of things has 64 bits. -/
theorem count_lt {v : Value} {n : Nat} (read : count v = .ok n) : n < Nat.pow 2 64 := by
  unfold count at read
  split at read
  case h_1 i =>
    split at read
    case isTrue small =>
      obtain rfl := Except.ok.inj read
      exact (Int.toNat_lt small.1).mpr small.2
    case isFalse => split at read <;> cases read
  case h_2 => cases read

/-- The keys of lists of texts are those of the table that they are read from. -/
theorem keys_of_texts {ms : List (String × Value)} {gs : List (String × List String)}
    (read : ms.mapM (fun m => do .ok (m.1, ← texts m.2)) = .ok gs) :
    gs.map (·.1) = ms.map (·.1) := by
  induction ms generalizing gs with
  | nil => exact Except.ok.inj read ▸ rfl
  | cons m ms ih =>
    rw [List.mapM_cons] at read
    obtain ⟨g, one, read⟩ := bind_eq_ok_iff.mp read
    obtain ⟨gs', others, read⟩ := bind_eq_ok_iff.mp read
    obtain ⟨ss, -, same⟩ := bind_eq_ok_iff.mp one
    rw [← Except.ok.inj read, ← Except.ok.inj same]
    exact congrArg (m.1 :: ·) (ih others)

theorem textsByKey_order {v : Value} {gs : List (String × List String)} (ordered : v.Ordered)
    (read : textsByKey v = .ok gs) : gs.Pairwise fun g h => g.1 < h.1 := by
  cases ordered with
  | table order =>
    have keys := List.pairwise_map.mpr order
    rw [← keys_of_texts read] at keys
    exact List.pairwise_map.mp keys
  | boolean | integer | float | string | time | array => cases read

/-- No setting of plugins puts the grants out of order. -/
theorem pluginSettings_keep : ∀ s ∈ pluginSettings, ∀ a a' v, Value.Ordered v →
    (a.grants.Pairwise fun g h => g.1 < h.1) → s.set a v = .ok a' →
      a'.grants.Pairwise fun g h => g.1 < h.1 := by
  intro s mem a a' v ordered kept done
  simp only [pluginSettings, List.mem_cons, List.not_mem_nil, or_false] at mem
  rcases mem with rfl | rfl | rfl | rfl | rfl | rfl | rfl
  all_goals
    obtain ⟨x, read, same⟩ := bind_eq_ok_iff.mp done
    obtain rfl := Except.ok.inj same
  case inr.inr.inr.inr.inr.inl => exact textsByKey_order ordered read
  all_goals exact kept

theorem runtimeSettings_keep : ∀ s ∈ runtimeSettings, ∀ a a' v, Value.Ordered v →
    a.eventCapacity < Nat.pow 2 64 → s.set a v = .ok a' → a'.eventCapacity < Nat.pow 2 64 := by
  intro s mem a a' v ordered kept done
  simp only [runtimeSettings, List.mem_cons, List.not_mem_nil, or_false] at mem
  rcases mem with rfl | rfl | rfl
  all_goals
    obtain ⟨x, read, same⟩ := bind_eq_ok_iff.mp done
    obtain rfl := Except.ok.inj same
  case inr.inr => exact count_lt read
  all_goals exact kept

theorem tables_keep : ∀ s ∈ tables, ∀ c c' v, Value.Ordered v → Regular c → s.set c v = .ok c' →
    Regular c' := by
  intro s mem c c' v ordered kept done
  simp only [tables, List.mem_cons, List.not_mem_nil, or_false] at mem
  rcases mem with rfl | rfl | rfl
  all_goals
    obtain ⟨x, read, same⟩ := bind_eq_ok_iff.mp done
    obtain rfl := Except.ok.inj same
  case inl =>
    have grants := settings_keep pluginSettings_keep ordered List.Pairwise.nil read
    exact ⟨grants, kept.capacity⟩
  case inr.inl =>
    have small : ({} : RuntimeSettings).eventCapacity < Nat.pow 2 64 := by decide
    have capacity := settings_keep runtimeSettings_keep ordered small read
    exact ⟨kept.grants, capacity⟩
  case inr.inr => exact ⟨kept.grants, kept.capacity⟩

/-- What is read is regular. -/
theorem regular_of_ofText {s : String} {c : Config} (read : ofText s = .ok c) : c.Regular := by
  unfold ofText at read
  split at read
  case h_1 => cases read
  case h_2 ms document =>
    exact settings_keep tables_keep (Toml.document?_ordered document)
      ⟨List.Pairwise.nil, by decide⟩ read

theorem Regular.overridden {c : Config} (regular : c.Regular) (var : String → Option String) :
    (c.overridden var).Regular :=
  ⟨regular.grants, regular.capacity⟩

/-! ## What is written -/

theorem optional_fits (key : String) (s : Option String) : ∀ e ∈ optional key s, e.2.Fits := by
  cases s with
  | none => exact fun _ mem => nomatch mem
  | some s => exact fun e mem => List.mem_singleton.mp mem ▸ trivial

/-- The entries of a regular configuration can be read. -/
theorem sections_fit {c : Config} (regular : c.Regular) : ∀ s ∈ c.sections, s.Fits := by
  have capacity : (Toml.Entry.count c.runtime.eventCapacity).Fits := by
    have range : Nat.pow 2 64 ≤ Nat.pow 2 128 := by decide
    exact Int.ofNat_lt.mpr (Nat.lt_of_lt_of_le regular.capacity range)
  intro s mem
  simp only [sections, List.mem_cons, List.not_mem_nil, or_false] at mem
  rcases mem with rfl | rfl | rfl | rfl | rfl
  all_goals refine ⟨List.cons_ne_nil _ _, ?_⟩
  case inl =>
    refine List.forall_mem_append.mpr ⟨List.forall_mem_append.mpr ⟨?_, optional_fits _ _⟩, ?_⟩
    all_goals simp [Toml.Entry.Fits]
  case inr.inl =>
    intro e mem
    obtain ⟨g, -, rfl⟩ := List.mem_map.mp mem
    trivial
  case inr.inr.inl =>
    refine List.forall_mem_append.mpr ⟨List.forall_mem_append.mpr ⟨?_, optional_fits _ _⟩, ?_⟩
    all_goals simp [Toml.Entry.Fits]
  case inr.inr.inr.inl =>
    refine List.forall_mem_append.mpr ⟨List.forall_mem_append.mpr ⟨?_, optional_fits _ _⟩, ?_⟩
    · simp [Toml.Entry.Fits]
    · exact fun e mem => List.mem_singleton.mp mem ▸ capacity
  case inr.inr.inr.inr => simp [loggingSection, Toml.Entry.Fits]

/-- No section of a regular configuration has a key twice. -/
theorem sections_distinct {c : Config} (regular : c.Regular) :
    ∀ s ∈ c.sections, (s.entries.map (·.1)).Nodup := by
  intro s mem
  simp only [sections, List.mem_cons, List.not_mem_nil, or_false] at mem
  rcases mem with rfl | rfl | rfl | rfl | rfl
  case inl =>
    unfold pluginSection optional
    cases c.plugins.trustedKey <;> simp
  case inr.inl =>
    rw [grantSection, List.map_map]
    exact (List.pairwise_map.mpr regular.grants).imp ne_of_lt
  case inr.inr.inl =>
    unfold verifierSection optional
    cases c.plugins.verifier.command <;> simp
  case inr.inr.inr.inl =>
    unfold runtimeSection optional
    cases c.runtime.configDir <;> simp
  case inr.inr.inr.inr => simp [loggingSection]

/-- The tables that the sections of a configuration make. -/
def tree (c : Config) : Toml.Members :=
  [("plugins", .table .stated (Toml.leaves (pluginSection c.plugins).entries ++
      [("grants", (grantSection c.plugins.grants).node),
        ("verifier", (verifierSection c.plugins.verifier).node)])),
    ("runtime", (runtimeSection c.runtime).node), ("logging", (loggingSection c.logging).node)]

/-- The tables within that of plugins are no settings of it. -/
theorem not_mem_pluginSection (s : PluginSettings) {key : String}
    (table : key = "grants" ∨ key = "verifier") :
    key ∉ (Toml.leaves (pluginSection s).entries).map (·.1) := by
  unfold pluginSection optional
  rcases table with rfl | rfl <;> cases s.trustedKey <;> simp [Toml.leaves]

theorem enter_sections {c : Config} (regular : c.Regular) :
    c.sections.foldlM Toml.Section.enter [] = some c.tree := by
  have distinct := sections_distinct regular
  simp only [sections, List.forall_mem_cons] at distinct
  obtain ⟨plugins, grants, verifier, runtime, logging, -⟩ := distinct
  have noGrants := Toml.Members.get?_eq_none.mpr (not_mem_pluginSection c.plugins (.inl rfl))
  have noVerifier (n : Toml.Node) : Toml.Members.get? "verifier"
      (Toml.leaves (pluginSection c.plugins).entries ++ [("grants", n)]) = none := by
    have none := not_mem_pluginSection c.plugins (.inr rfl)
    simpa [Toml.Members.get?_eq_none] using none
  have first : (pluginSection c.plugins).enter [] =
      some [("plugins", (pluginSection c.plugins).node)] :=
    Toml.Section.enter_top rfl plugins rfl
  have second {ms : Toml.Members} (new : ms.get? "grants" = none) :
      (grantSection c.plugins.grants).enter [("plugins", .table .stated ms)] =
        some [("plugins", .table .stated
          (ms ++ [("grants", (grantSection c.plugins.grants).node)]))] :=
    Toml.Section.enter_sub rfl grants rfl new
  have third {ms : Toml.Members} (new : ms.get? "verifier" = none) :
      (verifierSection c.plugins.verifier).enter [("plugins", .table .stated ms)] =
        some [("plugins", .table .stated
          (ms ++ [("verifier", (verifierSection c.plugins.verifier).node)]))] :=
    Toml.Section.enter_sub rfl verifier rfl new
  have fourth (p : Toml.Node) : (runtimeSection c.runtime).enter [("plugins", p)] =
      some [("plugins", p), ("runtime", (runtimeSection c.runtime).node)] :=
    Toml.Section.enter_top rfl runtime rfl
  have fifth (p r : Toml.Node) :
      (loggingSection c.logging).enter [("plugins", p), ("runtime", r)] =
        some [("plugins", p), ("runtime", r), ("logging", (loggingSection c.logging).node)] :=
    Toml.Section.enter_top rfl logging rfl
  rw [Toml.Section.node] at first
  simp only [sections, List.foldlM_cons, List.foldlM_nil, Option.bind_eq_bind, Option.bind_some,
    first, second noGrants, third (noVerifier _), fourth, fifth, List.append_assoc,
    List.singleton_append]
  rfl

/-- The value of the table of plugins, which holds those of grants and of the verifier. -/
def pluginTable (s : PluginSettings) : Value :=
  .table (Toml.inOrder (written (pluginSection s).entries ++
    [("grants", (grantSection s.grants).value), ("verifier", (verifierSection s.verifier).value)]))

/-- The tables of a configuration, in the order of their keys. -/
theorem values_tree (c : Config) : c.tree.values =
    [("logging", (loggingSection c.logging).value), ("plugins", pluginTable c.plugins),
      ("runtime", (runtimeSection c.runtime).value)] := by
  have order (p r l : Value) : Toml.inOrder [("plugins", p), ("runtime", r), ("logging", l)] =
      [("logging", l), ("plugins", p), ("runtime", r)] := by
    simp [Toml.inOrder, Toml.put, -String.lt_iff_ltb]
  simp only [Toml.Members.values, tree, Toml.memberValues, Toml.Node.value, pluginTable,
    Toml.memberValues_append, Toml.memberValues_leaves, Toml.Section.node_value, order]

/-! ## What is read back -/

/-- One setting after the other. -/
theorem settings_cons {α : Type} {name : String} {known : List (Setting α)} {a a' : α}
    {key : String} {v : Value} {ms : List (String × Value)} {s : Setting α}
    (found : known.find? (fun s => s.key == key) = some s) (done : s.set a v = .ok a') :
    settings name known a (.table ((key, v) :: ms)) = settings name known a' (.table ms) := by
  simp only [settings, List.foldlM_cons, found, done]
  rfl

theorem texts_strings (ss : List String) : texts (.array (ss.map .string)) = .ok ss := by
  rw [texts]
  induction ss with
  | nil => rfl
  | cons s ss ih =>
    rw [List.map_cons, List.mapM_cons, ih]
    rfl

theorem choice_verifierKinds (k : VerifierKind) :
    choice verifierKinds (.string k.name) = .ok k := by
  cases k <;> rfl

theorem choice_policyModes (m : PolicyMode) : choice policyModes (.string m.name) = .ok m := by
  cases m <;> rfl

theorem count_integer {n : Nat} (small : n < Nat.pow 2 64) : count (.integer n) = .ok n := by
  have range : 0 ≤ (n : Int) ∧ (n : Int) < (Nat.pow 2 64 : Nat) :=
    ⟨Int.natCast_nonneg _, Int.ofNat_lt.mpr small⟩
  rw [count, if_pos range, Int.toNat_natCast]

theorem textsByKey_grants {grants : List (String × List String)}
    (order : grants.Pairwise fun g h => g.1 < h.1) :
    textsByKey (grantSection grants).value = .ok grants := by
  have entries : written (grantSection grants).entries =
      grants.map fun g => (g.1, .array (g.2.map .string)) := by
    rw [written, grantSection, List.map_map]
    rfl
  have sorted : (grants.map fun g => (g.1, Value.array (g.2.map .string))).Pairwise
      fun m n => m.1 < n.1 := List.pairwise_map.mpr order
  rw [Toml.Section.value, entries, Toml.inOrder_of_pairwise sorted, textsByKey]
  clear entries order sorted
  induction grants with
  | nil => rfl
  | cons g grants ih =>
    rw [List.map_cons, List.mapM_cons, ih, texts_strings]
    rfl

theorem settings_verifier (s : VerifierSettings) :
    settings "VerifierConfig" verifierSettings {} (verifierSection s).value = .ok s := by
  obtain ⟨kind, command, args⟩ := s
  have order : Toml.inOrder (written (verifierSection ⟨kind, command, args⟩).entries) =
      ("args", .array (args.map .string)) ::
        (written (optional "command" command) ++ [("kind", .string kind.name)]) := by
    cases command <;> simp [written, verifierSection, optional, Toml.Entry.value, Toml.inOrder,
      Toml.put, -String.lt_iff_ltb]
  have given (s : VerifierSettings) := bind_ok (texts_strings args) fun args => { s with args }
  have chosen (s : VerifierSettings) := bind_ok (choice_verifierKinds kind) fun kind =>
    { s with kind }
  rw [Toml.Section.value, order]
  cases command with
  | none => exact (settings_cons rfl (given {})).trans (settings_cons rfl (chosen _))
  | some command =>
    exact (settings_cons rfl (given {})).trans
      ((settings_cons rfl rfl).trans (settings_cons rfl (chosen _)))

theorem settings_runtime {s : RuntimeSettings} (small : s.eventCapacity < Nat.pow 2 64) :
    settings "RuntimeConfig" runtimeSettings {} (runtimeSection s).value = .ok s := by
  obtain ⟨headless, configDir, eventCapacity⟩ := s
  have order : Toml.inOrder
      (written (runtimeSection ⟨headless, configDir, eventCapacity⟩).entries) =
        written (optional "config_dir" configDir) ++
          [("event_capacity", .integer eventCapacity), ("headless", .boolean headless)] := by
    cases configDir <;> simp [written, runtimeSection, optional, Toml.Entry.value, Toml.inOrder,
      Toml.put, -String.lt_iff_ltb]
  have counted (s : RuntimeSettings) := bind_ok (count_integer small) fun eventCapacity =>
    { s with eventCapacity }
  have found : runtimeSettings.find? (fun s => s.key == "event_capacity") =
      some ⟨"event_capacity", fun s v => do .ok { s with eventCapacity := ← count v }⟩ := rfl
  rw [Toml.Section.value, order]
  cases configDir with
  | none => exact (settings_cons found (counted {})).trans rfl
  | some dir =>
    exact (settings_cons rfl rfl).trans ((settings_cons found (counted _)).trans rfl)

theorem settings_logging (s : LoggingSettings) :
    settings "LoggingConfig" loggingSettings {} (loggingSection s).value = .ok s := by
  have order : Toml.inOrder (written (loggingSection s).entries) =
      [("format", .string s.format), ("level", .string s.level)] := by
    simp [written, loggingSection, Toml.Entry.value, Toml.inOrder, Toml.put, -String.lt_iff_ltb]
  rw [Toml.Section.value, order]
  rfl

theorem settings_plugins {s : PluginSettings} (order : s.grants.Pairwise fun g h => g.1 < h.1) :
    settings "PluginsConfig" pluginSettings {} (pluginTable s) = .ok s := by
  obtain ⟨dir, extension, requireSignatures, trustedKey, policy, gs, vs⟩ := s
  have granted (s : PluginSettings) := bind_ok (textsByKey_grants order) fun grants =>
    { s with grants }
  have verified (s : PluginSettings) := bind_ok (settings_verifier vs) fun verifier =>
    { s with verifier }
  have chosen (s : PluginSettings) := bind_ok (choice_policyModes policy) fun policy =>
    { s with policy }
  dsimp only [pluginTable] at granted ⊢
  generalize (grantSection gs).value = g at granted ⊢
  generalize (verifierSection vs).value = v at verified ⊢
  have order : Toml.inOrder (written (pluginSection
        ⟨dir, extension, requireSignatures, trustedKey, policy, gs, vs⟩).entries ++
          [("grants", g), ("verifier", v)]) =
      [("dir", .string dir), ("extension", .string extension), ("grants", g),
        ("policy", .string policy.name), ("require_signatures", .boolean requireSignatures)] ++
          (written (optional "trusted_key" trustedKey) ++ [("verifier", v)]) := by
    cases trustedKey <;> simp [written, pluginSection, optional, Toml.Entry.value, Toml.inOrder,
      Toml.put, -String.lt_iff_ltb]
  have upTo (ms : List (String × Value)) : settings "PluginsConfig" pluginSettings {} (.table
      ([("dir", .string dir), ("extension", .string extension), ("grants", g),
        ("policy", .string policy.name), ("require_signatures", .boolean requireSignatures)] ++
          ms)) = settings "PluginsConfig" pluginSettings
            { dir, extension, grants := gs, policy, requireSignatures } (.table ms) :=
    (settings_cons rfl rfl).trans <| (settings_cons rfl rfl).trans <|
      (settings_cons rfl (granted _)).trans <| (settings_cons rfl (chosen _)).trans <|
        settings_cons rfl rfl
  rw [order, upTo]
  cases trustedKey with
  | none => exact settings_cons rfl (verified _)
  | some key => exact (settings_cons rfl rfl).trans (settings_cons rfl (verified _))

/-- A regular configuration is read back. -/
theorem ofText_toml {c : Config} (regular : c.Regular) : ofText c.toml = .ok c := by
  have document := Toml.document?_sectionsText (sections_fit regular) (enter_sections regular)
  have logged (d : Config) := bind_ok (settings_logging c.logging) fun logging =>
    { d with logging }
  have plugged (d : Config) := bind_ok (settings_plugins regular.grants) fun plugins =>
    { d with plugins }
  have ran (d : Config) := bind_ok (settings_runtime regular.capacity) fun runtime =>
    { d with runtime }
  rw [ofText, toml, document, values_tree]
  exact (settings_cons rfl (logged {})).trans <|
    (settings_cons rfl (plugged { logging := c.logging })).trans <|
      settings_cons rfl (ran { plugins := c.plugins, logging := c.logging })

end Config

/-! ## A configuration that is hard to write -/

namespace Odd

/-- A file with keys and values that need quotes of every kind. -/
def text : String :=
  "[plugins]\ndir = 'C:\\plugins'\ntrusted_key = \"\\\"it's\\\"\\n\"\n" ++
    "[plugins.grants]\n\"org.a\" = [\"\", \"\\u0007\"]\n\"\" = []\n"

def files : Files :=
  ⟨.dir [("keel.toml", .file (Utf8.bytesOf text))], []⟩

/-- What is read from the file. -/
def config : Config :=
  { plugins :=
      { dir := "C:\\plugins"
        trustedKey := some "\"it's\"\n"
        grants := [("", []), ("org.a", ["", "\u0007"])] } }

/-- A variable with quotes that no quotes can hold. -/
def var (name : String) : Option String :=
  if name = "KEEL_LOG_LEVEL" then some "\"\"\"'''\r\n" else none

end Odd

/-- A configuration that was read from a file, and overridden any number of times, is written
as a document that is read as the same configuration. -/
theorem printed_config_reads_back (path : String) (fs : Files) (c : Config)
    (read : Config.read path fs = .ok c) (vars : List (String → Option String)) :
    Config.ofText (vars.foldl Config.overridden c).toml = .ok (vars.foldl Config.overridden c) := by
  have regular : c.Regular := by
    unfold Config.read at read
    split at read
    case h_1 => cases read
    case h_2 text _ =>
      split at read
      case h_1 => cases read
      case h_2 c' whole => exact Except.ok.inj read ▸ Config.regular_of_ofText whole
  have kept : (vars.foldl Config.overridden c).Regular := by
    clear read
    induction vars generalizing c with
    | nil => exact regular
    | cons var vars ih => exact ih (c.overridden var) (regular.overridden var)
  exact Config.ofText_toml kept

/-- What is hard to write is read back, with a level that needs escapes. -/
theorem odd_config_reads_back : Config.read "keel.toml" Odd.files = .ok Odd.config ∧
    Config.ofText (Odd.config.overridden Odd.var).toml = .ok (Odd.config.overridden Odd.var) := by
  have read : Config.read "keel.toml" Odd.files = .ok Odd.config := by decide +kernel
  exact ⟨read, printed_config_reads_back "keel.toml" Odd.files Odd.config read [Odd.var]⟩

end PluginHost
