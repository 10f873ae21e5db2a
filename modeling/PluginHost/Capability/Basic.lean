/-!
# Capabilities

Ten kinds of access a plugin may be given. A set of them travels between host
and plugin as a 64-bit mask in which bit `i` stands for the `i`-th capability;
the bits above the tenth belong to no capability, and a mask may hold them all
the same.

* `Capability.ofName?` reads the name of a capability.
* `Mask.ofNames` reads a list of names and keeps the names it does not know.
* `Mask.names` and `Mask.display` write the capabilities of a mask.
-/

namespace PluginHost

/-- A kind of access, in the order of the bits. -/
inductive Capability
  | storageRead
  | storageWrite
  | peerNetwork
  | masterNetwork
  | uiPanel
  | notifications
  | filesystemRead
  | filesystemWrite
  | subprocessSpawn
  | systemInfoRead
  deriving DecidableEq, Repr, Inhabited

/-- A set of capabilities, and possibly of bits that no capability owns. -/
abbrev Mask := BitVec 64

namespace Capability

def all : List Capability :=
  [.storageRead, .storageWrite, .peerNetwork, .masterNetwork, .uiPanel, .notifications,
    .filesystemRead, .filesystemWrite, .subprocessSpawn, .systemInfoRead]

/-- The place of the capability's bit. -/
def index : Capability → Nat
  | .storageRead => 0
  | .storageWrite => 1
  | .peerNetwork => 2
  | .masterNetwork => 3
  | .uiPanel => 4
  | .notifications => 5
  | .filesystemRead => 6
  | .filesystemWrite => 7
  | .subprocessSpawn => 8
  | .systemInfoRead => 9

def flag (c : Capability) : Mask :=
  BitVec.twoPow 64 c.index

/-- The name in manifests, configuration and listings. -/
def name : Capability → String
  | .storageRead => "storage-read"
  | .storageWrite => "storage-write"
  | .peerNetwork => "peer-network"
  | .masterNetwork => "master-network"
  | .uiPanel => "ui-panel"
  | .notifications => "notifications"
  | .filesystemRead => "filesystem-read"
  | .filesystemWrite => "filesystem-write"
  | .subprocessSpawn => "subprocess-spawn"
  | .systemInfoRead => "system-info-read"

/-- The name in diagnostics. -/
def symbol : Capability → String
  | .storageRead => "STORAGE_READ"
  | .storageWrite => "STORAGE_WRITE"
  | .peerNetwork => "PEER_NETWORK"
  | .masterNetwork => "MASTER_NETWORK"
  | .uiPanel => "UI_PANEL"
  | .notifications => "NOTIFICATIONS"
  | .filesystemRead => "FILESYSTEM_READ"
  | .filesystemWrite => "FILESYSTEM_WRITE"
  | .subprocessSpawn => "SUBPROCESS_SPAWN"
  | .systemInfoRead => "SYSTEM_INFO_READ"

def ofName? (s : String) : Option Capability :=
  all.find? fun c => c.name == s

def unknownName (s : String) : String :=
  s!"unknown capability '{s}'"

theorem mem_all (c : Capability) : c ∈ all := by
  cases c <;> decide

theorem index_lt (c : Capability) : c.index < 10 := by
  cases c <;> decide

theorem name_injective {a b : Capability} (h : a.name = b.name) : a = b := by
  cases a <;> cases b <;> first | rfl | exact absurd h (by decide)

@[simp] theorem ofName?_name (c : Capability) : ofName? c.name = some c := by
  cases c <;> decide

theorem ofName?_eq_some_iff {s : String} {c : Capability} : ofName? s = some c ↔ s = c.name := by
  constructor
  · intro h
    have := List.find?_some h
    simpa using (beq_iff_eq.1 this).symm
  · rintro rfl
    exact ofName?_name c

end Capability

namespace Mask

/-- The ten bits that capabilities own. -/
def known : Mask := 1023#64

def knownPart (m : Mask) : Mask :=
  m &&& known

def isKnown (m : Mask) : Bool :=
  m.knownPart == m

/-- Every bit of `required` is in `granted`. -/
def satisfies (granted required : Mask) : Bool :=
  granted &&& required == required

/-- The two masks share a bit. -/
def meets (a b : Mask) : Bool :=
  a &&& b != 0#64

def has (m : Mask) (c : Capability) : Bool :=
  m.meets c.flag

/-- The union of the capabilities named, and the names that are none, in order. -/
def ofNames : List String → Mask × List String
  | [] => (0#64, [])
  | s :: rest =>
    let (mask, unknown) := ofNames rest
    match Capability.ofName? s with
    | some c => (c.flag ||| mask, unknown)
    | none => (mask, s :: unknown)

/-- The names of the capabilities in the mask, in the order of the bits. -/
def names (m : Mask) : List String :=
  (Capability.all.filter m.has).map Capability.name

/-- The text of the mask in listings. A mask of nothing but bits that no
capability owns has no names and is not empty either. -/
def display (m : Mask) : String :=
  if m = 0#64 then "none" else ",".intercalate m.names

/-- A number in hexadecimal, as diagnostics write the bits without a name. -/
def hex (m : Mask) : String :=
  "0x" ++ String.ofList (Nat.toDigits 16 m.toNat)

/-- The text of the mask in diagnostics: its capabilities, then what is left. -/
def debug (m : Mask) : String :=
  let named := (Capability.all.filter m.has).map Capability.symbol
  let rest := m &&& ~~~known
  let parts := if rest = 0#64 then named else named ++ [rest.hex]
  let body := if parts.isEmpty then "0x0" else " | ".intercalate parts
  s!"Capabilities({body})"

theorem getLsbD_known (i : Nat) : known.getLsbD i = decide (i < 10) := by
  by_cases h : i < 64
  · have : ∀ i : Fin 64, known.getLsbD i = decide (i.1 < 10) := by decide
    exact this ⟨i, h⟩
  · rw [BitVec.getLsbD_of_ge _ _ (by omega)]
    simp; omega

theorem satisfies_iff {g r : Mask} : g.satisfies r = true ↔ g &&& r = r := by
  simp [satisfies]

theorem isKnown_iff {m : Mask} : m.isKnown = true ↔ m &&& known = m := by
  simp [isKnown, knownPart]

theorem has_iff {m : Mask} {c : Capability} : m.has c = true ↔ m.getLsbD c.index = true := by
  have hc : c.index < 64 := Nat.lt_of_lt_of_le c.index_lt (by decide)
  simp only [has, meets, Capability.flag, bne_iff_ne, ne_eq]
  constructor
  · intro h
    cases hm : m.getLsbD c.index with
    | true => rfl
    | false =>
      refine absurd (BitVec.eq_of_getLsbD_eq fun i hi => ?_) h
      by_cases e : c.index = i
      · subst e; simp [hm]
      · simp [BitVec.getLsbD_twoPow, e]
  · intro h hz
    have hf : (m &&& BitVec.twoPow 64 c.index).getLsbD c.index = false := by rw [hz]; simp
    rw [BitVec.getLsbD_and, BitVec.getLsbD_twoPow, h] at hf
    simp [hc] at hf

@[simp] theorem ofNames_nil : ofNames [] = (0#64, []) := rfl

end Mask

end PluginHost
