import PluginHost.Proofs.Event.Reading
import PluginHost.Proofs.Time.Epoch

/-!
# Events are read as they were written

An event is written with its kind first and then its fields, and its text is read as the same
event: what is read of a time is a time that its text gives back.

* `Event.Proper` says that the time of an event, if it has one, is proper.

Results:
1. `proper_of_ofBytes`: what is read is a proper event.
2. `ofBytes_text`: a proper event is read from its text.
3. `events_survive`: both together, for every event that is read or has the time of a clock.
-/

namespace PluginHost.Event

open Json (Value)

/-- The time of the event, if it has one, is proper. -/
def Proper : Event → Prop
  | .plugin _ _ _ time => time.Proper
  | _ => True

/-! ## What is read -/

section Parts

variable {p p' : Parts} {k : Kind} {key : String} {v : Value} {e : Event}

/-- The time that has been read, if there is one, is proper. -/
def Parts.Sound (p : Parts) : Prop :=
  ∀ i ∈ p.time, i.Proper

theorem Parts.Sound.read (sound : p.Sound) (h : p.read key v = .ok p') : p'.Sound := by
  unfold Parts.read at h
  split at h
  · next s =>
    split at h
    · split at h
      · next i read =>
        cases h
        rintro i ⟨⟩
        exact Instant.proper_of_ofText read
      · cases h
    · cases h
      exact sound
  · cases h

theorem Parts.Sound.ofMembers {ms : List (String × Value)} (sound : p.Sound)
    (h : p.ofMembers k ms = .ok p') : p'.Sound := by
  induction ms generalizing p with
  | nil =>
    cases h
    exact sound
  | cons m ms ih =>
    rw [Parts.ofMembers] at h
    split at h
    · exact ih sound h
    split at h
    · cases h
    · obtain ⟨p₁, read, h⟩ := bind_eq_ok_iff.mp h
      exact ih (sound.read read) h

theorem Parts.Sound.ofItems {keys : List String} {vs : List Value} (sound : p.Sound)
    (h : p.ofItems keys vs = .ok p') : p'.Sound := by
  induction keys generalizing p vs with
  | nil =>
    cases h
    exact sound
  | cons key keys ih =>
    cases vs with
    | nil =>
      cases h
      exact sound
    | cons v vs =>
      obtain ⟨p₁, read, h⟩ := bind_eq_ok_iff.mp h
      exact ih (sound.read read) h

theorem Parts.Sound.toEvent (sound : p.Sound) (h : p.toEvent k = .ok e) : e.Proper := by
  obtain ⟨rfl, fields⟩ := Parts.toEvent_iff.mp h
  cases e with
  | plugin source type payload time =>
    have found : p.time.map Slot.time = some (.time time) := fields (timeKey, .time time) (by
      simp [Event.kind, Kind.fields, slots, timeKey])
    obtain ⟨i, there, same⟩ := Option.map_eq_some_iff.mp found
    cases same
    exact sound time there
  | _ => trivial

theorem proper_of_ofBody {body : Body} (h : ofBody k body = .ok e) : e.Proper := by
  have none : ({} : Parts).Sound := by
    rintro i ⟨⟩
  cases body with
  | members ms =>
    obtain ⟨p, read, h⟩ := bind_eq_ok_iff.mp h
    exact (none.ofMembers read).toEvent h
  | items vs =>
    obtain ⟨p, read, h⟩ := bind_eq_ok_iff.mp h
    split at h
    · cases h
    split at h
    · cases h
    · exact (none.ofItems read).toEvent h

/-- What is read is a proper event. -/
theorem proper_of_ofBytes {bytes : List UInt8} (h : ofBytes bytes = .ok e) : e.Proper := by
  obtain ⟨⟨k, body, c⟩, -, h⟩ := bind_eq_ok_iff.mp h
  dsimp only at h
  split at h
  · cases h
  · next e' event =>
    obtain ⟨-, -, h⟩ := bind_eq_ok_iff.mp h
    cases h
    exact proper_of_ofBody event

end Parts

/-! ## The text of an event -/

section Texts

variable {e : Event}

theorem ne_kindKey_of_mem_fieldMembers {m : String × Value} (hm : m ∈ e.fieldMembers) :
    m.1 ≠ kindKey :=
  ne_kindKey_of_mem_fields (List.of_mem_zip hm).1

/-- What is written of a proper event stands for it. -/
theorem Proper.members_say (proper : e.Proper) :
    Says ((kindKey, .string e.kind.name) :: e.fieldMembers) e where
  kind := by
    rw [Json.valuesOf_cons, if_pos rfl,
      Json.valuesOf_eq_nil fun m hm => ne_kindKey_of_mem_fieldMembers hm]
  fields := by
    cases e with
    | plugin source type payload time =>
      have read : Instant.ofText time.text = .ok time := Instant.ofText_text proper
      simp [Event.kind, Kind.fields, slots, fieldMembers, fieldValues, Json.valuesOf_cons, kindKey,
        slot?, timeKey, read, Except.toOption]
    | _ =>
      simp [Event.kind, Kind.fields, slots, fieldMembers, fieldValues, Json.valuesOf_cons, kindKey,
        slot?, timeKey]

/-- A proper event is read from its text. -/
theorem ofBytes_text (proper : e.Proper) : ofBytes (Utf8.bytesOf e.text) = .ok e := by
  rw [text, Value.bytesOf_text]
  have strings : ∀ m ∈ (kindKey, .string e.kind.name) :: e.fieldMembers,
      m.2.Fits (Json.depthLimit - 1) := by
    refine List.forall_mem_cons.mpr ⟨.string _, fun m hm => ?_⟩
    obtain ⟨s, -, same⟩ := List.mem_map.mp (List.of_mem_zip hm).2
    rw [← same]
    exact .string s
  exact ofBytes_of_members e.toValue.isText_bytes
    (Value.namedValues?_namedDocs fun m hm => (strings m hm).value?_doc) proper.members_say

end Texts

/-! ## Both ways -/

/-- The text of the event is read as the same event, which has the same text. -/
def Survives (e : Event) : Prop :=
  ∃ e', ofBytes (Utf8.bytesOf e.text) = .ok e' ∧ e' = e ∧ e'.text = e.text

theorem Proper.survives {e : Event} (proper : e.Proper) : e.Survives :=
  ⟨e, ofBytes_text proper, rfl, rfl⟩

/-- Every event that is read from any bytes survives, and so does every event whose time, if it
has one, is proper, whatever its strings are. These are the same events. An event with the time
that a clock shows is one of them, as long as the calendar lasts. -/
theorem events_survive :
    (∀ bytes e, ofBytes bytes = .ok e → e.Survives) ∧
    (∀ e : Event, e.Proper → e.Survives) ∧
    (∀ e : Event, e.Proper ↔ ∃ bytes, ofBytes bytes = .ok e) ∧
    ∀ source type payload seconds nano, nano < Instant.nanosInSecond →
      Date.firstYear ≤ (Instant.ofEpoch seconds nano).date.year →
      (Instant.ofEpoch seconds nano).date.year ≤ Date.lastYear →
      (Event.plugin source type payload (Instant.ofEpoch seconds nano)).Survives := by
  refine ⟨fun bytes e read => (proper_of_ofBytes read).survives, fun e proper => proper.survives,
    fun e => ⟨fun proper => ⟨_, ofBytes_text proper⟩, fun ⟨bytes, read⟩ => proper_of_ofBytes read⟩,
    fun source type payload seconds nano small first last => ?_⟩
  have proper : (Event.plugin source type payload (Instant.ofEpoch seconds nano)).Proper :=
    Instant.proper_ofEpoch seconds small first last
  exact proper.survives

/-- An event in the leap second at the end of 2016, with its kind last but one, a member of no
field, escapes, and the time at a place five hours behind UTC. -/
def scattered : String :=
  "\x7b \"extra\": [1, \x7b\"kind\": null\x7d], \"timestamp\": \"2016-12-31 18:59:60.25-05:00\"," ++
    "\"payload\": \"\\u0041\\n\\ud83d\\ude00\", \"source\": \"s\\\"\"," ++
    "\"kind\": \"plugin\", \"event_type\": \"\" \x7d"

/-- The event that it is. -/
def leapEvent : Event :=
  .plugin "s\"" "" "A\n😀" ⟨⟨2016, 12, 31⟩, 86399, 1250000000⟩

/-- The scattered event is read, and its text gives it back with its time in the leap second. -/
theorem scattered_event_survives :
    ofBytes (Utf8.bytesOf scattered) = .ok leapEvent ∧
    ofBytes (Utf8.bytesOf leapEvent.text) = .ok leapEvent ∧
    (Event.plugin "" "" "" (Instant.ofEpoch 0 7)).Survives := by
  have read : ofBytes (Utf8.bytesOf scattered) = .ok leapEvent := by decide +kernel
  obtain ⟨parsed, -, -, clock⟩ := events_survive
  obtain ⟨e, again, rfl, -⟩ := parsed _ _ read
  exact ⟨read, again, clock "" "" "" 0 7 (by decide) (by decide) (by decide)⟩

end PluginHost.Event
