import PluginHost.Event.Document
import PluginHost.Proofs.Manifest.Signed

/-!
# Reading events

An event is read from an object in two rounds. The first takes the member that says the kind out
from among the others, wherever it stands, and the second reads the fields that events of the
kind have. In the end it only counts which values each key has: the order of the members makes
no difference, and members of no field make none.

* `gather?` is what the first round makes of members: the kind, and the others in order.
* `Says` says which event members stand for.

Results:
1. `gather?_none_iff`: the kind may stand anywhere, and the other members stay in order.
2. `ofMembers_iff`: fields are read whatever the order.
3. `ofMembers?_eq_some_iff`: which members an event is read from.
4. `ofBytes_of_members`: a text of an object is read as the event that its members stand for.
-/

namespace PluginHost.Event

open Json (Value Cursor Doc Gives Blank Spells Content MoreMembers Avoids string? namedValues?
  valuesOf)

/-! ## Definitions -/

/-- The kind that a value names. -/
def kindOf? : Value → Option Kind
  | .string s => Kind.ofName? s
  | _ => none

/-- Goes through members after a kind may have been found: the one kind there is, and the other
members in order. -/
def gather? : Option Kind → List (String × Value) → Option (Option Kind × List (String × Value))
  | kind, [] => some (kind, [])
  | kind, (key, v) :: ms =>
    if key = kindKey then
      if kind.isSome then none else (kindOf? v).bind fun k => gather? (some k) ms
    else (gather? kind ms).map fun (kind, others) => (kind, (key, v) :: others)

/-- The event of an object's members. -/
def ofMembers? (ms : List (String × Value)) : Option Event :=
  (gather? none ms).bind fun (kind, others) =>
    kind.bind fun k => (ofBody k (.members others)).toOption

/-- What a field is read as. -/
inductive Slot
  | text (s : String)
  | time (i : Instant)

/-- What a field is read as, if it can have the value. -/
def slot? (key : String) : Value → Option Slot
  | .string s =>
    if key = timeKey then (Instant.ofText s).toOption.map .time else some (.text s)
  | _ => none

/-- What a field has been read as so far. -/
def Parts.slot (p : Parts) (key : String) : Option Slot :=
  if key = timeKey then p.time.map .time
  else (p.texts.find? fun t => t.1 == key).map fun t => .text t.2

/-- What the fields of an event are, in order. -/
def slots : Event → List Slot
  | .pluginLoaded id version => [.text id, .text version]
  | .pluginInitialized id => [.text id]
  | .pluginUnloaded id => [.text id]
  | .pluginError id error => [.text id, .text error]
  | .plugin source type payload time => [.text source, .text type, .text payload, .time time]
  | .shutdown => []

/-- What becomes of a field: without a value it stays as it is, and a single value is read. -/
def Takes (key : String) (before : Option Slot) (vs : List Value) (after : Option Slot) : Prop :=
  vs = [] ∧ after = before ∨
    ∃ v x, vs = [v] ∧ before = none ∧ slot? key v = some x ∧ after = some x

/-- The members stand for the event: its kind and its fields are there once. -/
structure Says (ms : List (String × Value)) (e : Event) : Prop where
  kind : valuesOf kindKey ms = [.string e.kind.name]
  fields : ∀ f ∈ e.kind.fields.zip e.slots, ∃ v, valuesOf f.1 ms = [v] ∧ slot? f.1 v = some f.2

/-- The reader comes to a kind and the other members, and leaves the text. -/
def Reads (result : Except Json.Error (Option Kind × List (String × Value) × Cursor))
    (kind : Option Kind) (others : List (String × Value)) (rest : List Char) : Prop :=
  ∃ c, result = .ok (kind, others, c) ∧ c.At rest

/-! ## The first round -/

section Members

variable {c : Cursor} {d : Doc} {v : Value} {k : List UInt16} {key : String} {kind kind' : Option Kind}
  {ms others : List (String × Value)} {s t w w' tail rest : List Char} {fuel : Nat} {first : Bool}

/-- The kind is read from its name. -/
theorem readKind_reads {found : Kind} (blank : Blank w) (spells : Spells d t)
    (value : d.value? (Json.depthLimit - 1) = some v) (named : kindOf? v = some found)
    (h : c.At (w ++ (t ++ rest))) : Gives (readKind c) (some found) rest := by
  have text : Gives (c.text "variant identifier") v.text? rest :=
    Manifest.text_gives blank spells (Json.denotes_of_value? d value) h
  cases v with
  | string name =>
    obtain ⟨c₁, read, h₁⟩ := text
    have known : Kind.ofName? name = some found := named
    refine ⟨c₁, ?_, h₁⟩
    simp only [readKind, read, bind, Except.bind, known]
  | _ => cases named

theorem membersFrom_close (h : Gives (c.nextKey first) (some false) ('}' :: rest)) :
    Reads (membersFrom (fuel + 1) first kind c) kind [] rest := by
  obtain ⟨c₁, next, h₁⟩ := h
  rw [membersFrom, next]
  exact ⟨_, rfl, h₁.advance⟩

/-- One member more: the kind, or another one. -/
theorem membersFrom_member (content : Content k s) (named : string? k = some key) (blank : Blank w)
    (blank' : Blank w') (spells : Spells d t) (value : d.value? (Json.depthLimit - 1) = some v)
    (ends : Avoids Json.isNumeric tail)
    (next : Gives (c.nextKey first) (some true) (s ++ '"' :: (w ++ ':' :: (w' ++ (t ++ tail)))))
    (gathered : gather? kind ((key, v) :: ms) = some (kind', others))
    (further : ∀ {kind others} {c : Cursor}, gather? kind ms = some (kind', others) → c.At tail →
      Reads (membersFrom fuel false kind c) kind' others rest) :
    Reads (membersFrom (fuel + 1) first kind c) kind' others rest := by
  obtain ⟨c₁, key_next, h₁⟩ := next
  have key_reads : Gives c₁.string (string? k) (w ++ ':' :: (w' ++ (t ++ tail))) := content.gives h₁
  rw [named] at key_reads
  obtain ⟨c₂, key_read, h₂⟩ := key_reads
  obtain ⟨c₃, colon, h₃⟩ := Json.colon_passes blank h₂
  rw [gather?] at gathered
  rw [membersFrom, key_next]
  show Reads (c₁.string >>= _) kind' others rest
  rw [key_read]
  show Reads (if key = kindKey then _ else _) kind' others rest
  by_cases isKind : key = kindKey
  · rw [if_pos isKind] at gathered ⊢
    split at gathered
    · cases gathered
    next fresh =>
    obtain ⟨found, known, later⟩ := Option.bind_eq_some_iff.mp gathered
    obtain ⟨c₄, kind_read, h₄⟩ := readKind_reads blank' spells value known h₃
    rw [if_neg fresh, colon]
    show Reads (readKind c₃ >>= _) kind' others rest
    rw [kind_read]
    exact further later h₄
  · rw [if_neg isKind] at gathered ⊢
    obtain ⟨⟨kind₁, others₁⟩, later, same⟩ := Option.map_eq_some_iff.mp gathered
    obtain ⟨rfl, rfl⟩ := Prod.mk.inj same
    have enough : 2 * t.length ≤ c₃.steps := by
      rw [Cursor.steps, h₃.length]
      simp only [List.length_append]
      omega
    have reads : Gives (c₃.value 1) (d.value? (Json.depthLimit - 1)) tail :=
      d.gives blank' spells ends enough h₃
    rw [value] at reads
    obtain ⟨c₄, value_read, h₄⟩ := reads
    obtain ⟨c₅, others_read, h₅⟩ := further later h₄
    refine ⟨c₅, ?_, h₅⟩
    rw [colon]
    show (c₃.value 1 >>= _) = _
    rw [value_read]
    show (membersFrom fuel false kind c₄ >>= _) = _
    rw [others_read]
    rfl

/-- Further members are gone through up to the closing brace. -/
theorem moreMembers_read : ∀ (ds : List (List UInt16 × Doc)) {c : Cursor} {kind : Option Kind}
    {ms others : List (String × Value)} {ts : List Char} {fuel : Nat}, MoreMembers ds ts →
    namedValues? (Json.depthLimit - 1) ds = some ms → gather? kind ms = some (kind', others) →
    ts.length < fuel → c.At (ts ++ rest) → Reads (membersFrom fuel false kind c) kind' others rest
  | [], _, _, _, _, _, fuel + 1, .close blank, values, gathered, _, h => by
    cases values
    cases gathered
    rw [List.append_assoc] at h
    exact membersFrom_close (Json.nextKey_close blank h)
  | (k, d) :: ds, _, _, _, _, _, fuel + 1, .member blank blank' member more, values, gathered,
      enough, h => by
    obtain ⟨content, before, after, spells⟩ := member
    obtain ⟨key, named, rest_values⟩ := Option.bind_eq_some_iff.mp values
    obtain ⟨v, value, rest_values⟩ := Option.bind_eq_some_iff.mp rest_values
    obtain ⟨ms, more_values, rfl⟩ := Option.map_eq_some_iff.mp rest_values
    simp only [List.cons_append, List.append_assoc] at h
    simp only [List.length_cons, List.length_append] at enough
    exact membersFrom_member content named before after spells value more.avoids
      (Json.nextKey_comma blank blank' h) gathered fun later h =>
        moreMembers_read ds more more_values later (by omega) h

/-- An object is taken as its kind and its other members. -/
theorem readBody_reads {ds : List (List UInt16 × Doc)} {found : Kind} (blank : Blank w)
    (spells : Spells (.object ds) t) (values : namedValues? (Json.depthLimit - 1) ds = some ms)
    (gathered : gather? none ms = some (some found, others)) (h : c.At (w ++ (t ++ rest))) :
    ∃ c', readBody c = .ok (found, .members others, c') ∧ c'.At rest := by
  have h := h.skipSpace blank spells.avoids
  cases spells with
  | noMembers =>
    cases values
    cases gathered
  | members blank member more =>
    obtain ⟨content, before, after, spells⟩ := member
    obtain ⟨key, named, rest_values⟩ := Option.bind_eq_some_iff.mp values
    obtain ⟨v, value, rest_values⟩ := Option.bind_eq_some_iff.mp rest_values
    obtain ⟨ms, more_values, rfl⟩ := Option.map_eq_some_iff.mp rest_values
    simp only [List.cons_append, List.append_assoc] at h
    have start := h.advance
    have length := start.length
    simp only [List.length_cons, List.length_append] at length
    have object : Reads (membersFrom c.skipSpace.advance.steps true none c.skipSpace.advance)
        (some found) others rest :=
      membersFrom_member content named before after spells value more.avoids
        (Json.nextKey_first blank start) gathered fun later h =>
          moreMembers_read _ more more_values later (by omega) h
    obtain ⟨c₁, read, left⟩ := object
    have bracket : ¬some '{' = some '[' := by decide
    refine ⟨c₁, ?_, left⟩
    unfold readBody
    simp only [h.peek?_cons, bracket, ↓reduceIte]
    show ofObject c.skipSpace.advance = _
    rw [ofObject, read]
    rfl

end Members

/-! ## The kind and the others -/

section Gather

variable {k : Kind} {kind : Option Kind} {key : String} {ms others : List (String × Value)}

/-- After the kind there is no other one. -/
theorem gather?_some_iff : gather? (some k) ms = some (kind, others) ↔
    valuesOf kindKey ms = [] ∧ kind = some k ∧ others = ms := by
  induction ms generalizing others with
  | nil => simp [gather?, eq_comm]
  | cons m ms ih =>
    rw [gather?, Json.valuesOf_cons]
    by_cases isKind : m.1 = kindKey
    · rw [if_pos isKind, if_pos isKind]
      simp
    · rw [if_neg isKind, if_neg isKind, Option.map_eq_some_iff]
      constructor
      · rintro ⟨⟨kind₁, others₁⟩, later, same⟩
        obtain ⟨rfl, rfl⟩ := Prod.mk.inj same
        obtain ⟨none, rfl, rfl⟩ := ih.mp later
        exact ⟨none, rfl, rfl⟩
      · rintro ⟨none, rfl, rfl⟩
        exact ⟨(some k, ms), ih.mpr ⟨none, rfl, rfl⟩, rfl⟩

theorem filter_kindKey (none : valuesOf kindKey ms = []) :
    (ms.filter fun m => m.1 ≠ kindKey) = ms := by
  have others := List.filter_eq_nil_iff.mp (List.map_eq_nil_iff.mp none)
  exact List.filter_eq_self.mpr fun m hm => by simpa using others m hm

/-- The kind may stand anywhere, and the other members stay in order. -/
theorem gather?_none_iff : gather? none ms = some (some k, others) ↔
    (∃ v, valuesOf kindKey ms = [v] ∧ kindOf? v = some k) ∧
      others = ms.filter fun m => m.1 ≠ kindKey := by
  induction ms generalizing others with
  | nil => simp [gather?]
  | cons m ms ih =>
    rw [gather?, Json.valuesOf_cons]
    by_cases isKind : m.1 = kindKey
    · rw [if_pos isKind, if_pos isKind, List.filter_cons_of_neg (by simp [isKind])]
      simp only [Option.isSome_none, Bool.false_eq_true, ↓reduceIte, Option.bind_eq_some_iff,
        gather?_some_iff, Option.some.injEq]
      constructor
      · rintro ⟨found, named, none, rfl, rfl⟩
        exact ⟨⟨m.2, by rw [none], named⟩, (filter_kindKey none).symm⟩
      · rintro ⟨⟨v, one, named⟩, rfl⟩
        obtain ⟨rfl, none⟩ := List.cons.inj one
        exact ⟨k, named, none, rfl, filter_kindKey none⟩
    · rw [if_neg isKind, if_neg isKind, List.filter_cons_of_pos (by simp [isKind]),
        Option.map_eq_some_iff]
      constructor
      · rintro ⟨⟨kind₁, others₁⟩, later, same⟩
        obtain ⟨rfl, rfl⟩ := Prod.mk.inj same
        obtain ⟨one, rfl⟩ := ih.mp later
        exact ⟨one, rfl⟩
      · rintro ⟨one, rfl⟩
        exact ⟨_, ih.mpr ⟨one, rfl⟩, rfl⟩

/-- Taking the kind out leaves the values of every other key. -/
theorem valuesOf_filter_kindKey (other : key ≠ kindKey) :
    valuesOf key (ms.filter fun m => m.1 ≠ kindKey) = valuesOf key ms := by
  rw [valuesOf, valuesOf, List.filter_filter]
  congr 2
  funext m
  by_cases here : m.1 = key
  · simp [here, other]
  · simp [here]

end Gather

/-! ## Fields -/

section Fields

variable {p p' : Parts} {k : Kind} {key other : String} {v : Value} {x : Slot} {e : Event}
  {ms : List (String × Value)} {before after : Option Slot} {vs : List Value}

theorem Parts.has_eq_isSome (p : Parts) (key : String) : p.has key = (p.slot key).isSome := by
  unfold has slot
  split
  · rw [Option.isSome_map]
  · rw [Option.isSome_map, List.isSome_find?]

theorem slot?_of_read (h : p.read key v = .ok p') : ∃ x, slot? key v = some x := by
  cases v with
  | string s =>
    rw [Parts.read] at h
    rw [slot?]
    by_cases isTime : key = timeKey
    · rw [if_pos isTime] at h ⊢
      cases read : Instant.ofText s with
      | ok i => exact ⟨.time i, rfl⟩
      | error fault =>
        rw [read] at h
        cases h
    · rw [if_neg isTime]
      exact ⟨.text s, rfl⟩
  | _ => cases h

/-- Reading a field sets this field and no other. -/
theorem Parts.read_of_slot? (h : slot? key v = some x) : ∃ p', p.read key v = .ok p' ∧
    ∀ other, p'.slot other = if other = key then some x else p.slot other := by
  cases v with
  | string s =>
    rw [slot?] at h
    rw [Parts.read]
    by_cases isTime : key = timeKey
    · rw [if_pos isTime] at h ⊢
      obtain ⟨i, read, rfl⟩ := Option.map_eq_some_iff.mp h
      rw [toOption_eq_some_iff.mp read]
      refine ⟨_, rfl, fun other => ?_⟩
      rw [isTime, slot, slot]
      split <;> rfl
    · rw [if_neg isTime] at h ⊢
      cases h
      refine ⟨_, rfl, fun other => ?_⟩
      rw [slot, slot, List.find?_cons]
      by_cases same : other = key
      · simp [same, isTime]
      · have different : (key == other) = false := beq_false_of_ne (Ne.symm same)
        simp [same, different]
  | _ => cases h

theorem takes_nil : Takes key before [] after ↔ after = before := by
  simp [Takes]

/-- A field that has been read takes no further value. -/
theorem takes_some : Takes key (some x) vs after ↔ vs = [] ∧ after = some x := by
  simp [Takes]

theorem takes_cons : Takes key before (v :: vs) after ↔
    before = none ∧ ∃ x, slot? key v = some x ∧ Takes key (some x) vs after := by
  simp only [takes_some]
  constructor
  · rintro (⟨none, -⟩ | ⟨w, x, same, fresh, slot, rfl⟩)
    · cases none
    · obtain ⟨rfl, rfl⟩ := List.cons.inj same
      exact ⟨fresh, x, slot, rfl, rfl⟩
  · rintro ⟨fresh, x, slot, rfl, rfl⟩
    exact .inr ⟨v, x, rfl, fresh, slot, rfl⟩

theorem Parts.ofMembers_field {m : String × Value} (field : m.1 ∈ k.fields) :
    p.ofMembers k (m :: ms) = .ok p' ↔ p.slot m.1 = none ∧
      ∃ p₁, p.read m.1 m.2 = .ok p₁ ∧ p₁.ofMembers k ms = .ok p' := by
  have known : ¬(!k.fields.contains m.1) = true := by simpa using field
  rw [ofMembers, if_neg known, has_eq_isSome]
  cases p.slot m.1 with
  | some x => simp
  | none =>
    rw [if_neg (by simp)]
    simp only [true_and]
    exact bind_eq_ok_iff

/-- Fields are read whatever the order of the members, and members of no field make no
difference. -/
theorem ofMembers_iff (target : String → Option Slot) :
    (∃ p', p.ofMembers k ms = .ok p' ∧ ∀ key ∈ k.fields, p'.slot key = target key) ↔
      ∀ key ∈ k.fields, Takes key (p.slot key) (valuesOf key ms) (target key) := by
  induction ms generalizing p with
  | nil =>
    simp only [Parts.ofMembers, Json.valuesOf_nil, takes_nil, Except.ok.injEq, exists_eq_left']
    exact forall₂_congr fun key _ => eq_comm
  | cons m ms ih =>
    by_cases field : m.1 ∈ k.fields
    · constructor
      · rintro ⟨p', run, slots⟩ key hkey
        obtain ⟨fresh, p₁, read, run⟩ := Parts.ofMembers_field field |>.mp run
        obtain ⟨x, value⟩ := slot?_of_read read
        obtain ⟨p₂, read', slot⟩ := Parts.read_of_slot? (p := p) value
        cases read.symm.trans read'
        have later := ih.mp ⟨p', run, slots⟩ key hkey
        rw [slot key] at later
        rw [Json.valuesOf_cons]
        by_cases same : key = m.1
        · subst same
          rw [if_pos rfl] at later ⊢
          exact takes_cons.mpr ⟨fresh, x, value, later⟩
        · rw [if_neg same] at later
          rwa [if_neg (Ne.symm same)]
      · intro takes
        have own := takes m.1 field
        rw [Json.valuesOf_cons, if_pos rfl, takes_cons] at own
        obtain ⟨fresh, x, value, further⟩ := own
        obtain ⟨p₁, read, slot⟩ := Parts.read_of_slot? (p := p) value
        have others : ∀ key ∈ k.fields, Takes key (p₁.slot key) (valuesOf key ms) (target key) := by
          intro key hkey
          have here := takes key hkey
          rw [Json.valuesOf_cons] at here
          rw [slot key]
          by_cases same : key = m.1
          · subst same
            rwa [if_pos rfl]
          · rw [if_neg (Ne.symm same)] at here
            rwa [if_neg same]
        obtain ⟨p', run, slots⟩ := ih.mpr others
        exact ⟨p', (Parts.ofMembers_field field).mpr ⟨fresh, p₁, read, run⟩, slots⟩
    · have unknown : (!k.fields.contains m.1) = true := by simpa using field
      rw [Parts.ofMembers, if_pos unknown, ih]
      refine forall₂_congr fun key hkey => ?_
      have other : m.1 ≠ key := fun same => field (same ▸ hkey)
      rw [Json.valuesOf_cons, if_neg other]

theorem Parts.get_iff {s : String} (plain : key ≠ timeKey) :
    p.get key = .ok s ↔ p.slot key = some (.text s) := by
  rw [get, slot, if_neg plain]
  cases p.texts.find? fun t => t.1 == key with
  | none => simp
  | some t => simp

theorem Parts.getTime_iff {i : Instant} : p.getTime = .ok i ↔ p.slot timeKey = some (.time i) := by
  rw [getTime, slot, if_pos rfl]
  cases p.time with
  | none => simp
  | some j => simp

/-- An event is made of fields that have been read, each in its place. -/
theorem Parts.toEvent_iff : p.toEvent k = .ok e ↔
    e.kind = k ∧ ∀ f ∈ k.fields.zip e.slots, p.slot f.1 = some f.2 := by
  have id {s : String} : p.get "plugin_id" = .ok s ↔ _ := p.get_iff (by decide)
  have version {s : String} : p.get "version" = .ok s ↔ _ := p.get_iff (by decide)
  have error {s : String} : p.get "error" = .ok s ↔ _ := p.get_iff (by decide)
  have source {s : String} : p.get "source" = .ok s ↔ _ := p.get_iff (by decide)
  have type {s : String} : p.get "event_type" = .ok s ↔ _ := p.get_iff (by decide)
  have payload {s : String} : p.get "payload" = .ok s ↔ _ := p.get_iff (by decide)
  have time {i : Instant} := p.getTime_iff (i := i)
  cases k <;> cases e <;>
    simp [Parts.toEvent, bind_eq_ok_iff, id, version, error, source, type, payload, time,
      Event.kind, Kind.fields, slots, timeKey]

end Fields

/-! ## Events of members -/

section Says

variable {k : Kind} {v : Value} {e : Event} {ms : List (String × Value)} {key : String}

theorem kindOf?_eq_some_iff : kindOf? v = some k ↔ v = .string k.name := by
  constructor
  · intro named
    cases v with
    | string s =>
      have same := List.find?_some named
      rw [beq_iff_eq.mp same]
    | _ => cases named
  · rintro rfl
    exact Kind.ofName?_name k

theorem slot_empty (key : String) : ({} : Parts).slot key = none := by
  rw [Parts.slot]
  split <;> rfl

/-- Every field of an event is something. -/
theorem mem_zip_slots (hkey : key ∈ e.kind.fields) : ∃ x, (key, x) ∈ e.kind.fields.zip e.slots := by
  have long : e.kind.fields.length ≤ e.slots.length := by cases e <;> exact Nat.le_refl _
  rw [← List.map_fst_zip long] at hkey
  obtain ⟨⟨_, x⟩, hf, rfl⟩ := List.mem_map.mp hkey
  exact ⟨x, hf⟩

/-- No field is called as the kind is. -/
theorem ne_kindKey_of_mem_fields (hkey : key ∈ k.fields) : key ≠ kindKey := by
  rintro rfl
  cases k <;> simp [Kind.fields, kindKey] at hkey

/-- An event is read from members if and only if they stand for it. -/
theorem ofMembers?_eq_some_iff : ofMembers? ms = some e ↔ Says ms e := by
  have values {key : String} (hkey : key ∈ e.kind.fields) :
      valuesOf key (ms.filter fun m => m.1 ≠ kindKey) = valuesOf key ms :=
    valuesOf_filter_kindKey (ne_kindKey_of_mem_fields hkey)
  constructor
  · intro read
    obtain ⟨⟨kind, others⟩, gathered, read⟩ := Option.bind_eq_some_iff.mp read
    obtain ⟨k, rfl, read⟩ := Option.bind_eq_some_iff.mp read
    obtain ⟨⟨v, one, named⟩, rfl⟩ := gather?_none_iff.mp gathered
    obtain ⟨p, run, event⟩ := bind_eq_ok_iff.mp (toOption_eq_some_iff.mp read)
    obtain ⟨rfl, slots⟩ := Parts.toEvent_iff.mp event
    refine ⟨by rw [one, kindOf?_eq_some_iff.mp named], fun f hf => ?_⟩
    have hkey : f.1 ∈ e.kind.fields := (List.of_mem_zip hf).1
    have takes := (ofMembers_iff p.slot).mp ⟨p, run, fun _ _ => rfl⟩ f.1 hkey
    rw [values hkey, slots f hf, slot_empty] at takes
    rcases takes with ⟨-, nothing⟩ | ⟨v, x, one, -, value, same⟩
    · cases nothing
    · exact ⟨v, one, value.trans same.symm⟩
  · rintro ⟨kind, fields⟩
    have gathered := gather?_none_iff.mpr ⟨⟨_, kind, kindOf?_eq_some_iff.mpr rfl⟩, rfl⟩
    -- Each field is to be what its value is read as.
    have takes : ∀ key ∈ e.kind.fields, Takes key (({} : Parts).slot key)
        (valuesOf key (ms.filter fun m => m.1 ≠ kindKey))
        ((valuesOf key ms).head?.bind (slot? key)) := by
      intro key hkey
      obtain ⟨x, hx⟩ := mem_zip_slots hkey
      obtain ⟨v, one, value⟩ := fields _ hx
      rw [values hkey, one]
      exact .inr ⟨v, x, rfl, slot_empty key, value, value⟩
    obtain ⟨p, run, slots⟩ := (ofMembers_iff _).mpr takes
    have event : p.toEvent e.kind = .ok e := by
      refine Parts.toEvent_iff.mpr ⟨rfl, fun f hf => ?_⟩
      obtain ⟨v, one, value⟩ := fields f hf
      rw [slots f.1 (List.of_mem_zip hf).1, one]
      exact value
    refine Option.bind_eq_some_iff.mpr ⟨_, gathered, Option.bind_eq_some_iff.mpr ⟨_, rfl, ?_⟩⟩
    exact toOption_eq_some_iff.mpr (bind_eq_ok_iff.mpr ⟨p, run, event⟩)

/-- A text of an object is read as the event that its members stand for. -/
theorem ofBytes_of_members {ds : List (List UInt16 × Doc)} {bytes : List UInt8} (text : (Doc.object ds).IsText bytes)
    (values : namedValues? (Json.depthLimit - 1) ds = some ms) (said : Says ms e) :
    ofBytes bytes = .ok e := by
  obtain ⟨w, t, w', blank, spells, blank', text⟩ := text
  obtain ⟨⟨kind, others⟩, gathered, event⟩ :=
    Option.bind_eq_some_iff.mp (ofMembers?_eq_some_iff.mpr said)
  obtain ⟨k, rfl, event⟩ := Option.bind_eq_some_iff.mp event
  obtain ⟨c, read, left⟩ := readBody_reads blank spells values gathered (Json.at_ofBytes.mpr text)
  simp only [ofBytes, read, bind, Except.bind, toOption_eq_some_iff.mp event,
    Json.finish_ok blank' left]

end Says

end PluginHost.Event
