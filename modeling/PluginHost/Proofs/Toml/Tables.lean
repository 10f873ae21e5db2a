import PluginHost.Toml.Tree
import PluginHost.Toml.Writer

/-!
# Tables that sections add

A section states a table and gives it its entries. Where the table is new and no key stands
twice, it is added after the others, with the entries in their order.

* `Entry.value` and `Section.value` are what is written, and `Section.node` is the table that a
  section makes.
* `Section.enter` is what a section does to the tables that are there.

Results:
1. `Members.below_below`: two things are done to a table one after the other.
2. `Section.enter_eq`: a section is entered where its table is.
3. `Section.enter_top` and `Section.enter_sub`: a new table is added with its entries.
-/

namespace PluginHost.Toml

/-! ## Definitions -/

/-- The value that an entry is written for. -/
def Entry.value : Entry → Value
  | .boolean b => .boolean b
  | .count n => .integer n
  | .string s => .string s
  | .strings ss => .array (ss.map .string)

/-- The members that entries make. -/
def leaves (es : List (String × Entry)) : Members :=
  es.map fun e => (e.1, .leaf e.2.value)

/-- The values that entries are written for. -/
def written (es : List (String × Entry)) : List (String × Value) :=
  es.map fun e => (e.1, e.2.value)

/-- The table that a new section makes. -/
def Section.node (s : Section) : Node :=
  .table .stated (leaves s.entries)

/-- The table that a section is written for. -/
def Section.value (s : Section) : Value :=
  .table (inOrder (written s.entries))

/-- What a section does to the tables that are there: it states its own, and gives it its
entries. -/
def Section.enter (root : Members) (s : Section) : Option Members := do
  let root ← root.state s.path
  s.entries.foldlM (fun root e => root.below s.path (·.assign [e.1] e.2.value)) root

/-- What a section does to the table that its own belongs to. -/
def Members.enterKey (key : String) (es : List (String × Entry)) (ms : Members) :
    Option Members := do
  let ms ← ms.stateKey key
  es.foldlM (fun ms e => ms.below [key] (·.assign [e.1] e.2.value)) ms

namespace Members

variable {key : String} {n n' : Node} {ms : Members}

/-! ## Members -/

theorem get?_set (key : String) (n : Node) (ms : Members) : (ms.set key n).get? key = some n := by
  induction ms with
  | nil => rw [set, get?, if_pos rfl]
  | cons m ms ih =>
    rw [set]
    split
    case isTrue same => rw [get?, if_pos rfl]
    case isFalse other => rw [get?, if_neg other, ih]

theorem set_set (key : String) (n n' : Node) (ms : Members) :
    (ms.set key n).set key n' = ms.set key n' := by
  induction ms with
  | nil => simp [set]
  | cons m ms ih =>
    rw [set, set]
    split
    case isTrue same => rw [set, if_pos rfl]
    case isFalse other => rw [set, if_neg other, ih]

theorem get?_eq_none : ms.get? key = none ↔ key ∉ ms.map (·.1) := by
  induction ms with
  | nil => simp [get?]
  | cons m ms ih =>
    rw [get?]
    split
    case isTrue same => simp [same]
    case isFalse other => simp [ih, Ne.symm other]

theorem set_of_new (new : ms.get? key = none) (n : Node) : ms.set key n = ms ++ [(key, n)] := by
  induction ms with
  | nil => rfl
  | cons m ms ih =>
    rw [get?] at new
    split at new
    · cases new
    case isFalse other => rw [set, if_neg other, ih new, List.cons_append]

/-! ## Paths -/

/-- A path goes on in the members `inner` of a key, and what they become is put in their
place. -/
structure GoesOn (key : String) (ms inner : Members) (wrap : Members → Node) : Prop where
  below : ∀ rest f, ms.below (key :: rest) f =
    (inner.below rest f).map fun made => ms.set key (wrap made)
  again : ∀ made rest f, (ms.set key (wrap made)).below (key :: rest) f =
    (made.below rest f).map fun made => ms.set key (wrap made)

/-- Unless a key has a value, a path goes on in it. -/
theorem goesOn (key : String) (ms : Members) :
    (∃ inner wrap, GoesOn key ms inner wrap) ∨ ∀ rest f, ms.below (key :: rest) f = none := by
  cases found : ms.get? key with
  | none =>
    refine .inl ⟨[], .table .implied, fun _ _ => by rw [Members.below, found], fun _ _ _ => ?_⟩
    simp only [Members.below, get?_set, set_set]
  | some n =>
    cases n with
    | leaf v => exact .inr fun _ _ => by rw [Members.below, found]
    | table origin inner =>
      refine .inl ⟨inner, .table origin, fun _ _ => by rw [Members.below, found], fun _ _ _ => ?_⟩
      simp only [Members.below, get?_set, set_set]
    | tables items =>
      refine .inl ⟨items.getLast?.getD [], fun last => .tables (items.dropLast ++ [last]),
        fun _ _ => by rw [Members.below, found], fun _ _ _ => ?_⟩
      simp [Members.below, get?_set, set_set]

/-- Two things are done to a table one after the other. -/
theorem below_below (path : List String) (f g : Members → Option Members) (ms : Members) :
    (ms.below path f).bind (·.below path g) = ms.below path fun ms => (f ms).bind g := by
  induction path generalizing ms with
  | nil => rfl
  | cons key rest ih =>
    rcases goesOn key ms with ⟨inner, wrap, goes⟩ | stops
    · rw [goes.below, goes.below, ← ih]
      cases inner.below rest f with
      | none => rfl
      | some made => exact goes.again made rest g
    · rw [stops, stops]
      rfl

/-- Several things are done to a table after another. -/
theorem below_foldlM {α : Type} (path : List String) (g : α → Members → Option Members)
    (as : List α) (f : Members → Option Members) (ms : Members) :
    (ms.below path f).bind (as.foldlM fun ms a => ms.below path (g a)) =
      ms.below path fun ms => (f ms).bind (as.foldlM fun ms a => g a ms) := by
  induction as generalizing f with
  | nil => simp [List.foldlM_nil, Option.pure_def]
  | cons a as ih =>
    have others := ih fun ms => (f ms).bind (g a)
    rw [← below_below, Option.bind_assoc] at others
    simp only [List.foldlM_cons, Option.bind_eq_bind] at others ⊢
    rw [others]
    simp only [Option.bind_assoc]

theorem below_append (path : List String) (key : String) (f : Members → Option Members)
    (ms : Members) : ms.below (path ++ [key]) f = ms.below path (·.below [key] f) := by
  induction path generalizing ms with
  | nil => rfl
  | cons k rest ih =>
    rcases goesOn k ms with ⟨inner, wrap, goes⟩ | stops
    · rw [List.cons_append, goes.below, goes.below, ih]
    · rw [List.cons_append, stops, stops]

/-! ## New tables -/

/-- Keys that are new are given their values in order. -/
theorem foldlM_assign {es : List (String × Entry)} {ms : Members}
    (distinct : (es.map (·.1)).Nodup) (new : ∀ e ∈ es, ms.get? e.1 = none) :
    es.foldlM (fun (ms : Members) e => ms.assign [e.1] e.2.value) ms = some (ms ++ leaves es) := by
  induction es generalizing ms with
  | nil => simp [leaves]
  | cons e es ih =>
    obtain ⟨other, distinct⟩ := List.nodup_cons.mp distinct
    obtain ⟨one, new⟩ := List.forall_mem_cons.mp new
    have first : ms.assign [e.1] e.2.value = some (ms ++ [(e.1, .leaf e.2.value)]) := by
      rw [assign, one, set_of_new one]
      rfl
    have others : ∀ e' ∈ es, (ms ++ [(e.1, .leaf e.2.value)] : Members).get? e'.1 = none := by
      intro e' mem
      have there : e'.1 ∈ es.map (·.1) := List.mem_map_of_mem mem
      have different : e'.1 ≠ e.1 := fun same => by
        rw [same] at there
        exact other there
      have absent := get?_eq_none.mp (new e' mem)
      simpa [get?_eq_none, different] using absent
    rw [List.foldlM_cons, first, Option.bind_eq_bind, Option.bind_some, ih distinct others]
    simp [leaves]

theorem foldlM_below (key : String) (origin : Origin) (es : List (String × Entry))
    (ms inner : Members) :
    es.foldlM (fun (ms : Members) e => ms.below [key] (·.assign [e.1] e.2.value))
        (ms.set key (.table origin inner)) =
      (es.foldlM (fun (ms : Members) e => ms.assign [e.1] e.2.value) inner).map fun made =>
        ms.set key (.table origin made) := by
  induction es generalizing inner with
  | nil => rfl
  | cons e es ih =>
    have first : (ms.set key (.table origin inner)).below [key] (·.assign [e.1] e.2.value) =
        (inner.assign [e.1] e.2.value).map fun made => ms.set key (.table origin made) := by
      simp only [below, get?_set, set_set]
    rw [List.foldlM_cons, List.foldlM_cons, first]
    cases inner.assign [e.1] e.2.value with
    | none => rfl
    | some made => exact ih made

/-- A new table is added with its entries. -/
theorem enterKey_new {es : List (String × Entry)} (distinct : (es.map (·.1)).Nodup)
    (new : ms.get? key = none) :
    enterKey key es ms = some (ms ++ [(key, .table .stated (leaves es))]) := by
  have entered := foldlM_below key .stated es ms []
  rw [foldlM_assign distinct fun _ _ => rfl] at entered
  simp only [enterKey, stateKey, new, Option.bind_eq_bind, Option.bind_some]
  rw [entered, Option.map_some, set_of_new new, List.nil_append]

end Members

/-- A section is entered where its table is. -/
theorem Section.enter_eq (path : List String) (key : String) (es : List (String × Entry))
    (root : Members) :
    Section.enter root ⟨path ++ [key], es⟩ = root.below path (·.enterKey key es) := by
  have stated : root.state (path ++ [key]) = root.below path (·.stateKey key) := by
    rw [Members.state, List.getLast?_concat, List.dropLast_concat]
  have entered := Members.below_foldlM path
    (fun e : String × Entry => (·.below [key] (·.assign [e.1] e.2.value))) es (·.stateKey key) root
  simp only [Section.enter, stated, Members.below_append]
  exact entered

/-- A section with a new key adds a table. -/
theorem Section.enter_top {s : Section} {key : String} {root : Members} (path : s.path = [key])
    (distinct : (s.entries.map (·.1)).Nodup) (new : root.get? key = none) :
    s.enter root = some (root ++ [(key, s.node)]) := by
  obtain ⟨_, es⟩ := s
  subst path
  exact (enter_eq [] key es root).trans (Members.enterKey_new distinct new)

/-- A section whose key is new in a table adds a table to it. -/
theorem Section.enter_sub {s : Section} {outer key : String} {root inner : Members}
    {origin : Origin} (path : s.path = [outer, key]) (distinct : (s.entries.map (·.1)).Nodup)
    (there : root.get? outer = some (.table origin inner)) (new : inner.get? key = none) :
    s.enter root = some (root.set outer (.table origin (inner ++ [(key, s.node)]))) := by
  obtain ⟨_, es⟩ := s
  subst path
  have entered := enter_eq [outer] key es root
  rw [Members.below, there] at entered
  simp only [Members.below, Members.enterKey_new distinct new, Option.map_some] at entered
  exact entered

/-! ## Values -/

theorem memberValues_append (ms ns : Members) :
    memberValues (ms ++ ns) = memberValues ms ++ memberValues ns := by
  induction ms with
  | nil => rfl
  | cons m ms ih => exact congrArg ((m.1, m.2.value) :: ·) ih

theorem memberValues_leaves (es : List (String × Entry)) :
    memberValues (leaves es) = written es := by
  induction es with
  | nil => rfl
  | cons e es ih => exact congrArg ((e.1, e.2.value) :: ·) ih

@[simp] theorem Section.node_value (s : Section) : s.node.value = s.value := by
  rw [node, Node.value, memberValues_leaves, value]

end PluginHost.Toml
