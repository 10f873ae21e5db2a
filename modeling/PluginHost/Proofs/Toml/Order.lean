import Mathlib.Data.String.Basic
import PluginHost.Toml.Reader

/-!
# Members in the order of their keys

However a document is written, the members of every table that is read stand in the order of
their keys, each key once.

* `Value.Ordered` says so of all tables in a value, and `Node.Ordered` of all values in a tree.

Results:
1. `inOrder_pairwise` and `inOrder_of_pairwise`: members are put in order, and stay as they
   are if they are in order.
2. `Members.Ordered.values`: the tables of a tree are put in order.
3. `ReadersOrdered.all`: every value that is read is in order.
4. `document?_ordered`: so is every document.
-/

namespace PluginHost.Toml

/-! ## Definitions -/

/-- In every table in the value, the members are in the order of their keys. -/
inductive Value.Ordered : Value → Prop
  | boolean (b : Bool) : Ordered (.boolean b)
  | integer (n : Int) : Ordered (.integer n)
  | float (bits : UInt64) : Ordered (.float bits)
  | string (s : String) : Ordered (.string s)
  | time (text : String) : Ordered (.time text)
  | array {items : List Value} (each : ∀ v ∈ items, Ordered v) : Ordered (.array items)
  | table {members : List (String × Value)} (order : members.Pairwise fun m n => m.1 < n.1)
      (each : ∀ m ∈ members, Ordered m.2) : Ordered (.table members)

/-- Every value in the node is in order. -/
inductive Node.Ordered : Node → Prop
  | leaf {v : Value} (ordered : v.Ordered) : Ordered (.leaf v)
  | table (origin : Origin) {members : List (String × Node)}
      (each : ∀ m ∈ members, Ordered m.2) : Ordered (.table origin members)
  | tables {items : List (List (String × Node))}
      (each : ∀ members ∈ items, ∀ m ∈ members, Ordered m.2) : Ordered (.tables items)

/-- Every value in the members is in order. -/
def Members.Ordered (ms : Members) : Prop :=
  ∀ m ∈ ms, m.2.Ordered

/-! ## Putting members in order -/

section put

variable {α : Type} {key : String} {a : α} {m : String × α} {ms : List (String × α)}

theorem mem_of_mem_put (mem : m ∈ put key a ms) : m = (key, a) ∨ m ∈ ms := by
  induction ms with
  | nil => exact .inl (List.mem_singleton.mp mem)
  | cons n ms ih =>
    rw [put] at mem
    split at mem
    · exact List.mem_cons.mp mem
    · split at mem
      · exact (List.mem_cons.mp mem).imp_right (List.mem_cons_of_mem n)
      · rcases List.mem_cons.mp mem with rfl | mem
        · exact .inr List.mem_cons_self
        · exact (ih mem).imp_right (List.mem_cons_of_mem n)

theorem put_pairwise (order : ms.Pairwise fun m n => m.1 < n.1) :
    (put key a ms).Pairwise fun m n => m.1 < n.1 := by
  induction ms with
  | nil => exact List.pairwise_singleton _ _
  | cons n ms ih =>
    obtain ⟨first, others⟩ := List.pairwise_cons.mp order
    rw [put]
    split
    case isTrue less =>
      refine List.pairwise_cons.mpr ⟨fun m hm => ?_, order⟩
      rcases List.mem_cons.mp hm with rfl | hm
      · exact less
      · exact less.trans (first m hm)
    case isFalse notLess =>
      split
      case isTrue same =>
        subst same
        exact List.pairwise_cons.mpr ⟨first, others⟩
      case isFalse other =>
        have greater : n.1 < key := lt_of_le_of_ne (not_lt.mp notLess) (Ne.symm other)
        refine List.pairwise_cons.mpr ⟨fun m hm => ?_, ih others⟩
        rcases mem_of_mem_put hm with rfl | hm
        · exact greater
        · exact first m hm

theorem mem_of_mem_inOrder (mem : m ∈ inOrder ms) : m ∈ ms := by
  induction ms with
  | nil => exact mem
  | cons n ms ih =>
    rcases mem_of_mem_put mem with rfl | mem
    · exact List.mem_cons_self
    · exact List.mem_cons_of_mem n (ih mem)

/-- Members that are put in order are in order. -/
theorem inOrder_pairwise (ms : List (String × α)) :
    (inOrder ms).Pairwise fun m n => m.1 < n.1 := by
  induction ms with
  | nil => exact List.Pairwise.nil
  | cons m ms ih => exact put_pairwise ih

/-- Members that are in order stay as they are. -/
theorem inOrder_of_pairwise (order : ms.Pairwise fun m n => m.1 < n.1) : inOrder ms = ms := by
  induction ms with
  | nil => rfl
  | cons m ms ih =>
    obtain ⟨first, others⟩ := List.pairwise_cons.mp order
    have rest : inOrder (m :: ms) = put m.1 m.2 ms := congrArg (put m.1 m.2) (ih others)
    rw [rest]
    cases ms with
    | nil => rfl
    | cons n ms => rw [put, if_pos (first n List.mem_cons_self)]

end put

/-! ## Trees -/

namespace Members.Ordered

variable {ms made : Members} {key : String} {n : Node} {v : Value}

theorem nil : Members.Ordered [] := fun _ mem => nomatch mem

theorem get? (ordered : ms.Ordered) (found : ms.get? key = some n) : n.Ordered := by
  induction ms with
  | nil => cases found
  | cons m ms ih =>
    rw [Members.get?] at found
    split at found
    · exact Option.some.inj found ▸ ordered m List.mem_cons_self
    · exact ih (fun m' mem => ordered m' (List.mem_cons_of_mem m mem)) found

theorem set (ordered : ms.Ordered) (one : n.Ordered) : (ms.set key n).Ordered := by
  induction ms with
  | nil => exact fun m mem => List.mem_singleton.mp mem ▸ one
  | cons m ms ih =>
    obtain ⟨first, others⟩ := List.forall_mem_cons.mp ordered
    rw [Members.set]
    split
    · exact List.forall_mem_cons.mpr ⟨one, others⟩
    · exact List.forall_mem_cons.mpr ⟨first, ih others⟩

/-- The last item of an array is in order, if it has one. -/
theorem last {items : List Members} (ordered : ∀ ms ∈ items, ms.Ordered) :
    Members.Ordered (items.getLast?.getD []) := by
  cases last : items.getLast? with
  | none => exact nil
  | some ms => exact ordered ms (List.mem_of_getLast? last)

theorem setLast {items : List Members} (each : ∀ ms ∈ items, ms.Ordered) (one : made.Ordered) :
    ∀ ms ∈ items.dropLast ++ [made], ms.Ordered := by
  intro ms mem
  rcases List.mem_append.mp mem with mem | mem
  · exact each ms (List.dropLast_subset items mem)
  · exact List.mem_singleton.mp mem ▸ one

theorem assign {path : List String} (ordered : ms.Ordered) (one : v.Ordered)
    (assigned : ms.assign path v = some made) : made.Ordered := by
  induction path generalizing ms made with
  | nil => cases assigned
  | cons key rest ih =>
    cases rest with
    | nil =>
      rw [Members.assign] at assigned
      split at assigned
      · cases assigned
      · exact Option.some.inj assigned ▸ ordered.set (.leaf one)
    | cons next rest =>
      rw [Members.assign] at assigned
      split at assigned
      case h_1 =>
        obtain ⟨inner, below, rfl⟩ := Option.map_eq_some_iff.mp assigned
        exact ordered.set (.table _ (ih nil below))
      case h_2 found =>
        split at assigned
        · cases assigned
        · obtain ⟨inner, below, rfl⟩ := Option.map_eq_some_iff.mp assigned
          cases ordered.get? found with
          | table origin each => exact ordered.set (.table _ (ih each below))
      case h_3 found =>
        split at assigned
        · cases assigned
        · obtain ⟨inner, below, rfl⟩ := Option.map_eq_some_iff.mp assigned
          cases ordered.get? found with
          | tables each => exact ordered.set (.tables (setLast each (ih (last each) below)))
      case h_4 => cases assigned

/-- What keeps a table in order keeps all of them in order. -/
theorem below {path : List String} {f : Members → Option Members}
    (keeps : ∀ ms made, ms.Ordered → f ms = some made → made.Ordered) (ordered : ms.Ordered)
    (done : ms.below path f = some made) : made.Ordered := by
  induction path generalizing ms made with
  | nil => exact keeps ms made ordered done
  | cons key rest ih =>
    rw [Members.below] at done
    split at done
    case h_1 =>
      obtain ⟨inner, below, rfl⟩ := Option.map_eq_some_iff.mp done
      exact ordered.set (.table _ (ih nil below))
    case h_2 found =>
      obtain ⟨inner, below, rfl⟩ := Option.map_eq_some_iff.mp done
      cases ordered.get? found with
      | table origin each => exact ordered.set (.table _ (ih each below))
    case h_3 found =>
      obtain ⟨inner, below, rfl⟩ := Option.map_eq_some_iff.mp done
      cases ordered.get? found with
      | tables each => exact ordered.set (.tables (setLast each (ih (last each) below)))
    case h_4 => cases done

theorem state {path : List String} (ordered : ms.Ordered) (stated : ms.state path = some made) :
    made.Ordered := by
  unfold Members.state at stated
  split at stated
  case h_1 => cases stated
  case h_2 key _ =>
    refine below (fun ms made ordered done => ?_) ordered stated
    unfold stateKey at done
    split at done
    case h_1 => exact Option.some.inj done ▸ ordered.set (.table _ nil)
    case h_2 found =>
      cases ordered.get? found with
      | table origin each => exact Option.some.inj done ▸ ordered.set (.table _ each)
    case h_3 => cases done

theorem addItem {path : List String} (ordered : ms.Ordered)
    (added : ms.addItem path = some made) : made.Ordered := by
  unfold Members.addItem at added
  split at added
  case h_1 => cases added
  case h_2 key _ =>
    refine below (fun ms made ordered done => ?_) ordered added
    unfold addItemKey at done
    split at done
    case h_1 =>
      refine Option.some.inj done ▸ ordered.set (.tables fun ms mem => ?_)
      exact List.mem_singleton.mp mem ▸ nil
    case h_2 found =>
      cases ordered.get? found with
      | tables each =>
        refine Option.some.inj done ▸ ordered.set (.tables fun ms mem => ?_)
        rcases List.mem_append.mp mem with mem | mem
        · exact each ms mem
        · exact List.mem_singleton.mp mem ▸ nil
    case h_3 => cases done

end Members.Ordered

theorem mem_memberValues {ms : Members} {m : String × Value} (mem : m ∈ memberValues ms) :
    ∃ n, (m.1, n) ∈ ms ∧ m.2 = n.value := by
  induction ms with
  | nil => cases mem
  | cons n ms ih =>
    rcases List.mem_cons.mp mem with rfl | mem
    · exact ⟨n.2, List.mem_cons_self, rfl⟩
    · obtain ⟨n', there, eq⟩ := ih mem
      exact ⟨n', List.mem_cons_of_mem n there, eq⟩

theorem itemValues_eq_map (items : List Members) :
    itemValues items = items.map fun ms => .table ms.values := by
  induction items with
  | nil => rfl
  | cons ms items ih => rw [itemValues, ih]; rfl

/-- The members of a table are in order when all of their values are. -/
theorem table_ordered {ms : Members} (each : ∀ m ∈ ms, m.2.value.Ordered) :
    Value.Ordered (.table ms.values) := by
  refine .table (inOrder_pairwise _) fun m mem => ?_
  obtain ⟨n, there, eq⟩ := mem_memberValues (mem_of_mem_inOrder mem)
  exact eq ▸ each (m.1, n) there

theorem Node.Ordered.value {n : Node} (ordered : n.Ordered) : n.value.Ordered := by
  induction ordered with
  | leaf one => exact one
  | table origin each ih => exact table_ordered ih
  | tables each ih =>
    rw [Node.value, itemValues_eq_map]
    refine .array fun v mem => ?_
    obtain ⟨ms, there, rfl⟩ := List.mem_map.mp mem
    exact table_ordered (ih ms there)

/-- The table of members that are in order is in order. -/
theorem Members.Ordered.values {ms : Members} (ordered : ms.Ordered) :
    Value.Ordered (.table ms.values) :=
  table_ordered fun m mem => (ordered m mem).value

/-! ## Readers -/

theorem scalar_ordered {cs rest : List Char} {v : Value} (read : scalar cs = some (v, rest)) :
    v.Ordered := by
  have of_word {word : List Char} (read : scalar? word = some v) : v.Ordered := by
    unfold scalar? at read
    split at read
    · exact Option.some.inj read ▸ .boolean _
    split at read
    · exact Option.some.inj read ▸ .boolean _
    split at read
    · split at read
      · exact Option.some.inj read ▸ .integer _
      · cases read
    split at read
    · exact Option.some.inj read ▸ .float _
    split at read
    · exact Option.some.inj read ▸ .time _
    · cases read
  obtain ⟨w, found, same⟩ := Option.map_eq_some_iff.mp read
  exact of_word (found.trans (congrArg some (Prod.mk.inj same).1))

/-- What is known of the readers of some fuel: what they read is in order. -/
structure ReadersOrdered (fuel : Nat) : Prop where
  value : ∀ {depth cs v rest}, value fuel depth cs = some (v, rest) → v.Ordered
  items : ∀ {depth cs vs rest}, items fuel depth cs = some (vs, rest) → ∀ v ∈ vs, v.Ordered
  entries : ∀ {depth ms cs made rest}, ms.Ordered →
    entries fuel depth ms cs = some (made, rest) → made.Ordered
  pair : ∀ {depth cs path v rest}, pair fuel depth cs = some (path, v, rest) → v.Ordered

namespace ReadersOrdered

variable {fuel depth : Nat} {cs rest : List Char} {v : Value}

theorem next_value (readers : ReadersOrdered fuel)
    (read : Toml.value (fuel + 1) depth cs = some (v, rest)) : v.Ordered := by
  rw [Toml.value.eq_def] at read
  dsimp only at read
  split at read
  · cases read
  split at read
  · obtain ⟨⟨s, left⟩, -, same⟩ := Option.map_eq_some_iff.mp read
    exact (Prod.mk.inj same).1 ▸ .string _
  split at read
  · split at read
    · cases read
    · obtain ⟨⟨vs, left⟩, inner, same⟩ := Option.map_eq_some_iff.mp read
      exact (Prod.mk.inj same).1 ▸ .array (readers.items inner)
  split at read
  · split at read
    · cases read
    · obtain ⟨⟨ms, left⟩, inner, same⟩ := Option.map_eq_some_iff.mp read
      exact (Prod.mk.inj same).1 ▸ (readers.entries .nil inner).values
  · exact scalar_ordered read

theorem next_items (readers : ReadersOrdered fuel) {vs : List Value}
    (read : Toml.items (fuel + 1) depth cs = some (vs, rest)) : ∀ v ∈ vs, v.Ordered := by
  rw [Toml.items.eq_def] at read
  dsimp only at read
  obtain ⟨cs₁, -, read⟩ := Option.bind_eq_some_iff.mp read
  split at read
  · obtain ⟨rfl, -⟩ := Prod.mk.inj (Option.some.inj read)
    exact fun _ mem => nomatch mem
  obtain ⟨⟨v, cs₂⟩, one, read⟩ := Option.bind_eq_some_iff.mp read
  obtain ⟨cs₃, -, read⟩ := Option.bind_eq_some_iff.mp read
  split at read
  · obtain ⟨⟨vs', left⟩, others, same⟩ := Option.bind_eq_some_iff.mp read
    obtain ⟨rfl, -⟩ := Prod.mk.inj (Option.some.inj same)
    exact List.forall_mem_cons.mpr ⟨readers.value one, readers.items others⟩
  · obtain ⟨rfl, -⟩ := Prod.mk.inj (Option.some.inj read)
    exact fun w mem => List.mem_singleton.mp mem ▸ readers.value one
  · cases read

theorem next_pair (readers : ReadersOrdered fuel) {path : List String}
    (read : Toml.pair (fuel + 1) depth cs = some (path, v, rest)) : v.Ordered := by
  rw [Toml.pair.eq_def] at read
  dsimp only at read
  obtain ⟨⟨path', cs₁⟩, -, read⟩ := Option.bind_eq_some_iff.mp read
  dsimp only at read
  split at read
  · obtain ⟨⟨v', left⟩, one, same⟩ := Option.bind_eq_some_iff.mp read
    obtain ⟨-, same⟩ := Prod.mk.inj (Option.some.inj same)
    exact (Prod.mk.inj same).1 ▸ readers.value one
  · cases read

theorem next_entries (readers : ReadersOrdered fuel) {ms made : Members} (ordered : ms.Ordered)
    (read : Toml.entries (fuel + 1) depth ms cs = some (made, rest)) : made.Ordered := by
  rw [Toml.entries.eq_def] at read
  dsimp only at read
  obtain ⟨cs₁, -, read⟩ := Option.bind_eq_some_iff.mp read
  split at read
  · obtain ⟨rfl, -⟩ := Prod.mk.inj (Option.some.inj read)
    exact ordered
  obtain ⟨⟨path, v, cs₂⟩, one, read⟩ := Option.bind_eq_some_iff.mp read
  obtain ⟨ms', assigned, read⟩ := Option.bind_eq_some_iff.mp read
  have ordered' := ordered.assign (readers.pair one) assigned
  obtain ⟨cs₃, -, read⟩ := Option.bind_eq_some_iff.mp read
  split at read
  · exact readers.entries ordered' read
  · split at read
    · obtain ⟨rfl, -⟩ := Prod.mk.inj (Option.some.inj read)
      exact ordered'
    · cases read
  · cases read

/-- What is read is in order, however much fuel there is. -/
theorem all (fuel : Nat) : ReadersOrdered fuel := by
  induction fuel with
  | zero =>
    constructor
    case value =>
      intro depth cs v rest read
      rw [Toml.value.eq_def] at read
      cases read
    case items =>
      intro depth cs vs rest read
      rw [Toml.items.eq_def] at read
      cases read
    case entries =>
      intro depth ms cs made rest ordered read
      rw [Toml.entries.eq_def] at read
      cases read
    case pair =>
      intro depth cs path v rest read
      rw [Toml.pair.eq_def] at read
      cases read
  | succ fuel ih => exact ⟨ih.next_value, ih.next_items, ih.next_entries, ih.next_pair⟩

end ReadersOrdered

/-- A line keeps the tables in order. -/
theorem line_ordered {fuel : Nat} {d d' : Draft} {cs rest : List Char} (ordered : d.root.Ordered)
    (read : line fuel d cs = some (d', rest)) : d'.root.Ordered := by
  unfold line at read
  split at read
  · obtain ⟨⟨path, left⟩, -, read⟩ := Option.bind_eq_some_iff.mp read
    obtain ⟨root, added, same⟩ := Option.bind_eq_some_iff.mp read
    obtain ⟨rfl, -⟩ := Prod.mk.inj (Option.some.inj same)
    exact ordered.addItem added
  · obtain ⟨⟨path, left⟩, -, read⟩ := Option.bind_eq_some_iff.mp read
    obtain ⟨root, stated, same⟩ := Option.bind_eq_some_iff.mp read
    obtain ⟨rfl, -⟩ := Prod.mk.inj (Option.some.inj same)
    exact ordered.state stated
  · obtain ⟨⟨path, v, left⟩, one, read⟩ := Option.bind_eq_some_iff.mp read
    obtain ⟨root, assigned, same⟩ := Option.bind_eq_some_iff.mp read
    obtain ⟨rfl, -⟩ := Prod.mk.inj (Option.some.inj same)
    have value := (ReadersOrdered.all _).pair one
    exact ordered.below (fun ms made kept done => kept.assign value done) assigned

theorem lines_ordered {fuel : Nat} {d d' : Draft} {cs : List Char} (ordered : d.root.Ordered)
    (read : lines fuel d cs = some d') : d'.root.Ordered := by
  induction fuel generalizing d cs with
  | zero => cases read
  | succ fuel ih =>
    rw [lines] at read
    obtain ⟨cs₁, -, read⟩ := Option.bind_eq_some_iff.mp read
    split at read
    · exact Option.some.inj read ▸ ordered
    obtain ⟨⟨d₁, cs₂⟩, one, read⟩ := Option.bind_eq_some_iff.mp read
    obtain ⟨cs₃, -, read⟩ := Option.bind_eq_some_iff.mp read
    exact ih (line_ordered ordered one) read

/-- The members of a document are in order. -/
theorem document?_ordered {text : String} {ms : List (String × Value)}
    (read : document? text = some ms) : Value.Ordered (.table ms) := by
  obtain ⟨d, whole, rfl⟩ := Option.map_eq_some_iff.mp read
  have start : Members.Ordered ({} : Draft).root := .nil
  exact (lines_ordered start whole).values

end PluginHost.Toml
