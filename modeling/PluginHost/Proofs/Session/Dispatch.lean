import PluginHost.Manager.Run
import PluginHost.Proofs.Plugin.Voice

/-!
# Handing out an event

An event is handed to the plugins that receive it, one after the other. Each of them is
called once, and whatever it does then, nothing but its grant and the journal, the log, the
bus and the state outside the host can have changed.

Result: `Manager.dispatchTo_dispatched`, which says all that handing out an event does.
Nothing else about it is unfolded elsewhere.
-/

namespace PluginHost

/-! ## Definitions -/

/-- The entry says that a plugin was handed an event. -/
def Entry.isEvent : Entry → Bool
  | .event _ _ _ => true
  | _ => false

/-- A plugin without what it has been granted. -/
def Managed.ungranted {σ : Type} (p : Managed σ) : Managed σ :=
  { p with grant := { p.grant with granted := 0#64 } }

/-- `p.Replies host type payload said`: with some grant of its own, in some world, the plugin
says `said` while it is handed an event. -/
def Managed.Replies {σ : Type} (p : Managed σ) (host : Host) (type payload : String)
    (said : List Event) : Prop :=
  ∃ g : Grant, g.plugin = p.grant.plugin ∧ ∃ w : World σ,
    said = w.said fun w => (p.interface.runEvent host p.handle type payload (some g) w).2

/-- What plugins say that are handed an event one after the other. -/
inductive Managed.InTurn {σ : Type} (host : Host) (type payload : String) :
    List (Managed σ) → List Event → Prop
  | nil : InTurn host type payload [] []
  | cons {p : Managed σ} {ps : List (Managed σ)} {said more : List Event}
      (one : p.Replies host type payload said) (others : InTurn host type payload ps more) :
      InTurn host type payload (p :: ps) (said ++ more)

namespace Manager

variable {σ : Type}

/-- The entries that are due for an event: if its texts can cross, one for each started
plugin that is not its source, in load order. -/
def deliveries (source : Option String) (type payload : String) (ps : List (Managed σ)) :
    List Entry :=
  if Terminated.hasNul type ∨ Terminated.hasNul payload then []
  else (ps.filter fun p => p.state = .initialized ∧ source ≠ some p.id).map fun p =>
    .event p.handle type payload

/-- `Dispatched host source type payload ps w events`: in the world `w`, an event is handed to
those of the plugins `ps` that receive it, and they say `events`.

* `speaks`: this is all that is published.
* `replies`: these are the replies of the plugins that receive it, one after the other.
* `same`: the plugins may have been granted more, and are otherwise the same.
* `handed`: each delivery that is due is made, once and in order. -/
structure Dispatched (host : Host) (source : Option String) (type payload : String)
    (ps : List (Managed σ)) (w : World σ) (events : List Event) : Prop where
  speaks : Speaks (dispatchTo host source type payload ps) w events
  replies : Managed.InTurn host type payload (ps.filter (receives source)) events
  same : (dispatchTo host source type payload ps w).2.1.map Managed.ungranted =
    ps.map Managed.ungranted
  handed : ∃ δ, (dispatchTo host source type payload ps w).2.2.journal = w.journal ++ δ ∧
    δ.filter Entry.isEvent = deliveries source type payload ps

end Manager

/-! ## One plugin -/

/-- The entry of an event is the only one that a plugin which is handed it leaves. -/
theorem Interface.runEvent_handed {σ : Type} (i : Interface σ) (host : Host) (h : Handle)
    (g : Grant) (w : World σ) (type payload : String) :
    ∃ δ, (i.runEvent host h type payload (some g) w).2.journal = w.journal ++ δ ∧
      δ.filter Entry.isEvent =
        if Terminated.hasNul type ∨ Terminated.hasNul payload then []
        else [.event h type payload] := by
  by_cases nul : Terminated.hasNul type ∨ Terminated.hasNul payload
  · refine ⟨[], ?_, by rw [if_pos nul]; rfl⟩
    rw [i.runEvent_of_nul host h w nul, List.append_nil]
  · rw [if_neg nul, i.runEvent_of_text host h w nul]
    obtain ⟨g', -, ran⟩ :=
      (i.event (some (Utf8.bytesOf type)) (some (Utf8.bytesOf payload))).run_ran host h g
        (w.note (.event h type payload))
    obtain ⟨δ, journal, answers, -⟩ := ran.journal
    have none : δ.filter Entry.isEvent = [] := by
      refine List.filter_eq_nil_iff.mpr fun e he => ?_
      obtain ⟨call, b, rfl⟩ := answers e he
      simp [Entry.isEvent]
    refine ⟨.event h type payload :: δ, ?_, ?_⟩
    · exact journal.trans (List.append_assoc ..)
    · rw [List.filter_cons_of_pos rfl, none]

theorem Managed.ungranted_eq {σ : Type} {p : Managed σ} {g : Grant} {w w' : World σ}
    (ran : Ran p.handle p.grant w g w') :
    ({ p with grant := g } : Managed σ).ungranted = p.ungranted := by
  simp only [ungranted, ran.plugin, ran.ceiling]

/-- Each event that is said in turn is said by one of the plugins. -/
theorem Managed.InTurn.exists_of_mem {σ : Type} {host : Host} {type payload : String}
    {ps : List (Managed σ)} {events : List Event} (inTurn : InTurn host type payload ps events)
    {e : Event} (he : e ∈ events) :
    ∃ p ∈ ps, ∃ said, p.Replies host type payload said ∧ e ∈ said := by
  induction inTurn with
  | nil => cases he
  | cons one _ ih =>
    rcases List.mem_append.mp he with he | he
    · exact ⟨_, List.mem_cons_self, _, one, he⟩
    · obtain ⟨p, hp, others⟩ := ih he
      exact ⟨p, List.mem_cons_of_mem _ hp, others⟩

/-! ## All plugins -/

namespace Manager

variable {σ : Type}

theorem dispatchTo_of_receives {source : Option String} {p : Managed σ}
    (receives : receives source p = true) (host : Host) (type payload : String)
    (rest : List (Managed σ)) (w : World σ) :
    let heard := p.interface.runEvent host p.handle type payload (some p.grant) w
    let after := dispatchTo host source type payload rest heard.2
    dispatchTo host source type payload (p :: rest) w =
      (after.1 + 1, { p with grant := grantAfter p.grant heard.1 } :: after.2.1, after.2.2) := by
  rw [dispatchTo, if_pos receives]

theorem dispatchTo_of_not_receives {source : Option String} {p : Managed σ}
    (receives : ¬ receives source p = true) (host : Host) (type payload : String)
    (rest : List (Managed σ)) (w : World σ) :
    let after := dispatchTo host source type payload rest w
    dispatchTo host source type payload (p :: rest) w = (after.1, p :: after.2.1, after.2.2) := by
  rw [dispatchTo, if_neg receives]

theorem receives_iff {source : Option String} {p : Managed σ} :
    receives source p = true ↔ p.state = .initialized ∧ source ≠ some p.id := by
  simp [receives]

/-- The deliveries to the first plugin come before the others. -/
theorem deliveries_cons (source : Option String) (type payload : String) (p : Managed σ)
    (rest : List (Managed σ)) : deliveries source type payload (p :: rest) =
      (if receives source p = true ∧ ¬ (Terminated.hasNul type ∨ Terminated.hasNul payload) then
        [.event p.handle type payload] else []) ++ deliveries source type payload rest := by
  unfold deliveries
  by_cases nul : Terminated.hasNul type ∨ Terminated.hasNul payload
  · simp [nul]
  · by_cases here : p.state = .initialized ∧ source ≠ some p.id
    · simp [nul, here, receives_iff]
    · simp [nul, here, receives_iff]

/-- Whatever plugins do when they are handed an event, it is handed out as it should be. -/
theorem dispatchTo_dispatched (host : Host) (source : Option String) (type payload : String)
    (ps : List (Managed σ)) (w : World σ) :
    ∃ events, Dispatched host source type payload ps w events := by
  induction ps generalizing w with
  | nil =>
    refine ⟨[], fun _ => rfl, .nil, rfl, [], (List.append_nil _).symm, ?_⟩
    simp [deliveries]
  | cons p rest ih =>
    by_cases receives : receives source p = true
    · obtain ⟨events, -, speaks⟩ :=
        p.interface.runEvent_speaks host p.handle p.grant w type payload
      obtain ⟨g, w', heard, ran⟩ :=
        p.interface.runEvent_eq host p.handle p.grant w type payload
      have ungranted : ({ p with grant := g } : Managed σ).ungranted = p.ungranted :=
        ran.elim Managed.ungranted_eq Managed.ungranted_eq
      obtain ⟨δ, journal, handed⟩ :=
        p.interface.runEvent_handed host p.handle p.grant w type payload
      obtain ⟨more, speaks', replies, same, δ', journal', handed'⟩ :=
        ih (p.interface.runEvent host p.handle type payload (some p.grant) w).2
      refine ⟨events ++ more, fun bus => ?_, ?_, ?_, δ ++ δ', ?_, ?_⟩
      · have first := congrArg Prod.snd (speaks bus)
        simp only at first
        simp only [dispatchTo_of_receives receives, first, speaks' _, Bus.publishAll_append]
      · rw [List.filter_cons_of_pos receives]
        exact .cons ⟨p.grant, rfl, w, speaks.said.symm⟩ replies
      · rw [dispatchTo_of_receives receives, List.map_cons, same, List.map_cons, heard]
        simp only [grantAfter, Option.getD_some, ungranted]
      · simp only [dispatchTo_of_receives receives, journal', journal, List.append_assoc]
      · rw [List.filter_append, handed, handed', deliveries_cons]
        simp only [receives, true_and, ite_not]
    · obtain ⟨events, speaks, replies, same, δ, journal, handed⟩ := ih w
      refine ⟨events, fun bus => ?_, ?_, ?_, δ, ?_, ?_⟩
      · simp only [dispatchTo_of_not_receives receives, speaks bus]
      · rw [List.filter_cons_of_neg receives]
        exact replies
      · rw [dispatchTo_of_not_receives receives, List.map_cons, same, List.map_cons]
      · rw [dispatchTo_of_not_receives receives, journal]
      · rw [handed, deliveries_cons, if_neg fun h => receives h.1, List.nil_append]

/-- What plugins reply to an event are events of plugins. -/
theorem Dispatched.kind {host : Host} {source : Option String} {type payload : String}
    {ps : List (Managed σ)} {w : World σ} {events : List Event}
    (dispatched : Dispatched host source type payload ps w events) :
    ∀ e ∈ events, e.kind = .plugin := by
  intro e he
  obtain ⟨p, -, said, ⟨g, -, w', rfl⟩, he⟩ := dispatched.replies.exists_of_mem he
  obtain ⟨events, own, speaks⟩ := p.interface.runEvent_speaks host p.handle g w' type payload
  rw [speaks.said] at he
  exact (own e he).kind

end Manager

end PluginHost
