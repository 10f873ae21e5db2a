import PluginHost.Proofs.Capability.Requests
import PluginHost.Proofs.Host.Bindings

/-!
# Services behind a gate

A plugin may ask whether it holds a capability, and it may ask for a service that takes this
capability. The host answers the two questions in different places. They agree at every moment,
whatever has been called before, since both look at the grant of the caller and a grant changes in
one way only.

Results:
1. `Bindings.run_grants`: a grant after any calls on the host is that grant after the requests
   made through its own binding.
2. `Host.service?_eq_some_iff`: when a service is handed out.
3. `services_are_gated`: the two answers at every moment of a run, and how they can change.
-/

namespace PluginHost

/-! ## Definitions -/

/-- What a call asks of the grant of its caller. -/
def Call.ask? : Call → Option Grant.Ask
  | .has m => some (.hasAny m)
  | .request m => some (.request m)
  | _ => none

section calls

variable {ι σ : Type}

/-- What a call asks of the grant of a binding: nothing, if it is made through another one. -/
def TableCall.query? [DecidableEq ι] (i : ι) (c : TableCall ι) : Option (Grant.Query ι) :=
  if c.binding = some i then c.call.ask?.map fun ask => ⟨i, ask⟩ else none

/-- What calls ask of the grant of a binding, in order. -/
def Bindings.queries [DecidableEq ι] (i : ι) (calls : List (TableCall ι)) :
    List (Grant.Query ι) :=
  calls.filterMap (TableCall.query? i)

/-- What a call brings back that is made through a binding. -/
def Bindings.reply (host : Host) (b : Bindings ι σ) (i : ι) (call : Call) : Reply :=
  host.reply (some (b.grants i)) b.world call

end calls

/-! ## Grants of bindings -/

namespace Bindings

variable {ι σ : Type} (host : Host) {b : Bindings ι σ} {i : ι}

theorem reply_service (b : Bindings ι σ) (i : ι) (kind : ServiceKind) :
    b.reply host i (.service kind) = .service (host.service? kind (b.grants i)) := rfl

theorem reply_has (b : Bindings ι σ) (i : ι) (m : Mask) :
    b.reply host i (.has m) = .truth ((b.grants i).hasAny m) := rfl

theorem reply_request (b : Bindings ι σ) (i : ι) (m : Mask) :
    b.reply host i (.request m) = .truth ((b.grants i).request m).1 := rfl

variable [DecidableEq ι]

theorem queries_cons (i : ι) (c : TableCall ι) (rest : List (TableCall ι)) :
    queries i (c :: rest) = (c.query? i).toList ++ queries i rest := by
  cases query : c.query? i <;> simp [queries, query]

/-- A call does to the grant of a binding what it asks of it. -/
theorem make_grant (b : Bindings ι σ) (c : TableCall ι) (i : ι) :
    (b.make host c).grants i = (b.grants i).after (c.query? i).toList := by
  by_cases own : c.binding = some i
  · have bound : b.caller c = some (b.grants i) := by rw [caller, own, Option.map_some]
    refine Option.some.inj ((make_through host own).trans ?_)
    rw [bound, TableCall.query?, if_pos own]
    cases c.call <;> rfl
  · rw [make_hidden host own, TableCall.query?, if_neg own]
    rfl

/-- The grant of a binding after any calls on the host. -/
theorem run_grants (b : Bindings ι σ) (calls : List (TableCall ι)) (i : ι) :
    (b.run host calls).grants i = (b.grants i).after (queries i calls) := by
  induction calls generalizing b with
  | nil => rfl
  | cons c rest ih =>
    rw [queries_cons, Grant.after_append, ← make_grant host]
    exact ih (b.make host c)

theorem run_append (b : Bindings ι σ) (calls more : List (TableCall ι)) :
    b.run host (calls ++ more) = (b.run host calls).run host more :=
  List.foldl_append ..

/-- A binding loses nothing by further calls. -/
theorem run_satisfies (b : Bindings ι σ) (calls : List (TableCall ι)) (i : ι) :
    ((b.run host calls).grants i).granted.satisfies (b.grants i).granted = true := by
  rw [run_grants]
  exact (b.grants i).after_satisfies [] (queries i calls)

/-- A request that is denied leaves all grants as they are. -/
theorem make_denied {m : Mask} (time : Instant)
    (denied : b.reply host i (.request m) = .truth false) :
    (b.make host ⟨some i, time, .request m⟩).grants = b.grants := by
  rw [reply_request, Reply.truth.injEq] at denied
  funext j
  rw [make_grant, TableCall.query?]
  split
  · next own =>
    obtain rfl := Option.some.inj own
    exact Grant.answer_of_not_accepted (.inr denied)
  · rfl

end Bindings

/-! ## Services -/

/-- A service is handed out to the holder of a grant if it is there, it is not the user interface
of a host without one, and the grant has a capability that unlocks it. -/
theorem Host.service?_eq_some_iff {host : Host} {kind : ServiceKind} {g : Grant} {o : Service} :
    host.service? kind g = some o ↔ host.services.get? kind = some o ∧
      ¬ (kind = .ui ∧ host.headless = true) ∧ g.hasAny kind.required = true := by
  by_cases hidden : kind = .ui ∧ host.headless = true
  · simp [service?, hidden]
  · by_cases held : g.hasAny kind.required = true
    · simp [service?, hidden, held]
    · simp [service?, hidden, held]

/-- **Services are gated.** Whatever has been called on a host, through a binding `i` or through
others:
* at that moment a look-up through `i` gives an object exactly if this object is registered for
  the kind, the kind is not the user interface of a headless host, and a query for what the kind
  requires is answered with yes; what the plugin itself gets to know is whether there is one;
* what is handed out once is handed out at every later moment;
* a request through `i` that is denied changes no answer to a look-up, through whichever
  binding. -/
theorem services_are_gated {ι σ : Type} [DecidableEq ι] (host : Host) (b : Bindings ι σ)
    (calls : List (TableCall ι)) (i : ι) :
    let now := b.run host calls
    (∀ kind, ∃ object, now.reply host i (.service kind) = .service object ∧
      (host.answer (some (now.grants i)) now.world (.service kind)).1 = object.isSome ∧
      ∀ o, object = some o ↔ host.services.get? kind = some o ∧
        ¬ (kind = .ui ∧ host.headless = true) ∧
        now.reply host i (.has kind.required) = .truth true) ∧
    (∀ kind o, now.reply host i (.service kind) = .service (some o) → ∀ more,
      (b.run host (calls ++ more)).reply host i (.service kind) = .service (some o)) ∧
    (∀ m, now.reply host i (.request m) = .truth false → ∀ time j kind,
      (b.run host (calls ++ [⟨some i, time, .request m⟩])).reply host j (.service kind) =
        now.reply host j (.service kind)) := by
  intro now
  have later (more : List (TableCall ι)) : b.run host (calls ++ more) = now.run host more :=
    Bindings.run_append host b calls more
  simp only [later]
  refine ⟨fun kind => ⟨_, Bindings.reply_service host now i kind, rfl, fun o => ?_⟩,
    fun kind o here more => ?_, fun m denied time j kind => ?_⟩
  · rw [Host.service?_eq_some_iff, Bindings.reply_has, Reply.truth.injEq]
  · rw [Bindings.reply_service, Reply.service.injEq, Host.service?_eq_some_iff] at here ⊢
    obtain ⟨there, shown, held⟩ := here
    exact ⟨there, shown, Grant.hasAny_of_more (now.run_satisfies host more i) held⟩
  · rw [Bindings.reply_service, Bindings.reply_service]
    have same := Bindings.make_denied host time denied
    exact congrArg (fun grants => Reply.service (host.service? kind (grants j))) same

namespace Gated

/-- A host with a store and a user interface, which it does not show. -/
def host : Host :=
  { services := { storage := some ⟨"store"⟩, ui := some ⟨"screen"⟩ }, headless := true }

/-- One binding, which may have the store and the user interface and has asked for neither. -/
def bindings : Bindings Unit Unit where
  grants _ := .new "org.gated" 0#64 (Capability.storageRead.flag ||| Capability.uiPanel.flag)
  world := Parrot.world 4

def request (m : Mask) : TableCall Unit :=
  ⟨some (), ⟨⟨2024, 1, 1⟩, 0, 0⟩, .request m⟩

/-- A request for more than there is to have, and one that is accepted. -/
def calls : List (TableCall Unit) :=
  [request (Capability.storageRead.flag ||| Capability.storageWrite.flag),
    request (Capability.storageRead.flag ||| Capability.uiPanel.flag)]

end Gated

/-- The store is there once it may be read, and stays; a request for the network does not bring
the network with it. -/
theorem gated_store_is_handed_out :
    let moment (n : Nat) := Gated.bindings.run Gated.host (Gated.calls.take n)
    (moment 1).reply Gated.host () (.service .storage) = .service none ∧
    (moment 2).reply Gated.host () (.service .storage) = .service (some ⟨"store"⟩) ∧
    (moment 2).reply Gated.host () (.service .ui) = .service none ∧
    let more := [Gated.request Capability.peerNetwork.flag]
    (Gated.bindings.run Gated.host (Gated.calls ++ more)).reply Gated.host () (.service .storage) =
      .service (some ⟨"store"⟩) ∧
    (Gated.bindings.run Gated.host (Gated.calls ++ more)).reply Gated.host () (.service .network) =
      .service none := by
  intro moment
  obtain ⟨-, stays, denied⟩ := services_are_gated Gated.host Gated.bindings Gated.calls ()
  have given : (moment 2).reply Gated.host () (.service .storage) = .service (some ⟨"store"⟩) := by
    decide +kernel
  refine ⟨by decide +kernel, given, by decide +kernel, stays .storage _ given _, ?_⟩
  exact (denied _ (by decide +kernel) _ () .network).trans (by decide +kernel)

end PluginHost
