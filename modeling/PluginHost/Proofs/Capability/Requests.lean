import PluginHost.Proofs.Capability.Mask

/-!
# Requests on one grant

A grant may be asked by any number of callers, one call after another. Only a request can change
it, and whether a request is accepted is settled by the ceiling when the grant is made. So what a
grant holds in the end is a union, and the order of the calls has no part in it.

A request that is accepted in part is not accepted at all: for the bits of two requests together
it takes that both would be accepted.

Results:
1. `Grant.after_eq`: the grant after any calls, in closed form.
2. `Grant.accepts_iff_bits` and `Grant.accepts_or`: which requests are accepted.
3. `Grant.answer_of_more`: an answer of yes stays.
4. `grants_are_unions`: all that can be asked of a grant, by whomever and in any order.
-/

namespace PluginHost

namespace Grant

/-! ## Definitions -/

/-- What a caller asks of a grant. -/
inductive Ask
  | request (m : Mask)
  | hasAny (m : Mask)
  | has (c : Capability)
  | satisfies (m : Mask)
  deriving DecidableEq, Repr

/-- A call, and who makes it. -/
structure Query (ι : Type) where
  caller : ι
  ask : Ask
  deriving DecidableEq, Repr

/-- The answer to a call, and the grant afterwards. -/
def answer (g : Grant) : Ask → Bool × Grant
  | .request m => g.request m
  | .hasAny m => (g.hasAny m, g)
  | .has c => (g.has c, g)
  | .satisfies m => (g.satisfies m, g)

section calls

variable {ι : Type}

/-- The grant after calls, in the order in which they come to it. -/
def after (g : Grant) (queries : List (Query ι)) : Grant :=
  queries.foldl (fun g q => (g.answer q.ask).2) g

/-- The mask that is asked for, if the call is a request. -/
def Query.mask? (q : Query ι) : Option Mask :=
  match q.ask with
  | .request m => some m
  | _ => none

/-- The masks that are asked for, in order. -/
def requests (queries : List (Query ι)) : List Mask :=
  queries.filterMap Query.mask?

/-- The masks that are asked for and answered with yes, in order. -/
def accepted (g : Grant) : List (Query ι) → List Mask
  | [] => []
  | q :: rest =>
    let more := (g.answer q.ask).2.accepted rest
    match q.mask? with
    | some m => if (g.answer q.ask).1 then m :: more else more
    | none => more

end calls

/-! ## Which requests are accepted -/

variable {ι : Type} {g g' : Grant} {m a b : Mask}

theorem accepts_iff_bits :
    g.accepts m = true ↔ ∀ i, m.getLsbD i = true → i < 10 ∧ g.ceiling.getLsbD i = true := by
  simp only [accepts_iff, Mask.satisfies_iff_bits, Mask.getLsbD_known, decide_eq_true_eq, imp_and,
    forall_and]

/-- A request for the bits of two masks is accepted if one for each of them would be. -/
theorem accepts_or : g.accepts (a ||| b) = (g.accepts a && g.accepts b) := by
  rw [Bool.eq_iff_iff, Bool.and_eq_true, accepts_iff, accepts_iff, accepts_iff,
    Mask.satisfies_or_iff, Mask.satisfies_or_iff]
  exact and_and_and_comm

/-! ## One call -/

@[simp] theorem answer_ceiling (g : Grant) (ask : Ask) : (g.answer ask).2.ceiling = g.ceiling := by
  cases ask with
  | request m => exact g.request_ceiling m
  | _ => rfl

theorem answer_request (g : Grant) (m : Mask) : (g.answer (.request m)).1 = g.accepts m :=
  g.request_fst m

/-- The grant after a call, with what was accepted of the call. -/
theorem answer_eq (g : Grant) (q : Query ι) : (g.answer q.ask).2 =
    { g with granted := g.granted ||| Mask.union (q.mask?.toList.filter g.accepts) } := by
  obtain ⟨caller, ask⟩ := q
  cases ask with
  | request m =>
    cases accepted : g.accepts m with
    | true => simp [answer, request_accepted accepted, Query.mask?, accepted, Mask.union]
    | false => simp [answer, request_denied accepted, Query.mask?, accepted, Mask.union]
  | _ => simp [answer, Query.mask?, Mask.union]

/-- Nothing but an accepted request changes a grant. -/
theorem answer_of_not_accepted {ask : Ask}
    (idle : (∀ m, ask ≠ .request m) ∨ (g.answer ask).1 = false) : (g.answer ask).2 = g := by
  cases ask with
  | request m =>
    have denied : g.accepts m = false :=
      idle.elim (fun other => absurd rfl (other m)) (fun no => (g.answer_request m).symm.trans no)
    exact congrArg Prod.snd (request_denied denied)
  | _ => rfl

/-- A grant that holds more has something of whatever it had something of. -/
theorem hasAny_of_more (more : g'.granted.satisfies g.granted = true) (held : g.hasAny m = true) :
    g'.hasAny m = true :=
  Mask.meets_of_satisfies more held

/-- A grant that holds more, under the same ceiling, answers with yes whatever it did before. -/
theorem answer_of_more {ask : Ask} (ceiling : g'.ceiling = g.ceiling)
    (more : g'.granted.satisfies g.granted = true) (yes : (g.answer ask).1 = true) :
    (g'.answer ask).1 = true := by
  cases ask with
  | request m =>
    rw [answer_request] at yes ⊢
    rw [accepts_congr ceiling, yes]
  | hasAny m => exact hasAny_of_more more yes
  | has c => exact Mask.meets_of_satisfies more yes
  | satisfies m => exact Mask.satisfies_trans more yes

/-! ## Calls one after the other -/

theorem after_append (g : Grant) (done more : List (Query ι)) :
    g.after (done ++ more) = (g.after done).after more :=
  List.foldl_append ..

theorem requests_append (done more : List (Query ι)) :
    requests (done ++ more) = requests done ++ requests more :=
  List.filterMap_append ..

/-- What a grant comes to hold: what it held, and all that it accepts of what is asked for. -/
theorem after_eq (g : Grant) (queries : List (Query ι)) : g.after queries =
    { g with granted := g.granted ||| Mask.union ((requests queries).filter g.accepts) } := by
  induction queries generalizing g with
  | nil => simp [after, requests, Mask.union]
  | cons q rest ih =>
    have head : requests (q :: rest) = q.mask?.toList ++ requests rest := by
      cases mask : q.mask? <;> simp [requests, mask]
    have next : (g.answer q.ask).2.accepts = g.accepts := funext (accepts_congr (by simp))
    rw [after, List.foldl_cons, ← after, ih, next, answer_eq, head, List.filter_append,
      Mask.union_append, BitVec.or_assoc]

@[simp] theorem after_ceiling (g : Grant) (queries : List (Query ι)) :
    (g.after queries).ceiling = g.ceiling := by
  rw [after_eq]

theorem after_accepts (g : Grant) (queries : List (Query ι)) :
    (g.after queries).accepts = g.accepts :=
  funext (accepts_congr (g.after_ceiling queries))

/-- What is answered with yes is what the ceiling lets pass. -/
theorem accepted_eq (g : Grant) (queries : List (Query ι)) :
    g.accepted queries = (requests queries).filter g.accepts := by
  induction queries generalizing g with
  | nil => rfl
  | cons q rest ih =>
    have next : (g.answer q.ask).2.accepts = g.accepts := funext (accepts_congr (by simp))
    obtain ⟨caller, ask⟩ := q
    cases ask with
    | request m =>
      simp only [accepted, ih, next, answer_request, requests, Query.mask?, List.filterMap_cons,
        List.filter_cons]
    | _ => simp only [accepted, ih, next, requests, Query.mask?, List.filterMap_cons]

/-- Nothing is lost by further calls. -/
theorem after_satisfies (g : Grant) (done more : List (Query ι)) :
    (g.after (done ++ more)).granted.satisfies (g.after done).granted = true := by
  rw [after_append, after_eq (g.after done)]
  exact Mask.or_satisfies _ _

/-- Where the same masks are asked for, in whatever order and however often, grants come to the
same. -/
theorem after_congr {done done' : List (Query ι)}
    (same : ∀ m, m ∈ requests done ↔ m ∈ requests done') : g.after done = g.after done' := by
  rw [after_eq, after_eq]
  congr 2
  exact Mask.union_congr fun m => by rw [List.mem_filter, List.mem_filter, same]

/-- Two requests that are answered alike may be made as one. -/
theorem after_merged (alike : g.accepts a = g.accepts b) (i j k : ι) (done rest : List (Query ι)) :
    g.after (done ++ ⟨i, .request a⟩ :: ⟨j, .request b⟩ :: rest) =
      g.after (done ++ ⟨k, .request (a ||| b)⟩ :: rest) := by
  have apart : requests (⟨i, .request a⟩ :: ⟨j, .request b⟩ :: rest) = [a, b] ++ requests rest := rfl
  have merged : requests (⟨k, .request (a ||| b)⟩ :: rest) = [a ||| b] ++ requests rest := rfl
  have same : Mask.union ([a, b].filter g.accepts) = Mask.union ([a ||| b].filter g.accepts) := by
    cases yes : g.accepts b <;> simp [accepts_or, alike, yes, Mask.union]
  rw [after_eq, after_eq, requests_append, requests_append, apart, merged]
  simp only [List.filter_append, Mask.union_append, same]

/-- What has been accepted is there at every later point. -/
theorem after_holds (yes : g.accepts m = true) (i : ι) (done more : List (Query ι)) :
    (g.after (done ++ ⟨i, .request m⟩ :: more)).granted.satisfies m = true := by
  have asked : m ∈ (requests (done ++ ⟨i, .request m⟩ :: more)).filter g.accepts := by
    refine List.mem_filter.mpr ⟨?_, yes⟩
    rw [requests_append]
    exact List.mem_append_right _ List.mem_cons_self
  rw [after_eq]
  exact Mask.satisfies_trans (Mask.or_satisfies_right _ _) (Mask.union_satisfies asked)

end Grant

/-! ## Any calls -/

open Grant in
/-- **Grants are unions.** Whatever is asked of a new grant, by whomever and in what order:
* a request is accepted exactly if each of its bits is known and under the ceiling, whatever was
  asked before;
* a call that is no accepted request leaves the grant as it is;
* at any moment the grant holds what is known and allowed of its first request, and the masks
  that it accepted since;
* so it comes to the same if the same masks are asked for in another order, by other callers, or
  more often;
* a request for the bits of two masks is accepted if both would be, and where the two are
  answered alike, it comes to the same as they do;
* what is accepted is there from then on, all of it and each capability in it;
* an answer of yes is given again at every later moment. -/
theorem grants_are_unions {ι : Type} (plugin : String) (requested ceiling : Mask) :
    let g := Grant.new plugin requested ceiling
    (∀ (done : List (Query ι)) (m : Mask), ((g.after done).answer (.request m)).1 = true ↔
      ∀ i, m.getLsbD i = true → i < 10 ∧ ceiling.getLsbD i = true) ∧
    (∀ (done : List (Query ι)) (ask : Ask),
      (∀ m, ask ≠ .request m) ∨ ((g.after done).answer ask).1 = false →
      ((g.after done).answer ask).2 = g.after done) ∧
    (∀ done : List (Query ι), (g.after done).granted =
      (requested &&& Mask.known &&& ceiling) ||| Mask.union (g.accepted done)) ∧
    (∀ done done' : List (Query ι), (∀ m, m ∈ requests done ↔ m ∈ requests done') →
      g.after done = g.after done') ∧
    (∀ (done : List (Query ι)) (a b : Mask),
      let answerTo (m : Mask) : Bool := ((g.after done).answer (.request m)).1
      answerTo (a ||| b) = (answerTo a && answerTo b) ∧
      (answerTo a = answerTo b → ∀ (i j k : ι) (rest : List (Query ι)),
        g.after (done ++ ⟨i, .request a⟩ :: ⟨j, .request b⟩ :: rest) =
          g.after (done ++ ⟨k, .request (a ||| b)⟩ :: rest))) ∧
    (∀ (done more : List (Query ι)) (i : ι) (m : Mask),
      ((g.after done).answer (.request m)).1 = true →
      let later := g.after (done ++ ⟨i, .request m⟩ :: more)
      (later.answer (.satisfies m)).1 = true ∧
        ∀ c : Capability, m.has c = true → (later.answer (.has c)).1 = true) ∧
    (∀ (done more : List (Query ι)) (ask : Ask), ((g.after done).answer ask).1 = true →
      ((g.after (done ++ more)).answer ask).1 = true) := by
  intro g
  have answers (done : List (Query ι)) (m : Mask) :
      ((g.after done).answer (.request m)).1 = g.accepts m := by
    rw [answer_request, after_accepts]
  refine ⟨fun done m => ?_, fun done ask => answer_of_not_accepted, fun done => ?_,
    fun done done' => after_congr, fun done a b => ⟨?_, fun alike => ?_⟩,
    fun done more i m yes => ?_, fun done more ask => ?_⟩
  · rw [answers]
    exact accepts_iff_bits
  · rw [after_eq, accepted_eq]
    rfl
  · simp only [answers, accepts_or]
  · simp only [answers] at alike
    exact fun i j k => after_merged alike i j k done
  · rw [answers] at yes
    have holds := after_holds yes i done more
    exact ⟨holds, fun c owned => Mask.meets_of_satisfies holds owned⟩
  · exact answer_of_more (by simp) (g.after_satisfies done more)

namespace Shared

/-- A grant of one capability, under a ceiling of two and a bit that no capability owns. -/
def grant : Grant := .new "org.shared" 0x401#64 0x403#64

/-- Two callers at a time. One asks for the second capability, the other for things that are
not to be had, until it asks for the same. -/
def calls : List (Grant.Query Bool) :=
  [⟨true, .request 0x402#64⟩, ⟨false, .request 2#64⟩, ⟨true, .request 6#64⟩, ⟨false, .hasAny 2#64⟩,
    ⟨true, .request 2#64⟩]

end Shared

/-- The grant comes to the same when the calls come to it the other way round, and when what is
asked for one after the other is asked for at once. -/
theorem shared_grant_is_union :
    Shared.grant.accepted Shared.calls = [2#64, 2#64] ∧
    (Shared.grant.after Shared.calls).granted = 3#64 ∧
    Shared.grant.after Shared.calls.reverse = Shared.grant.after Shared.calls ∧
    Shared.grant.after [⟨true, .request 1#64⟩, ⟨false, .request 2#64⟩] =
      Shared.grant.after [⟨true, .request 3#64⟩] := by
  obtain ⟨-, -, holds, order, merged, -⟩ :=
    grants_are_unions (ι := Bool) "org.shared" 0x401#64 0x403#64
  have given : Shared.grant.accepted Shared.calls = [2#64, 2#64] := by decide
  refine ⟨given, ?_, ?_, ?_⟩
  · exact (holds Shared.calls).trans (by decide)
  · exact order _ _ fun m => by simp [Grant.requests]
  · exact (merged [] 1#64 2#64).2 (by decide) true false true []

/-- A grant may be asked for something that it accepts and something that it does not. Asked for
both at once, it gives nothing. -/
theorem mixed_requests_differ_merged :
    let g := Grant.new "org.shared" 0#64 2#64
    (g.after [⟨(), .request 1#64⟩, ⟨(), .request 2#64⟩]).granted = 2#64 ∧
      (g.after [⟨(), .request (1#64 ||| 2#64)⟩]).granted = 0#64 := by
  decide

end PluginHost
