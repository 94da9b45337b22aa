import SubqlConcordium.ApiService
import SubqlConcordium.Interaction.Pool

/-!
# The law of retrying

What the proxy of an API object does with the outcomes of its attempts. As long as every new client
can be had, the attempts decide: all but the last have failed in a way worth another, and the last
is the outcome, after five attempts or because it need not be repeated. A client that cannot be had
ends the call there and then, for the new client is asked for outside the `try`.

An attempt is a call of the client whose result is awaited. That of an iterable hands it back at
once or throws, without a request, so there is nothing to repeat; what happens while its elements
are read comes after the call and is no part of the law.

## Attempts, not requests

The law is about attempts. An attempt makes one request at most, and may make none: a method that
refuses throws at once, and one method exhausts the stack. Its outcome decides whether there is to
be another. The requests for a new client come between the attempts, and are kept out of the law by
looking at the requests of methods alone.

## Main definitions

* `attempt` — one attempt
* `RetryLaw` — the attempts of a finished call, and how they decide it
* `acquisitions` — the answers to the requests for a new client
* `Persists` — a call that rejects has tried five times to get a client

## Main results

* `call_retryLaw` — the law, for a call by itself and among others
* `persists_iff` — the calls that survive a client that cannot be had
-/

namespace SubqlConcordium

open Js Interaction

abbrev ApiTrace := List (Event ApiRequest ApiRequest.Reply JsError)

abbrev ApiAttempt := Attempted SafeConcordiumGRPCClient ApiRequest ApiRequest.Reply JsError Awaited

/-- A call of a method of the client, as against a request for a new client. -/
def ApiRequest.isGrpc : ApiRequest → Bool
  | unsafeApi => false
  | grpc .. => true

/-- One attempt: the call of a client, awaited. -/
abbrev attempt (frames : ℕ) (client : SafeConcordiumGRPCClient) (m : Method)
    (args : List Argument) : ApiProc Awaited :=
  awaitResult (directCall frames client m args)

/-- An outcome that is worth another attempt. -/
def Retriable (x : Except JsError Awaited) : Prop := ∃ e, x = .error e ∧ isRetriable e = true

/-- The answer to a request for a new client. -/
def acquisition? : Event ApiRequest ApiRequest.Reply JsError → Option (Except JsError String)
  | ⟨.unsafeApi, reply⟩ => some reply
  | ⟨.grpc .., _⟩ => none

/-- The answers to the requests for a new client. -/
def acquisitions (tr : ApiTrace) : List (Except JsError String) := tr.filterMap acquisition?

/-- Every request for a new client was granted. -/
def Reacquires (tr : ApiTrace) : Prop :=
  ∀ reply ∈ acquisitions tr, ∃ transport, reply = .ok transport

/-- **The law of retrying.** The call has made at most five attempts, each of them the same call on
a client for the same block; its requests are those of the attempts. All attempts before the last
were worth another one. The last is the outcome of the call, and is the fifth if it was worth
another one, too. -/
def RetryLaw (frames height : ℕ) (hash : String) (m : Method) (args : List Argument)
    (tr : ApiTrace) (x : Except JsError Awaited) : Prop :=
  ∃ (earlier : List ApiAttempt) (last : ApiAttempt),
    (earlier ++ [last]).length ≤ 5 ∧
      (∀ a ∈ earlier ++ [last], a.state.IsAt height hash ∧
        Steps (attempt frames a.state m args) a.trace (.ofExcept a.outcome)) ∧
      (tr.filter fun ev => ev.1.isGrpc) = (earlier ++ [last]).flatMap Attempted.trace ∧
      (∀ a ∈ earlier, Retriable a.outcome) ∧
      x = last.outcome ∧
      (Retriable last.outcome → (earlier ++ [last]).length = 5)

variable {frames height : ℕ} {hash : String} {api : SafeApiProxy} {m : Method}
  {args : List Argument} {client : SafeConcordiumGRPCClient} {tr : ApiTrace}

/-! ### Attempts and new clients -/

/-- What a method does makes one request at most, of a method. -/
theorem within_invoke {P : ApiRequest → Prop}
    (hP : ∀ transport m sent, P (.grpc transport m sent)) :
    (invoke frames client m args).Within P (fun _ => True) 1 := by
  induction frames generalizing m args with
  | zero => exact Proc.Within.fail
  | succ frames ih =>
    rw [invoke]
    split
    next => exact Proc.Within.fail
    next => exact Proc.Within.await (hP _ _ _)
    next => exact ih

/-- A call that is not of an `async` method makes no request before it is read. -/
theorem awaitResult_streamCall (frames : ℕ) (client : SafeConcordiumGRPCClient) (m : Method)
    (args : List Argument) :
    ∃ x, awaitResult (streamCall frames client m args) = .ofExcept x := by
  induction frames generalizing m args with
  | zero => exact ⟨.error stackOverflow, rfl⟩
  | succ frames ih =>
    rw [streamCall]
    split
    next e _ => exact ⟨.error e, rfl⟩
    next => exact ⟨.ok (.iterable _), rfl⟩
    next m' sent _ => exact ih m' sent

theorem within_attempt {P : ApiRequest → Prop}
    (hP : ∀ transport m sent, P (.grpc transport m sent)) :
    (attempt frames client m args).Within P (fun _ => True) 1 := by
  unfold attempt directCall
  split
  next =>
    exact (within_invoke hP).bind (n := 0) fun _ _ => Proc.Within.ret_iff.mpr trivial
  next =>
    obtain ⟨x, hx⟩ := awaitResult_streamCall frames client m args
    rw [hx]
    cases x with
    | ok a => exact Proc.Within.ret_iff.mpr trivial
    | error e => exact Proc.Within.fail

theorem isGrpc_of_attempt {p : ApiProc Awaited} (h : Steps (attempt frames client m args) tr p) :
    ∀ ev ∈ tr, ev.1.isGrpc = true :=
  ((within_attempt (P := fun q => q.isGrpc = true) fun _ _ _ => rfl).steps h).2.1

/-- A method fails because it was answered with an error, or without asking. -/
theorem error_of_invoke {e : JsError} (h : Steps (invoke frames client m args) tr (.fail e)) :
    ∀ ev ∈ tr, ∃ e', ev.2 = .error e' := by
  induction frames generalizing m args with
  | zero => simp [(steps_fail_iff.mp h).1]
  | succ frames ih =>
    rw [invoke] at h
    split at h
    next => simp [(steps_fail_iff.mp h).1]
    next =>
      obtain rfl := (finishes_await_iff (x := .error e)).mp h
      exact List.forall_mem_singleton.mpr ⟨e, rfl⟩
    next => exact ih h

theorem error_of_attempt {e : JsError} (h : Steps (attempt frames client m args) tr (.fail e)) :
    ∀ ev ∈ tr, ∃ e', ev.2 = .error e' := by
  unfold attempt directCall at h
  split at h
  next =>
    rcases (finishes_bind_iff (x := .error e)).mp h with
      ⟨e', hfail, -⟩ | ⟨_, _, _, -, -, hret⟩
    · exact error_of_invoke hfail
    · cases (steps_ret_iff.mp hret).2
  next =>
    obtain ⟨x, hx⟩ := awaitResult_streamCall frames client m args
    rw [hx] at h
    cases x with
    | ok a => cases (steps_ret_iff.mp h).2
    | error e' => simp [(steps_fail_iff.mp h).1]

theorem finishes_acquire_iff {x : Except JsError SafeConcordiumGRPCClient} :
    Steps (acquire height hash) tr (.ofExcept x) ↔
      ∃ reply : Except JsError String, tr = [⟨.unsafeApi, reply⟩] ∧
        x = reply.map fun transport => ⟨transport, height, hash⟩ := by
  have hask : acquire height hash = .ask .unsafeApi fun reply => Proc.ofExcept
      (Except.map (fun transport => ⟨transport, height, hash⟩)
        (reply : Except JsError String)) := by
    refine congrArg (Proc.ask ApiRequest.unsafeApi) (funext fun reply => ?_)
    cases reply <;> rfl
  have hinj : ∀ y : Except JsError SafeConcordiumGRPCClient,
      (Proc.ofExcept x : ApiProc _) = .ofExcept y → x = y := by
    intro y hy
    cases x <;> cases y <;> cases hy <;> rfl
  rw [hask, steps_ask_iff]
  constructor
  · rintro (⟨-, h⟩ | ⟨reply, tr', rfl, h⟩)
    · cases x <;> cases h
    · refine ⟨reply, ?_⟩
      rcases reply with e | transport
      · obtain ⟨rfl, hx⟩ := steps_fail_iff.mp h
        exact ⟨rfl, hinj (.error e) hx⟩
      · obtain ⟨rfl, hx⟩ := steps_ret_iff.mp h
        exact ⟨rfl, hinj (.ok _) hx⟩
  · rintro ⟨reply, rfl, rfl⟩
    exact .inr ⟨reply, [], rfl, .refl _⟩

theorem returns_acquire {client : SafeConcordiumGRPCClient}
    (h : Steps (acquire height hash) tr (.ret client)) :
    client.IsAt height hash ∧
      ∃ transport : String, tr = [⟨.unsafeApi, .ok transport⟩] := by
  obtain ⟨reply, rfl, hx⟩ := (finishes_acquire_iff (x := .ok client)).mp h
  rcases reply with e | transport
  · cases hx
  · cases hx
    exact ⟨⟨rfl, rfl⟩, transport, rfl⟩

theorem fails_acquire {e : JsError} (h : Steps (acquire height hash) tr (.fail e)) :
    tr = [⟨.unsafeApi, .error e⟩] := by
  obtain ⟨reply, rfl, hx⟩ := (finishes_acquire_iff (x := .error e)).mp h
  rcases reply with e' | transport
  · cases hx
    rfl
  · cases hx

/-! ### The law -/

theorem acquisitions_append (tr tr' : ApiTrace) :
    acquisitions (tr ++ tr') = acquisitions tr ++ acquisitions tr' :=
  List.filterMap_append

theorem acquisitions_attempt {p : ApiProc Awaited} (h : Steps (attempt frames client m args) tr p) :
    acquisitions tr = [] := by
  rw [acquisitions, List.filterMap_eq_nil_iff]
  intro ev hev
  obtain ⟨q, reply⟩ := ev
  cases q with
  | unsafeApi => cases isGrpc_of_attempt h _ hev
  | grpc => rfl

/-- The requests of an attempt are all of methods, those for a new client are not. -/
theorem filter_attempt {p : ApiProc Awaited} (h : Steps (attempt frames client m args) tr p) :
    (tr.filter fun ev => ev.1.isGrpc) = tr :=
  List.filter_eq_self.mpr (isGrpc_of_attempt h)

/-- **The law, from any round.** With so many rounds left, unless a client cannot be had. -/
theorem law_of_retriesTo {more : ℕ}
    {attempts : List ApiAttempt} {x : Except JsError Awaited}
    (h : RetriesTo isRetriable (acquire height hash) (fun client => attempt frames client m args)
      more client tr attempts x)
    (hclient : client.IsAt height hash) (hacquire : Reacquires tr) :
    ∃ earlier last, attempts = earlier ++ [last] ∧ attempts.length ≤ more + 1 ∧
      (∀ a ∈ attempts, a.state.IsAt height hash ∧
        Steps (attempt frames a.state m args) a.trace (.ofExcept a.outcome)) ∧
      (tr.filter fun ev => ev.1.isGrpc) = attempts.flatMap Attempted.trace ∧
      (∀ a ∈ earlier, Retriable a.outcome) ∧ x = last.outcome ∧
      (Retriable last.outcome → attempts.length = more + 1) := by
  induction h with
  | @final more client tr x h hx =>
    refine ⟨[], ⟨client, tr, x⟩, rfl, by simp, by simpa using ⟨hclient, h⟩, ?_, by simp, rfl, ?_⟩
    · simp [filter_attempt h]
    · rintro ⟨e, rfl, ha⟩
      rw [hx e rfl] at ha
      cases ha
  | @stuck more client tr tr' e e' h ha hr =>
    rw [fails_acquire hr] at hacquire
    obtain ⟨transport, hok⟩ := hacquire (.error e')
      (by rw [acquisitions_append]; exact List.mem_append_right _ List.mem_cons_self)
    cases hok
  | @exhausted client client' tr tr' e h ha hr =>
    obtain ⟨-, transport, rfl⟩ := returns_acquire hr
    refine ⟨[], ⟨client, tr, .error e⟩, rfl, by simp, by simpa using ⟨hclient, h⟩, ?_, by simp,
      rfl, by simp⟩
    rw [List.filter_append, filter_attempt h]
    simp [ApiRequest.isGrpc]
  | @more more client client' tr tr' tr'' e attempts x h ha hr hrest ih =>
    obtain ⟨hclient', transport, rfl⟩ := returns_acquire hr
    obtain ⟨earlier, last, rfl, hlength, hattempts, htrace, hearlier, hx, hlast⟩ :=
      ih hclient' fun reply hreply => hacquire reply
        (by rw [acquisitions_append, acquisitions_append]; simp [hreply])
    refine ⟨⟨client, tr, .error e⟩ :: earlier, last, rfl, ?_, ?_, ?_, ?_, hx, fun hl => ?_⟩
    · simpa using hlength
    · exact List.forall_mem_cons.mpr ⟨⟨hclient, h⟩, hattempts⟩
    · rw [List.filter_append, List.filter_append, filter_attempt h, htrace, List.flatMap_cons]
      simp [ApiRequest.isGrpc]
    · exact List.forall_mem_cons.mpr ⟨⟨e, rfl, ha⟩, hearlier⟩
    · rw [List.length_cons, hlast hl]

theorem retriesTo_of_call {x : Except JsError Awaited}
    (h : Steps (api.call frames m args) tr (.ofExcept x)) :
    ∃ attempts, RetriesTo isRetriable (acquire api.height api.hash)
      (fun client => attempt frames client m args) 4 api.target tr attempts x :=
  steps_retry_iff.mp h

/-- **Who decides what is read.** The last attempt, on a client for the same block, or a client that
could not be had. -/
theorem decided_of_callAndRead {x : Except JsError Value}
    (htarget : api.target.IsAt api.height api.hash)
    (h : Steps (api.callAndRead frames m args) tr (.ofExcept x)) :
    (∃ client tr', client.IsAt api.height api.hash ∧ tr' ⊆ tr ∧
      Steps (attempt frames client m args >>= Awaited.read) tr' (.ofExcept x)) ∨
      ∃ e, x = .error e ∧ (⟨.unsafeApi, .error e⟩ : Event _ _ _) ∈ tr := by
  have hdecided : ∀ {tr₁ : ApiTrace} {y : Except JsError Awaited},
      Steps (api.call frames m args) tr₁ (.ofExcept y) →
        (∃ client tr', client.IsAt api.height api.hash ∧
          Steps (attempt frames client m args) tr' (.ofExcept y) ∧ tr' ⊆ tr₁) ∨
          ∃ e, y = .error e ∧ (⟨.unsafeApi, .error e⟩ : Event _ _ _) ∈ tr₁ := by
    intro tr₁ y hcall
    obtain ⟨attempts, hattempts⟩ := retriesTo_of_call hcall
    refine (hattempts.decided htarget fun tr client hclient =>
      (returns_acquire hclient).1).imp_right ?_
    rintro ⟨e, tr', hacquire, hy, hsub⟩
    obtain rfl := fails_acquire hacquire
    exact ⟨e, hy, hsub List.mem_cons_self⟩
  rcases finishes_bind_iff.mp h with ⟨e, hfail, rfl⟩ | ⟨tr₁, a, tr₂, rfl, hcall, hread⟩
  · rcases hdecided (y := .error e) hfail with ⟨client, tr', hclient, hattempt, hsub⟩ | h
    · exact .inl ⟨client, tr', hclient, hsub, finishes_bind_iff.mpr (.inl ⟨e, hattempt, rfl⟩)⟩
    · obtain ⟨e', he', hmem⟩ := h
      cases he'
      exact .inr ⟨e, rfl, hmem⟩
  · rcases hdecided (y := .ok a) hcall with ⟨client, tr', hclient, hattempt, hsub⟩ | ⟨e, he, -⟩
    · refine .inl ⟨client, tr' ++ tr₂, hclient, ?_,
        finishes_bind_iff.mpr (.inr ⟨tr', a, tr₂, rfl, hattempt, hread⟩)⟩
      exact List.append_subset.mpr ⟨List.Subset.trans hsub (List.subset_append_left _ _),
        List.subset_append_right _ _⟩
    · cases he

theorem retryLaw_of_call {x : Except JsError Awaited}
    (htarget : api.target.IsAt api.height api.hash)
    (h : Steps (api.call frames m args) tr (.ofExcept x)) (hacquire : Reacquires tr) :
    RetryLaw frames api.height api.hash m args tr x := by
  obtain ⟨attempts, hattempts⟩ := retriesTo_of_call h
  obtain ⟨earlier, last, rfl, hlaw⟩ := law_of_retriesTo hattempts htarget hacquire
  exact ⟨earlier, last, hlaw⟩

theorem length_call_le {p : ApiProc Awaited} (h : Steps (api.call frames m args) tr p) :
    tr.length ≤ 10 := by
  have hacquire : (acquire api.height api.hash).Within (fun _ => True) (fun _ => True) 1 :=
    (Proc.Within.await trivial).bind (n := 0) fun _ _ => Proc.Within.ret_iff.mpr trivial
  have hwithin : (api.call frames m args).Within (fun _ => True) (fun _ => True) ((4 + 1) * 2) :=
    Proc.Within.retry (fun _ _ => within_attempt fun _ _ _ => trivial) hacquire 4 trivial
  exact (hwithin.steps h).1

theorem returns_getSafeApi {tr₀ : ApiTrace} (h : Steps (getSafeApi height hash) tr₀ (.ret api)) :
    api.height = height ∧ api.hash = hash ∧ api.target.IsAt height hash := by
  obtain ⟨tr₁, target, tr₂, rfl, htarget, hret⟩ := returns_bind_iff.mp h
  obtain ⟨-, hret⟩ := steps_ret_iff.mp hret
  cases hret
  exact ⟨rfl, rfl, (returns_acquire htarget).1⟩

/-- **The law of retrying.** Of a call on the API object of a block: it comes to an end, by the
law. And of every call among any others on the same object, however they interleave and whatever
the servers do meanwhile: the law is about its own attempts alone. -/
theorem call_retryLaw (frames height : ℕ) (hash : String) (tr₀ : ApiTrace) (api : SafeApiProxy)
    (hapi : Steps (getSafeApi height hash) tr₀ (.ret api)) :
    (∀ m args tr p, Steps (api.call frames m args) tr p → tr.length ≤ 10) ∧
      (∀ m args tr x, Steps (api.call frames m args) tr (.ofExcept x) → Reacquires tr →
        RetryLaw frames height hash m args tr x) ∧
      ∀ (σ ι : Type) [DecidableEq ι] (evolve : σ → σ → Prop)
        (answer : σ → (q : ApiRequest) → Except JsError q.Reply) (s : σ)
        (calls : ι → Method × List Argument)
        (c : Pool σ ι ApiRequest ApiRequest.Reply JsError Awaited),
        Pool.Reachable evolve answer
          (Pool.start s fun i => api.call frames (calls i).1 (calls i).2) c →
        ∀ i x, c.current i = .ofExcept x → Reacquires (c.history i) →
          RetryLaw frames height hash (calls i).1 (calls i).2 (c.history i) x := by
  obtain ⟨rfl, rfl, htarget⟩ := returns_getSafeApi hapi
  refine ⟨fun m args tr p => length_call_le, fun m args tr x => retryLaw_of_call htarget, ?_⟩
  intro σ ι _ evolve answer s calls c hreach i x hx hacquire
  have hsteps := hreach.steps i
  rw [hx] at hsteps
  exact retryLaw_of_call htarget hsteps hacquire

/-- An API object whose first client is at one node. -/
def blockApi : SafeApiProxy := ⟨⟨"node1", 7, "b7"⟩, 7, "b7"⟩

/-- The node does not answer, and the next one does. -/
def retriedTrace : ApiTrace :=
  [⟨.grpc "node1" .getBlockInfo [.str "b7"], .error ⟨"Error", "timeout", some "TIMEOUT"⟩⟩,
    ⟨.unsafeApi, .ok "node2"⟩, ⟨.grpc "node2" .getBlockInfo [.str "b7"], .ok .null⟩]

theorem retriedTrace_retryLaw :
    RetryLaw 1 7 "b7" .getBlockInfo [] retriedTrace (.ok (.value .null)) := by
  refine (call_retryLaw 1 7 "b7" [⟨.unsafeApi, .ok "node1"⟩] blockApi (.ask (.refl _))).2.1
    .getBlockInfo [] retriedTrace (.ok (.value .null)) (.ask (.ask (.ask (.refl _)))) ?_
  exact List.forall_mem_singleton.mpr ⟨"node2", rfl⟩

/-! ### Clients that cannot be had -/

/-- **Not giving up.** A call that rejects has asked for a new client five times, and it rejects
with the last error there was. A call some attempt of which has succeeded does not reject. -/
def Persists (tr : ApiTrace) (x : Except JsError Awaited) : Prop :=
  (∀ e, x = .error e →
    (acquisitions tr).length = 5 ∧ ∃ q, tr.getLast? = some ⟨q, .error e⟩) ∧
    ∀ transport m' sent (v : Value), (⟨.grpc transport m' sent, .ok v⟩ : Event _ _ _) ∈ tr →
      ∃ a, x = .ok a

/-- What is left of a call one of whose requests for a new client was refused. That request was the
last thing it did, and its error is the outcome. -/
structure Refused (more : ℕ) (tr : ApiTrace) (x : Except JsError Awaited) : Prop where
  acquired : ∃ granted e, acquisitions tr = granted ++ [.error e] ∧ granted.length ≤ more ∧
    (∀ r ∈ granted, ∃ transport, r = .ok transport) ∧ x = .error e ∧
      tr.getLast? = some ⟨.unsafeApi, .error e⟩
  failed : ∀ ev ∈ tr, ev.1.isGrpc = true → ∃ e, ev.2 = .error e

theorem acquisitions_granted {transport : String} (tr : ApiTrace) :
    acquisitions ([⟨.unsafeApi, .ok transport⟩] ++ tr) = .ok transport :: acquisitions tr := rfl

/-- **A run with a refused request for a client** ends there. -/
theorem refused_of_retriesTo {more : ℕ}
    {attempts : List ApiAttempt} {x : Except JsError Awaited}
    (h : RetriesTo isRetriable (acquire height hash) (fun client => attempt frames client m args)
      more client tr attempts x)
    (hrefused : ¬ Reacquires tr) : Refused more tr x := by
  have hattempt : ∀ {client tr} {p : ApiProc Awaited}, Steps (attempt frames client m args) tr p →
      ∀ tr', acquisitions (tr ++ tr') = acquisitions tr' := by
    intro client tr p h tr'
    rw [acquisitions_append, acquisitions_attempt h, List.nil_append]
  induction h with
  | @final more client tr x h hx =>
    exact absurd (by simp [Reacquires, acquisitions_attempt h]) hrefused
  | @stuck more client tr tr' e e' h ha hr =>
    obtain rfl := fails_acquire hr
    refine ⟨⟨[], e', hattempt h _, by simp, by simp, rfl, by simp⟩, fun ev hev hgrpc => ?_⟩
    rcases List.mem_append.mp hev with hev | hev
    · exact error_of_attempt h ev hev
    · rw [List.mem_singleton.mp hev] at hgrpc
      cases hgrpc
  | @exhausted client client' tr tr' e h ha hr =>
    obtain ⟨-, transport, rfl⟩ := returns_acquire hr
    refine absurd ?_ hrefused
    rw [Reacquires, hattempt h]
    exact List.forall_mem_singleton.mpr ⟨transport, rfl⟩
  | @more more client client' tr tr' tr'' e attempts x h ha hr hrest ih =>
    obtain ⟨-, transport, rfl⟩ := returns_acquire hr
    rw [Reacquires, hattempt h, acquisitions_granted, List.forall_mem_cons, not_and] at hrefused
    obtain ⟨⟨granted, e', hgranted, hlength, hok, hx, hlast⟩, hfailed⟩ :=
      ih (hrefused ⟨transport, rfl⟩)
    refine ⟨⟨.ok transport :: granted, e', ?_, ?_, ?_, hx, ?_⟩, fun ev hev hgrpc => ?_⟩
    · rw [hattempt h, acquisitions_granted, hgranted, List.cons_append]
    · simpa using hlength
    · exact List.forall_mem_cons.mpr ⟨⟨transport, rfl⟩, hok⟩
    · rw [List.getLast?_append, List.getLast?_append, hlast]
      rfl
    · rcases List.mem_append.mp hev with hev | hev
      · exact error_of_attempt h ev hev
      · rcases List.mem_cons.mp hev with rfl | hev
        · cases hgrpc
        · exact hfailed ev hev hgrpc

/-- **Which calls persist.** Of the finished calls that were refused a new client, for an error
worth another attempt: those that were granted the first four they asked for. -/
theorem persists_iff (frames : ℕ) (api : SafeApiProxy) (m : Method) (args : List Argument)
    (tr : ApiTrace) (x : Except JsError Awaited)
    (h : Steps (api.call frames m args) tr (.ofExcept x))
    (hrefused : ∃ e, .error e ∈ acquisitions tr ∧ isRetriable e = true) :
    Persists tr x ↔ ∀ reply ∈ (acquisitions tr).take 4, ∃ transport, reply = .ok transport := by
  obtain ⟨attempts, hattempts⟩ := retriesTo_of_call h
  have hnot : ¬ Reacquires tr := by
    obtain ⟨e, hmem, -⟩ := hrefused
    intro hall
    obtain ⟨transport, hok⟩ := hall _ hmem
    cases hok
  obtain ⟨⟨granted, e, hgranted, hlength, hok, rfl, hlast⟩, hfailed⟩ :=
    refused_of_retriesTo hattempts hnot
  rw [hgranted]
  constructor
  · rintro ⟨hpersists, -⟩
    have hfive := (hpersists e rfl).1
    rw [hgranted, List.length_append, List.length_singleton] at hfive
    rw [List.take_append_of_le_length (by omega)]
    exact fun reply hreply => hok reply (List.mem_of_mem_take hreply)
  · intro hfour
    have hlength' : granted.length = 4 := by
      by_contra hne
      have hmem : (Except.error e : Except JsError String) ∈
          (granted ++ [Except.error e]).take 4 := by
        rw [List.take_of_length_le (by simp; omega)]
        exact List.mem_append_right _ List.mem_cons_self
      obtain ⟨transport, hok'⟩ := hfour _ hmem
      cases hok'
    refine ⟨?_, fun transport m' sent v hmem => ?_⟩
    · rintro _ ⟨⟩
      exact ⟨by rw [hgranted, List.length_append, hlength']; rfl, _, hlast⟩
    · obtain ⟨e', he'⟩ := hfailed _ hmem rfl
      cases he'

def timedOut (transport : String) : Event ApiRequest ApiRequest.Reply JsError :=
  ⟨.grpc transport .getBlockInfo [.str "b7"], .error ⟨"Error", "timeout", some "TIMEOUT"⟩⟩

/-- A new client, granted or refused. -/
def acquired (reply : Except JsError String) : Event ApiRequest ApiRequest.Reply JsError :=
  ⟨.unsafeApi, reply⟩

/-- No node answers, and the fifth request for another is refused. -/
def refusedTrace : ApiTrace :=
  [timedOut "node1", acquired (.ok "node2"), timedOut "node2", acquired (.ok "node3"),
    timedOut "node3", acquired (.ok "node4"), timedOut "node4", acquired (.ok "node5"),
    timedOut "node5", acquired (.error ⟨"Error", "no api", some "NETWORK_ERROR"⟩)]

theorem acquisitions_refusedTrace :
    acquisitions refusedTrace = [.ok "node2", .ok "node3", .ok "node4", .ok "node5",
      .error ⟨"Error", "no api", some "NETWORK_ERROR"⟩] := rfl

theorem refusedTrace_persists :
    Persists refusedTrace (.error ⟨"Error", "no api", some "NETWORK_ERROR"⟩) := by
  refine (persists_iff 1 blockApi .getBlockInfo [] refusedTrace _ ?_ ?_).mpr ?_
  · exact .ask (.ask (.ask (.ask (.ask (.ask (.ask (.ask (.ask (.ask (.refl _))))))))))
  · rw [acquisitions_refusedTrace]
    exact ⟨⟨"Error", "no api", some "NETWORK_ERROR"⟩, by simp, rfl⟩
  · rw [acquisitions_refusedTrace]
    simp

/-- The first request for another node is refused, and the call rejects. -/
theorem not_persists_first_refusal :
    ∃ tr x, Steps (blockApi.call 1 .getBlockInfo []) tr (.ofExcept x) ∧
      (∃ e, .error e ∈ acquisitions tr ∧ isRetriable e = true) ∧ ¬ Persists tr x := by
  refine ⟨[timedOut "node1", acquired (.error ⟨"Error", "no api", some "NETWORK_ERROR"⟩)],
    .error ⟨"Error", "no api", some "NETWORK_ERROR"⟩, .ask (.ask (.refl _)),
    ⟨_, List.mem_cons_self, rfl⟩, ?_⟩
  rintro ⟨hpersists, -⟩
  have hfive := (hpersists _ rfl).1
  exact absurd hfive (by decide)

end SubqlConcordium
