import SubqlConcordium.Interaction.Implement
import SubqlConcordium.RetryLaw

/-!
# What handlers see

A handler is somebody else's program. It computes as it likes, calls methods of the API object of
its block in whatever order, and may catch what they reject with. Handlers of many blocks run by
turns, while nodes come and go and the chain grows. All the same, each of them looks at one picture
that does not change: the state of its own block.

A handler awaits every call it makes, and where that gives it an iterable, it reads the elements
before it goes on. So a request has one reply, a stream's as well as a promise's, although the proxy
repeats the one when it fails and not the other.

One method is left out. The blocks at the height of the block are asked for by that height, and what
a node knows at a height is not fixed by the hash of the block; all other methods that are not
refused are given the hash.

## Main definitions

* `ApiCall`, `HandlerProc`, `runHandler` — handlers, and how they run on an API object
* `Tells`, `TellsOnly` — a server that tells the state of a block, or nothing, and what it told
* `MadeFor` — an API object of a block
* `snapshot` — what a call gives on the state of a block

## Main results

* `outcome_of_call` — a call gives what it does on the state of the block, or fails as a request did
* `handlers_see_snapshot` — the same for every call of every handler, in any interleaving
-/

namespace SubqlConcordium

open Interaction Js Relation

/-! ### Handlers -/

/-- A call that a handler makes on the API object of its block, for anything but the blocks at the
height. -/
structure ApiCall where
  method : Method
  args : List Argument
  ofBlock : method ≠ .getBlocksAtHeight

/-- A handler, as far as it can be told from the calls it makes. -/
abbrev HandlerProc (α : Type) := Proc ApiCall (fun _ => Value) JsError α

/-- A handler that is given an API object. What it awaits it reads. -/
def runHandler {α : Type} (frames : ℕ) (api : SafeApiProxy) (handler : HandlerProc α) :
    ApiProc α :=
  handler.implement fun call => api.callAndRead frames call.method call.args

/-! ### The state of a block -/

/-- The states of all blocks: what a method of the parent gives for its arguments, among them the
hash of a block. -/
abbrev ChainView := Method → List Argument → Value

/-- A server tells the state of a block, or nothing: where a request for the block of a hash is not
answered with an error, it is answered by the state. -/
def Tells {σ : Type} (answer : σ → (q : ApiRequest) → Except JsError q.Reply) (view : ChainView)
    (s : σ) : Prop :=
  ∀ transport m p hash args v, blockParameter? m = some p →
    answer s (.grpc transport m (p.pin hash args)) = .ok v → v = view m (p.pin hash args)

/-- The error that a method refuses with. It is the same on every client. -/
def Method.refusal (m : Method) : JsError :=
  match (⟨"", 0, ""⟩ : SafeConcordiumGRPCClient).body m [] with
  | .throws e => e
  | _ => stackOverflow

/-- What a call gives on the state of a block. One method exhausts the stack before it asks. -/
def snapshot (view : ChainView) (b : ConcordiumBlock) (call : ApiCall) : Except JsError Value :=
  if call.method = .getAnonymityRevokers then .error stackOverflow
  else match blockParameter? call.method with
    | some p => .ok (view call.method (p.pin b.blockHash call.args))
    | none => .error call.method.refusal

variable {view : ChainView} {frames : ℕ} {b : ConcordiumBlock} {api : SafeApiProxy} {tr : ApiTrace}
  {x : Except JsError Value} {call : ApiCall}

/-- What a trace tells of a block is the state of the block. -/
def TellsOnly (view : ChainView) (tr : ApiTrace) : Prop :=
  ∀ transport m p hash args v, blockParameter? m = some p →
    (⟨.grpc transport m (p.pin hash args), .ok v⟩ : Event _ _ _) ∈ tr → v = view m (p.pin hash args)

theorem TellsOnly.subset {tr' : ApiTrace} (h : TellsOnly view tr) (hsub : tr' ⊆ tr) :
    TellsOnly view tr' :=
  fun transport m p hash args v hp hmem => h transport m p hash args v hp (hsub hmem)

theorem tellsOnly_history {α σ ι : Type} [DecidableEq ι] {evolve : σ → σ → Prop}
    {answer : σ → (q : ApiRequest) → Except JsError q.Reply} {s : σ}
    (htells : ∀ s', ReflTransGen evolve s s' → Tells answer view s') {procs : ι → ApiProc α}
    {pool : Pool σ ι ApiRequest ApiRequest.Reply JsError α}
    (hreach : Pool.Reachable evolve answer (Pool.start s procs) pool) (i : ι) :
    TellsOnly view (pool.history i) := by
  intro transport m p hash args v hp hmem
  obtain ⟨s', hs', -, hreply⟩ := Pool.Reachable.history_between hreach i _ hmem
  exact htells s' hs' transport m p hash args v hp hreply.symm

/-- An API object for a block. -/
def MadeFor (b : ConcordiumBlock) (api : SafeApiProxy) : Prop :=
  api.target.IsAt api.height b.blockHash ∧ api.hash = b.blockHash

theorem madeFor_of_getApi (h : Steps (getApi b) tr (.ret api)) : MadeFor b api := by
  obtain ⟨transport, -, rfl⟩ := returns_getApi_iff.mp h
  exact ⟨⟨rfl, rfl⟩, rfl⟩

/-! ### One call -/

/-- An attempt, read, fails at once or makes the call with the block of the client. -/
theorem ApiCall.attempt_eq (call : ApiCall) (frames : ℕ) (view : ChainView) (b : ConcordiumBlock) :
    (∃ e, snapshot view b call = .error e ∧ ∀ client,
        (attempt (frames + 1) client call.method call.args >>= Awaited.read) = .fail e) ∨
      ∃ p, blockParameter? call.method = some p ∧
        snapshot view b call = .ok (view call.method (p.pin b.blockHash call.args)) ∧
        ∀ client, (attempt (frames + 1) client call.method call.args >>= Awaited.read) = Proc.await
          (ApiRequest.grpc client.transport call.method (p.pin client.blockHash call.args)) := by
  obtain ⟨m, args, hblock⟩ := call
  by_cases hm : m = .getAnonymityRevokers
  · subst hm
    refine .inl ⟨stackOverflow, rfl, fun client => ?_⟩
    exact congrArg (awaitResult · >>= Awaited.read) streamCall_getAnonymityRevokers
  have hbody : (blockParameter? m = none ∧ ∀ client : SafeConcordiumGRPCClient,
        client.body m args = .throws m.refusal) ∨
      ∃ p, blockParameter? m = some p ∧ ∀ client : SafeConcordiumGRPCClient,
        client.body m args = .callSuper m (p.pin client.blockHash args) := by
    cases m <;> first
      | exact .inl ⟨rfl, fun _ => rfl⟩
      | exact .inr ⟨_, rfl, fun _ => rfl⟩
      | exact absurd rfl hblock
      | exact absurd rfl hm
  rcases hbody with ⟨hnone, hbody⟩ | ⟨p, hp, hbody⟩
  · exact .inl ⟨m.refusal, by simp only [snapshot, hm, if_false, hnone],
      fun client => by rw [attempt, awaitResult_of_throws (hbody client), Proc.fail_bind]⟩
  · refine .inr ⟨p, hp, by simp only [snapshot, hm, if_false, hp], fun client => ?_⟩
    rw [attempt, awaitResult_of_callSuper (hbody client)]
    exact handOver_read _ _

/-- **A call gives what it does on the state of the block, or fails as a request did.** -/
theorem outcome_of_call (hapi : MadeFor b api) (htells : TellsOnly view tr)
    (h : Steps (api.callAndRead (frames + 1) call.method call.args) tr (.ofExcept x)) :
    x = snapshot view b call ∨ ∃ e q, x = .error e ∧ ⟨q, .error e⟩ ∈ tr := by
  obtain ⟨htarget, hhash⟩ := hapi
  rcases decided_of_callAndRead (hhash ▸ htarget) h with
    ⟨client, tr', hclient, hsub, hattempt⟩ | ⟨e, rfl, hmem⟩
  · rcases call.attempt_eq frames view b with ⟨e, he, hfail⟩ | ⟨p, hp, hok, hmade⟩
    · rw [hfail] at hattempt
      obtain ⟨-, hx⟩ := steps_fail_iff.mp hattempt
      cases x <;> cases hx
      exact .inl he.symm
    · rw [hmade, hclient.2, hhash] at hattempt
      obtain rfl : tr' = [⟨.grpc client.transport call.method (p.pin b.blockHash call.args), x⟩] :=
        (finishes_await_iff (q := ApiRequest.grpc ..)).mp hattempt
      have hmem := hsub List.mem_cons_self
      cases x with
      | ok v => exact .inl (by rw [hok, htells _ _ _ _ _ v hp hmem])
      | error e => exact .inr ⟨e, _, rfl, hmem⟩
  · exact .inr ⟨e, _, rfl, hmem⟩

/-! ### All handlers -/

/-- **Every handler sees the state of its own block.** Handlers of any blocks run on their API
objects, interleaved in any way, against servers that only tell the state of a block, whatever else
they do. A handler has then made a run of its own, every call of which gave what it does on the
state of the handler's block, or failed as one of its requests did. If no call has failed so, the
outcome of the handler is a function of that state. -/
theorem handlers_see_snapshot {α σ ι : Type} [DecidableEq ι] (view : ChainView) (frames : ℕ)
    (evolve : σ → σ → Prop) (answer : σ → (q : ApiRequest) → Except JsError q.Reply) (s : σ)
    (htells : ∀ s', ReflTransGen evolve s s' → Tells answer view s')
    (blocks : ι → ConcordiumBlock) (apis : ι → SafeApiProxy)
    (hapis : ∀ i, ∃ tr, Steps (getApi (blocks i)) tr (.ret (apis i)))
    (handlers : ι → HandlerProc α) (pool : Pool σ ι ApiRequest ApiRequest.Reply JsError α)
    (hreach : Pool.Reachable evolve answer
      (Pool.start s fun i => runHandler (frames + 1) (apis i) (handlers i)) pool) (i : ι) :
    ∃ calls rest, Steps (handlers i) calls rest ∧
      (∀ ev ∈ calls, ev.2 = snapshot view (blocks i) ev.1 ∨
        ∃ e q, ev.2 = .error e ∧ ⟨q, .error e⟩ ∈ pool.history i) ∧
      ∀ x, pool.current i = .ofExcept x → rest = .ofExcept x ∧
        ((∀ ev ∈ calls, ev.2 = snapshot view (blocks i) ev.1) →
          x = (handlers i).run (snapshot view (blocks i))) := by
  obtain ⟨trApi, hapi⟩ := hapis i
  obtain ⟨carried, rest, hcarried⟩ := steps_implement (Pool.Reachable.steps hreach i)
  refine ⟨_, rest, hcarried.steps, fun ev hev => ?_, fun x hx => ?_⟩
  · obtain ⟨c, hc, rfl⟩ := List.mem_map.mp hev
    have hsub : c.trace ⊆ pool.history i := fun ev hev =>
      hcarried.isPrefix.subset (List.mem_flatMap.mpr ⟨c, hc, hev⟩)
    have htrace := (tellsOnly_history htells hreach i).subset hsub
    exact (outcome_of_call (madeFor_of_getApi hapi) htrace (hcarried.each c hc)).imp_right
      fun ⟨e, q, he, hmem⟩ => ⟨e, q, he, hsub hmem⟩
  · obtain ⟨-, hrest⟩ := hcarried.finished x hx
    refine ⟨hrest, fun hall => ?_⟩
    rw [hcarried.steps.run_eq hall, hrest, Proc.run_ofExcept]

/-- A handler that asks for the header of its block, and hands it on. -/
def headerHandler : HandlerProc Value :=
  Proc.await (⟨.getBlockInfo, [], by decide⟩ : ApiCall)

/-- The first node does not answer, the next one does. -/
def answerAtSecondNode (_ : Unit) : (q : ApiRequest) → Except JsError q.Reply
  | .unsafeApi => .ok "node2"
  | .grpc transport _ _ =>
    if transport = "node1" then .error ⟨"Error", "timeout", some "TIMEOUT"⟩ else .ok .null

theorem answerAtSecondNode_tells (s : Unit) : Tells answerAtSecondNode (fun _ _ => .null) s := by
  intro transport m p hash args v _ hreply
  simp only [answerAtSecondNode] at hreply
  split_ifs at hreply
  exact (Except.ok.inj hreply).symm

/-- The API object of the block on the first node. -/
def transferBlockApi : SafeApiProxy where
  target := ⟨"node1", toNumber transferBlockAssembled.blockHeight, transferBlockAssembled.blockHash⟩
  height := toNumber transferBlockAssembled.blockHeight
  hash := transferBlockAssembled.blockHash

def headerTrace : ApiTrace :=
  [⟨.grpc "node1" .getBlockInfo [.str transferBlockAssembled.blockHash],
      .error ⟨"Error", "timeout", some "TIMEOUT"⟩⟩,
    ⟨.unsafeApi, .ok "node2"⟩,
    ⟨.grpc "node2" .getBlockInfo [.str transferBlockAssembled.blockHash], .ok .null⟩]

theorem headerHandler_sees_snapshot :
    ∃ calls, Steps headerHandler calls (.ret .null) ∧
      ∀ ev ∈ calls, ev.2 = snapshot (fun _ _ => .null) transferBlockAssembled ev.1 ∨
        ∃ e q, ev.2 = .error e ∧ ⟨q, .error e⟩ ∈ headerTrace := by
  have hstart : Pool.Reachable (fun _ _ => False) answerAtSecondNode
      (Pool.start () fun _ : Unit => runHandler 1 transferBlockApi headerHandler)
      (Pool.start () fun _ : Unit => runHandler 1 transferBlockApi headerHandler) :=
    .refl
  have hrun : Steps (runHandler 1 transferBlockApi headerHandler) headerTrace (.ret .null) :=
    .ask (.ask (.ask (.refl _)))
  have hreplies : ∀ ev ∈ headerTrace, ev.2 = answerAtSecondNode () ev.1 := by
    simp only [headerTrace, List.forall_mem_cons]
    exact ⟨rfl, rfl, rfl, by simp⟩
  obtain ⟨pool, hreach, hhistory, hdone⟩ := hstart.alone () hrun hreplies
  obtain ⟨calls, rest, hsteps, hcalls, hfinished⟩ := handlers_see_snapshot (fun _ _ => .null) 0
    (fun _ _ => False) answerAtSecondNode () (fun s' _ => answerAtSecondNode_tells s')
    (fun _ => transferBlockAssembled)
    (fun _ => transferBlockApi) (fun _ => ⟨_, returns_getApi_iff.mpr ⟨"node1", rfl, rfl⟩⟩)
    (fun _ => headerHandler) pool hreach ()
  obtain ⟨rfl, -⟩ := hfinished (.ok .null) hdone
  rw [hhistory] at hcalls
  exact ⟨calls, hsteps, hcalls⟩

end SubqlConcordium
