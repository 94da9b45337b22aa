import SubqlConcordium.Api
import SubqlConcordium.Interaction.Retry
import SubqlConcordium.SafeApi

/-!
# The API object of a block

`ConcordiumApiService.getSafeApi` puts a proxy in front of the client of some endpoint. When a call
fails in a way that another endpoint may not, the proxy takes a new client from the connection pool
and repeats the call there, for the same block. `IndexerManager.getApi` makes such an object for
the block that is being indexed.

The handler of the proxy awaits what the client hands back, and returns it. An iterable is there at
once, so the call is over before anything is read from it, and an error while it is read is the
caller's. `SafeApiProxy.call` is the call, `SafeApiProxy.callAndRead` the call and the reading.

## Main definitions

* `acquire`, `SafeApiProxy`, `getSafeApi`, `SafeApiProxy.call` — `ConcordiumApiService`
* `SafeApiProxy.callAndRead` — a call whose result is used
* `getApi` — `IndexerManager.getApi`
* `CallPinned`, `StatePinned` — a call only sees the state of its block

## Main results

* `callPinned_of_unsupported`, `callPinned_of_callSuper` — calls that are refused, and calls that
  are made
* `statePinned_iff` — the calls that are pinned to the block
-/

namespace SubqlConcordium

open Js Interaction

/-! ### The proxy -/

def retryErrorCodes : List String :=
  ["UNKNOWN_ERROR", "NETWORK_ERROR", "SERVER_ERROR", "TIMEOUT", "BAD_DATA", "CANCELLED"]

/-- `retryErrorCodes.includes(error?.code)`. -/
def isRetriable (error : JsError) : Bool :=
  match error.code with
  | some code => retryErrorCodes.contains code
  | none => false

/-- How many attempts there are. -/
def maxRetries : ℕ := 5

/-- `ConcordiumApi.getSafeApi`, on the API with the given transport. -/
def ConcordiumApi.getSafeApi (transport : String) (blockHeight : ℕ) (blockHash : String) :
    SafeConcordiumGRPCClient :=
  ⟨transport, blockHeight, blockHash⟩

/-- `this.unsafeApi.getSafeApi(height, hash)`. Whether there is an API, and which, is up to the
connection pool. -/
def acquire (height : ℕ) (hash : String) : ApiProc SafeConcordiumGRPCClient := do
  let api ← Proc.await ApiRequest.unsafeApi
  return ConcordiumApi.getSafeApi api height hash

/-- The proxy: the client it was made for, and what its handler closes over. -/
structure SafeApiProxy where
  target : SafeConcordiumGRPCClient
  height : ℕ
  hash : String

/-- `ConcordiumApiService.getSafeApi`. -/
def getSafeApi (height : ℕ) (hash : String) : ApiProc SafeApiProxy := do
  let target ← acquire height hash
  return ⟨target, height, hash⟩

/-- `api.m(...args)` on the proxy, with so many frames left on the stack. -/
def SafeApiProxy.call (frames : ℕ) (api : SafeApiProxy) (m : Method) (args : List Argument) :
    ApiProc Awaited :=
  -- the first attempt is not a retry, but counts as one
  Proc.retry isRetriable (acquire api.height api.hash)
    (fun client => awaitResult (directCall frames client m args)) (maxRetries - 1) api.target

/-- The same, and what it comes to is read, if it is an iterable. -/
def SafeApiProxy.callAndRead (frames : ℕ) (api : SafeApiProxy) (m : Method)
    (args : List Argument) : ApiProc Value :=
  api.call frames m args >>= Awaited.read

/-- `IndexerManager.getApi`. -/
def getApi (block : ConcordiumBlock) : ApiProc SafeApiProxy :=
  getSafeApi (toNumber block.blockHeight) block.blockHash

/-! ### State pinning -/

/-- What a call of `m` may request for a block: an API, or of some API the method itself, with the
block as the block and the caller's other arguments. -/
def PinnedRequest (b : ConcordiumBlock) (m : Method) (args : List Argument) : ApiRequest → Prop
  | .unsafeApi => True
  | .grpc _ m' sent => m' = m ∧ pinnedArgs? b.blockHeight b.blockHash m args = some sent

/-- **A call is pinned to a block.** With what is read of it, it comes to an end, whatever it is
answered; it requests nothing but itself, at the block; it is refused before any request unless it
makes one; and a block passed by the caller makes no difference. -/
structure CallPinned (frames : ℕ) (b : ConcordiumBlock) (api : SafeApiProxy) (m : Method)
    (args : List Argument) : Prop where
  terminates : ∃ bound, ∀ tr p, Steps (api.callAndRead frames m args) tr p → tr.length ≤ bound
  requests : ∀ tr p, Steps (api.callAndRead frames m args) tr p →
    ∀ ev ∈ tr, PinnedRequest b m args ev.1
  refuses : ∀ tr p, Steps (api.callAndRead frames m args) tr p → p.Stopped →
    (tr = [] ∧ ∃ name, p = .fail (notSupported name)) ∨
      ∃ transport m' sent reply, ⟨.grpc transport m' sent, reply⟩ ∈ tr
  ignoresBlock : ∀ args', SameButBlock m args args' →
    api.call frames m args = api.call frames m args'

/-- The call is pinned to the block on every API object made for it. -/
def StatePinned (frames : ℕ) (b : ConcordiumBlock) (m : Method) (args : List Argument) : Prop :=
  ∀ tr api, Steps (getApi b) tr (.ret api) → CallPinned frames b api m args

variable {frames height : ℕ} {hash : String} {b : ConcordiumBlock} {api : SafeApiProxy} {m : Method}
  {args args' : List Argument}

/-- The clients that stand for one block. -/
def SafeConcordiumGRPCClient.IsAt (height : ℕ) (hash : String)
    (client : SafeConcordiumGRPCClient) : Prop :=
  client.blockHeight = height ∧ client.blockHash = hash

/-- Whatever the pool answers, an acquired client stands for the block. -/
theorem within_acquire {P : ApiRequest → Prop} (hP : P .unsafeApi) :
    (acquire height hash).Within P (SafeConcordiumGRPCClient.IsAt height hash) 1 :=
  (Proc.Within.await hP).bind (n := 0) fun _ _ => Proc.Within.ret_iff.mpr ⟨rfl, rfl⟩

theorem returns_getApi_iff {tr : List (Event ApiRequest ApiRequest.Reply JsError)} :
    Steps (getApi b) tr (.ret api) ↔
      ∃ transport : String, tr = [⟨.unsafeApi, .ok transport⟩] ∧
        api = ⟨⟨transport, toNumber b.blockHeight, b.blockHash⟩, toNumber b.blockHeight,
          b.blockHash⟩ := by
  simp only [getApi, getSafeApi, acquire, returns_bind_iff, returns_await_iff, Proc.pure_eq,
    steps_ret_iff]
  constructor
  · rintro ⟨_, _, _, rfl, ⟨_, transport, _, rfl, rfl, rfl, ⟨⟩⟩, rfl, ⟨⟩⟩
    exact ⟨transport, rfl, rfl⟩
  · rintro ⟨transport, rfl, rfl⟩
    exact ⟨_, _, [], rfl, ⟨_, transport, [], rfl, rfl, rfl, rfl⟩, rfl, rfl⟩

/-! ### Calls that are refused, and calls that are made -/

theorem call_of_throws {e : JsError}
    (hbody : ∀ (client : SafeConcordiumGRPCClient) args, client.body m args = .throws e)
    (hretry : isRetriable e = false) : api.call (frames + 1) m args = .fail e :=
  Proc.retry_fail (awaitResult_of_throws (hbody api.target args)) hretry

theorem call_getAnonymityRevokers :
    api.call frames .getAnonymityRevokers args = .fail stackOverflow := by
  refine Proc.retry_fail (e := stackOverflow) ?_ rfl
  have hthrows : directCall frames api.target .getAnonymityRevokers args = .error stackOverflow :=
    streamCall_getAnonymityRevokers
  rw [hthrows]
  rfl

section Made

variable {sent : List Argument}

/-- The first request of a call goes to the client that the object was made for. -/
theorem callAndRead_eq_ask (hbody : api.target.body m args = .callSuper m sent) :
    ∃ k, api.callAndRead (frames + 1) m args = .ask (.grpc api.target.transport m sent) k := by
  have hround : ∀ next, ∃ k, (Proc.round isRetriable (acquire api.height api.hash)
      (fun client => awaitResult (directCall (frames + 1) client m args)) api.target next >>=
        Awaited.read) = .ask (.grpc api.target.transport m sent) k := by
    intro next
    rw [Proc.round, awaitResult_of_callSuper hbody]
    -- a promise makes its request in the attempt, an iterable when it is read
    cases m.resultType <;> exact ⟨_, rfl⟩
  exact hround _

/-- Handing a request over makes no other, and neither does reading. -/
theorem within_handOver {P : ApiRequest → Prop} {n : ℕ} {request : ApiProc Value} (r : ResultType)
    (h : request.Within P (fun _ => True) n) :
    (r.handOver request).Within P (fun a => a.read.Within P (fun _ => True) n) n := by
  cases r with
  | promise =>
    exact h.bind (n := 0) fun v _ =>
      Proc.Within.ret_iff.mpr (Proc.Within.ret_iff.mpr trivial)
  | asyncIterable => exact Proc.Within.ret_iff.mpr h

/-- **A call that is made** requests nothing but itself, first and after every failure. -/
theorem within_callAndRead {P : ApiRequest → Prop} (hpool : P .unsafeApi)
    (hrequest : ∀ transport, P (.grpc transport m sent))
    (hbody : ∀ client : SafeConcordiumGRPCClient, client.IsAt api.height api.hash →
      client.body m args = .callSuper m sent)
    (htarget : api.target.IsAt api.height api.hash) :
    (api.callAndRead (frames + 1) m args).Within P (fun _ => True) (maxRetries * 2 + 1) := by
  -- what comes back may still be to be read, and then makes the request once
  have hcall : (api.call (frames + 1) m args).Within P
      (fun a => a.read.Within P (fun _ => True) 1) (maxRetries * 2) := by
    refine Proc.Within.retry (fun client hclient => ?_) (within_acquire hpool) (maxRetries - 1)
      htarget
    rw [awaitResult_of_callSuper (hbody client hclient)]
    exact within_handOver _ (Proc.Within.await (hrequest client.transport))
  exact hcall.bind fun _ ha => ha

end Made

/-- Calls whose arguments differ in the block at most are the same. -/
theorem call_congr (hm : m ≠ .getAnonymityRevokers) (hargs : SameButBlock m args args') :
    api.call (frames + 1) m args = api.call (frames + 1) m args' := by
  have hattempt : ∀ client, awaitResult (directCall (frames + 1) client m args) =
      awaitResult (directCall (frames + 1) client m args') := by
    intro client
    rcases body_eq hm with ⟨name, hname⟩ | hsent
    · rw [awaitResult_of_throws (hname client args), awaitResult_of_throws (hname client args')]
    · obtain ⟨sent, hpin, hbody⟩ := hsent client args
      obtain ⟨sent', hpin', hbody'⟩ := hsent client args'
      rw [pinnedArgs?_congr hargs, hpin'] at hpin
      cases hpin
      rw [awaitResult_of_callSuper hbody, awaitResult_of_callSuper hbody']
  rw [SafeApiProxy.call, SafeApiProxy.call, funext hattempt]

/-- A refused call is pinned to any block. -/
theorem callPinned_of_unsupported {name : String} (hm : m ≠ .getAnonymityRevokers)
    (hbody : ∀ (client : SafeConcordiumGRPCClient) args, client.body m args = unsupported name) :
    CallPinned (frames + 1) b api m args := by
  have hsteps : ∀ tr p, Steps (api.callAndRead (frames + 1) m args) tr p →
      tr = [] ∧ p = .fail (notSupported name) := by
    intro tr p h
    rwa [SafeApiProxy.callAndRead, call_of_throws hbody rfl, Proc.fail_bind, steps_fail_iff] at h
  refine ⟨⟨0, fun tr p h => ?_⟩, fun tr p h => ?_, fun tr p h _ => ?_, fun _ => call_congr hm⟩
  · rw [(hsteps tr p h).1, List.length_nil]
  · simp [(hsteps tr p h).1]
  · exact Or.inl ⟨(hsteps tr p h).1, name, (hsteps tr p h).2⟩

/-- A call that is made is pinned to the block if, on every client of its API object, it is the
call that the method stands for. -/
theorem callPinned_of_callSuper {sent : List Argument} (hm : m ≠ .getAnonymityRevokers)
    (hdue : pinnedArgs? b.blockHeight b.blockHash m args = some sent)
    (hbody : ∀ client : SafeConcordiumGRPCClient, client.IsAt api.height api.hash →
      client.body m args = .callSuper m sent)
    (htarget : api.target.IsAt api.height api.hash) : CallPinned (frames + 1) b api m args := by
  have hwithin : (api.callAndRead (frames + 1) m args).Within (PinnedRequest b m args)
      (fun _ => True) (maxRetries * 2 + 1) :=
    within_callAndRead trivial (fun _ => ⟨rfl, hdue⟩) hbody htarget
  refine ⟨⟨_, fun tr p h => (hwithin.steps h).1⟩, fun tr p h => (hwithin.steps h).2.1,
    fun tr p h hstopped => Or.inr ?_, fun _ => call_congr hm⟩
  obtain ⟨k, hask⟩ : ∃ k, api.callAndRead (frames + 1) m args = .ask _ k :=
    callAndRead_eq_ask (hbody api.target htarget)
  rw [hask] at h
  rcases steps_ask_iff.mp h with ⟨-, rfl⟩ | ⟨reply, tr', rfl, -⟩
  · exact hstopped.elim
  · exact ⟨_, _, _, reply, List.mem_cons_self⟩

/-- **Calls that are pinned.** On an API object for a client of the block, a method that does not
call itself is pinned to it if the arguments it is due are. -/
theorem callPinned_of_ne (hm : m ≠ .getAnonymityRevokers)
    (htarget : api.target.IsAt api.height api.hash)
    (hpin : pinnedArgs? api.height api.hash m args = pinnedArgs? b.blockHeight b.blockHash m args) :
    CallPinned (frames + 1) b api m args := by
  rcases body_eq hm with ⟨name, hname⟩ | hsent
  · exact callPinned_of_unsupported hm hname
  · obtain ⟨sent, hdue, -⟩ := hsent api.target args
    rw [htarget.1, htarget.2] at hdue
    refine callPinned_of_callSuper hm (hpin ▸ hdue) (fun client hclient => ?_) htarget
    obtain ⟨sent', hdue', hbody⟩ := hsent client args
    rw [hclient.1, hclient.2, hdue] at hdue'
    cases hdue'
    exact hbody

/-- The call that exhausts the stack is not pinned to any block: it throws, but does not refuse. -/
theorem not_callPinned_getAnonymityRevokers :
    ¬ CallPinned frames b api .getAnonymityRevokers args := by
  intro h
  have hcall : Steps (api.callAndRead frames .getAnonymityRevokers args) []
      (.fail stackOverflow) := by
    rw [SafeApiProxy.callAndRead, call_getAnonymityRevokers]
    exact .refl _
  rcases h.refuses _ _ hcall trivial with ⟨-, name, hname⟩ | ⟨_, _, _, _, hmem⟩
  · exact absurd (Proc.fail.inj hname) (by simp [stackOverflow, notSupported, plainError])
  · cases hmem

/-- The blocks at the height are requested for the client's height, which has to be the block's. -/
theorem blockHeight_of_callPinned (h : CallPinned (frames + 1) b api .getBlocksAtHeight args) :
    api.target.blockHeight = b.blockHeight := by
  have hbody : api.target.body .getBlocksAtHeight args =
      .callSuper .getBlocksAtHeight [.bigint api.target.blockHeight] := rfl
  obtain ⟨k, hask⟩ : ∃ k, api.callAndRead (frames + 1) .getBlocksAtHeight args =
      .ask (.grpc _ .getBlocksAtHeight [.bigint api.target.blockHeight]) k :=
    callAndRead_eq_ask hbody
  -- one request is enough, whatever it is answered
  have hcall : Steps (api.callAndRead (frames + 1) .getBlocksAtHeight args)
      [⟨.grpc api.target.transport .getBlocksAtHeight [.bigint api.target.blockHeight],
        .error stackOverflow⟩]
      (k (.error stackOverflow)) := by
    rw [hask]
    exact .ask (.refl _)
  have hdue : some [Argument.bigint b.blockHeight] =
      some [Argument.bigint api.target.blockHeight] :=
    (h.requests _ _ hcall _ List.mem_cons_self).2
  have hheight := Argument.bigint_injective (List.cons.inj (Option.some.inj hdue)).1
  exact (Int.ofNat_inj.mp hheight).symm

/-- **Which calls are pinned to the block.** The revokers' never are; a call for the blocks at the
height is if the height is a number exactly, and every other call is. -/
theorem statePinned_iff (frames : ℕ) (b : ConcordiumBlock) (m : Method) (args : List Argument) :
    StatePinned (frames + 1) b m args ↔
      m ≠ .getAnonymityRevokers ∧
        (m = .getBlocksAtHeight → toNumber b.blockHeight = b.blockHeight) := by
  constructor
  · intro h
    have hpinned := h _ _ (returns_getApi_iff.mpr ⟨"", rfl, rfl⟩)
    refine ⟨?_, ?_⟩
    · rintro rfl
      exact not_callPinned_getAnonymityRevokers hpinned
    · rintro rfl
      exact blockHeight_of_callPinned hpinned
  · rintro ⟨hm, hheight⟩ tr api happ
    obtain ⟨transport, -, rfl⟩ := returns_getApi_iff.mp happ
    exact callPinned_of_ne hm ⟨rfl, rfl⟩ (pinnedArgs?_height hheight)

/-- A handler that asks for the anonymity revokers, without arguments. -/
theorem not_statePinned_getAnonymityRevokers :
    ¬ StatePinned 1000 transferBlockAssembled .getAnonymityRevokers [] :=
  fun h => not_callPinned_getAnonymityRevokers (h _ _ (returns_getApi_iff.mpr ⟨"", rfl, rfl⟩))

end SubqlConcordium
