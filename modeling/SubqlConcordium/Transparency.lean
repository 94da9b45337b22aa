import SubqlConcordium.ApiService

/-!
# What a call hands back

A call of the client hands back a promise, or an iterable that is read afterwards. A call on the
proxy always hands back a promise, since its handler is an `async` function; of a promise that makes
no difference, but an iterable ends up inside one, and a promise cannot be iterated.

A handler is written against the declared types, which know nothing of the proxy. It awaits what is
declared a promise, and runs a `for await` over what is declared an iterable. `consume` does the
same, and whether a call may be proxied is a question about what `consume` makes of it.

## Whose fault it is

An `async` function returns a promise, whatever it returns. The handler of the proxy is one, and so
a caller who writes `for await` over a stream, as the types of the client suggest, gets a promise
and no iterator. The client itself hands over the stream. The difference is in the wrapper alone,
and `consume` is the caller that shows it.

## Main definitions

* `consume` — using a result as its declared type allows
* `Transparent` — the proxied call can be used in place of the direct one

## Main results

* `transparent_of_promise`, `consume_call` — promises, and streams
* `transparent_iff` — the methods whose calls are transparent
-/

namespace SubqlConcordium

open Js Interaction

/-- The error of a `for await` over something that is not iterable. -/
def notAsyncIterable : JsError := typeError "object is not async iterable"

/-- Use a result as its declared type allows: await the promise, or read the iterable to its end
with `for await`. -/
def consume : ResultType → Except JsError Result → ApiProc Awaited
  | .promise, result => awaitResult result
  | .asyncIterable, .error e => .fail e
  | .asyncIterable, .ok (.promise _) => .fail notAsyncIterable
  | .asyncIterable, .ok (.asyncIterable elements) => Awaited.value <$> elements

/-- **Transparency.** Whatever the caller gets out of the direct call on the client, it gets out of
the proxied one, which hands back a promise, by the same requests. -/
def Transparent (frames : ℕ) (api : SafeApiProxy) (m : Method) : Prop :=
  ∀ args tr a, Steps (consume m.resultType (directCall frames api.target m args)) tr (.ret a) →
    Steps (consume m.resultType (.ok (.promise (api.call frames m args)))) tr (.ret a)

/-- The streams that the client serves. -/
def servedStreams : List Method :=
  [.getAccountList, .getModuleList, .getAncestors, .getInstanceState, .getIdentityProviders,
    .getBakerList, .getPoolDelegators, .getPoolDelegatorsRewardPeriod, .getPassiveDelegators,
    .getPassiveDelegatorsRewardPeriod, .getBlockTransactionEvents, .getBlockSpecialEvents,
    .getBlockPendingUpdates]

variable {frames : ℕ} {api : SafeApiProxy} {m : Method} {args : List Argument}

/-! ### Promises -/

theorem transparent_of_promise (hm : m.resultType = .promise) : Transparent frames api m := by
  intro args tr a h
  rw [hm] at h ⊢
  have hattempt : Steps (awaitResult (directCall frames api.target m args)) tr
      (.ofExcept (.ok a)) := h
  exact (steps_retry_iff (x := .ok a)).mpr ⟨_, .final hattempt (by simp)⟩

/-! ### Streams -/

/-- The proxied call of a stream cannot be iterated. -/
theorem consume_call (hm : m.resultType = .asyncIterable) :
    consume m.resultType (.ok (.promise (api.call frames m args))) = .fail notAsyncIterable := by
  rw [hm]
  rfl

theorem streamCall_of_served (frames : ℕ) (hm : m ∈ servedStreams)
    (client : SafeConcordiumGRPCClient) (args : List Argument) :
    ∃ sent, streamCall (frames + 1) client m args =
      .ok (.asyncIterable (Proc.await (ApiRequest.grpc client.transport m sent))) := by
  cases m <;> first
    | exact ⟨_, rfl⟩
    | exact absurd hm (by decide)

theorem streamCall_of_not_served (frames : ℕ) (hstream : m.resultType = .asyncIterable)
    (hm : m ∉ servedStreams) (client : SafeConcordiumGRPCClient) (args : List Argument) :
    ∃ e, streamCall frames client m args = .error e := by
  cases frames with
  | zero => exact ⟨_, rfl⟩
  | succ frames =>
    cases m <;> first
      | exact ⟨_, rfl⟩
      | exact ⟨_, streamCall_getAnonymityRevokers⟩
      | exact absurd hstream (by decide)
      | exact absurd hm (by decide)

theorem resultType_of_served (hm : m ∈ servedStreams) : m.resultType = .asyncIterable := by
  have hall : ∀ m ∈ servedStreams, m.resultType = .asyncIterable := by decide
  exact hall m hm

/-- A stream that is served can be read, but not through the proxy. -/
theorem not_transparent_of_served (frames : ℕ) (api : SafeApiProxy) (hm : m ∈ servedStreams) :
    ¬ Transparent (frames + 1) api m := by
  intro h
  have hstream := resultType_of_served hm
  obtain ⟨sent, hcall⟩ := streamCall_of_served frames hm api.target []
  have hdirect : Steps (consume m.resultType (directCall (frames + 1) api.target m []))
      [⟨.grpc api.target.transport m sent, .ok (.arr [])⟩] (.ret (.value (.arr []))) := by
    simp only [directCall, hstream, hcall, consume]
    exact .ask (.refl _)
  have hproxied := h [] _ _ hdirect
  rw [consume_call hstream] at hproxied
  exact absurd (steps_fail_iff.mp hproxied).2 (by simp)

/-- **Which calls are transparent.** All but those of the streams that the client serves. -/
theorem transparent_iff (frames : ℕ) (api : SafeApiProxy) (m : Method) :
    Transparent (frames + 1) api m ↔ m ∉ servedStreams := by
  refine ⟨fun h hm => not_transparent_of_served frames api hm h, fun hm => ?_⟩
  cases hresult : m.resultType with
  | promise => exact transparent_of_promise hresult
  | asyncIterable =>
    intro args tr a h
    obtain ⟨e, hthrows⟩ := streamCall_of_not_served (frames + 1) hresult hm api.target args
    simp only [directCall, hresult, hthrows, consume] at h
    exact absurd (steps_fail_iff.mp h).2 (by simp)

theorem not_transparent_getAccountList :
    ¬ Transparent 1000 ⟨⟨"node1", 7, "b7"⟩, 7, "b7"⟩ .getAccountList :=
  not_transparent_of_served 999 _ (by decide)

end SubqlConcordium
